import Formula.Postfix.Evaluation
import Formula.Proofs.Operation

/-! Trees of tokens: a row of postfix tokens is the postorder of at most one well-formed tree. -/

namespace Formula

/-- A tree of tokens, each of which is applied to the trees below it. -/
inductive TokenTree where
  | node (token : Token) (children : List TokenTree)

namespace TokenTree

mutual

/-- The tokens of a tree, those of the trees below a token before the token itself. -/
def postorder : TokenTree → List Token
  | node token children => postorders children ++ [token]

/-- The tokens of a row of trees, one tree after the other. -/
def postorders : List TokenTree → List Token
  | [] => []
  | tree :: rest => tree.postorder ++ postorders rest

end

/-- Two rows of trees have their tokens one after the other. -/
@[simp] theorem postorders_append (left right : List TokenTree) :
    postorders (left ++ right) = postorders left ++ postorders right := by
  -- The tokens of a row are those of its trees, each after the one before.
  induction left with
  | nil => simp [postorders]
  | cons tree rest ih => simp [postorders, ih]

/-- A tree that has a value: literals stand alone, and operations have as many trees as operands. -/
inductive WellFormed (supplied : Bool) : TokenTree → Prop where
  | letter {token : Token} (kind : token.kind = .literal) (named : token.text = Token.variableName)
      (given : supplied = true) : WellFormed supplied (node token [])
  | numeral {token : Token} (kind : token.kind = .literal)
      (unnamed : token.text ≠ Token.variableName) (readable : (readFloat? token.text).isSome) :
      WellFormed supplied (node token [])
  | operation {token : Token} {children : List TokenTree} {operation : Operation}
      (kind : token.kind = .operator ∨ token.kind = .function)
      (known : Operation.ofSymbol? token.text = some operation)
      (count : children.length = operation.arity)
      (below : ∀ child ∈ children, WellFormed supplied child) :
      WellFormed supplied (node token children)

/-- An operation on two operands, with a tree for each of them. -/
theorem WellFormed.pair {supplied : Bool} {token : Token} {left right : TokenTree}
    {operation : BinaryOperation} (kind : token.kind = .operator ∨ token.kind = .function)
    (known : Operation.ofSymbol? token.text = some (.binary operation))
    (before : left.WellFormed supplied) (after : right.WellFormed supplied) :
    (node token [left, right]).WellFormed supplied := by
  refine .operation kind known rfl fun child member => ?_
  -- There are exactly two trees below, and each is one of the two.
  simp only [List.mem_cons, List.not_mem_nil, or_false] at member
  rcases member with rfl | rfl
  · exact before
  · exact after

end TokenTree

namespace Token

/-- How many trees a token takes from those before it; literals take none. -/
def operands (token : Token) : Nat :=
  if token.kind = .literal then 0
  else ((Operation.ofSymbol? token.text).map Operation.arity).getD 0

end Token

namespace TokenTree

/-- A token is put on top of the last trees of a row, latest first, as many as it takes. -/
def plant (row : List TokenTree) (token : Token) : List TokenTree :=
  node token (row.take token.operands).reverse :: row.drop token.operands

/-- Planting a token on its own trees puts them below it. -/
theorem plant_reverse_append {token : Token} {children : List TokenTree}
    (count : children.length = token.operands) (row : List TokenTree) :
    plant (children.reverse ++ row) token = node token children :: row := by
  -- The row starts with exactly the trees that the token takes.
  have length : children.reverse.length = token.operands := by simpa using count
  simp [plant, ← length]

/-- Planting the tokens of well-formed trees one by one grows each of these trees. -/
theorem foldl_plant_postorder {supplied : Bool} {tree : TokenTree}
    (formed : tree.WellFormed supplied) :
    ∀ row, tree.postorder.foldl plant row = tree :: row := by
  -- The induction is on the tree; a row of trees below a token is grown from its front.
  induction formed with
  | letter kind | numeral kind =>
    intro row
    simp [postorder, postorders, plant, Token.operands, kind]
  | @operation token children operation kind known count _ ih =>
    intro row
    -- The trees below are grown one by one, and end up on top of the row backwards.
    have grown : ∀ (trees : List TokenTree),
        (∀ child ∈ trees, ∀ row, child.postorder.foldl plant row = child :: row) →
        ∀ row, (postorders trees).foldl plant row = trees.reverse ++ row := by
      intro trees each
      induction trees with
      | nil => intro row; rfl
      | cons tree rest ihRest =>
        intro row
        rw [postorders, List.foldl_append, each tree (by simp),
          ihRest (fun child member => each child (by simp [member]))]
        simp
    -- What a well-formed operation takes is what the table says of its symbol.
    have takes : children.length = token.operands := by
      rcases kind with kind | kind <;> simp [Token.operands, kind, known, count]
    rw [postorder, List.foldl_append, grown children ih row]
    exact plant_reverse_append takes row

/-- Two well-formed trees with the same postorder are the same tree. -/
theorem eq_of_postorder_eq {supplied : Bool} {left right : TokenTree}
    (leftFormed : left.WellFormed supplied) (rightFormed : right.WellFormed supplied)
    (same : left.postorder = right.postorder) : left = right := by
  -- The tree can be grown again from its postorder.
  have grownLeft := foldl_plant_postorder leftFormed []
  have grownRight := foldl_plant_postorder rightFormed []
  rw [same, grownRight] at grownLeft
  -- Both trees are what grows from the same tokens on an empty row.
  simpa using grownLeft.symm

end TokenTree

end Formula
