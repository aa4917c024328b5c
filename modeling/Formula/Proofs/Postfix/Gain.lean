import Formula.Proofs.Postfix.Conservation
import Formula.Proofs.Postfix.Tree

/-! Operands at hand: what each token brings or takes, and what a whole tree leaves. -/

namespace Formula

/-- What a token adds to the operands at hand: itself, less those that it takes. -/
def Token.gain (token : Token) : Int :=
  -- Parentheses and commas never reach the operands.
  if token.kind.isKept then 1 - token.operands else 0

/-- What a row of tokens adds to the operands at hand. -/
def gain (tokens : List Token) : Int :=
  (tokens.map Token.gain).sum

/-- An empty row adds nothing. -/
@[simp] theorem gain_nil : gain [] = 0 :=
  rfl

/-- A row adds what its first token does, and what the others do. -/
@[simp] theorem gain_cons (token : Token) (rest : List Token) :
    gain (token :: rest) = token.gain + gain rest := by
  -- Both sides are the sum over the same row.
  simp [gain]

/-- Two rows add what each of them does. -/
@[simp] theorem gain_append (tokens others : List Token) :
    gain (tokens ++ others) = gain tokens + gain others := by
  -- Sums over rows are sums of sums.
  simp [gain]

/-- The order of a row does not matter to what it adds. -/
theorem gain_perm {tokens others : List Token} (perm : tokens.Perm others) :
    gain tokens = gain others := by
  -- Addition does not depend on the order of two neighbours, and hence on no order.
  induction perm with
  | nil => rfl
  | cons token _ ih => simp only [gain_cons, ih]
  | swap token other rest =>
    simp only [gain_cons]
    omega
  | trans _ _ first second => exact first.trans second

/-- Parentheses and commas add nothing. -/
theorem gain_kept (tokens : List Token) : gain (Postfix.kept tokens) = gain tokens := by
  -- Every token is either kept, or adds nothing by definition.
  induction tokens with
  | nil => rfl
  | cons token rest ih =>
    rw [Postfix.kept_cons, gain_append, gain_cons, ih]
    by_cases isKept : token.kind.isKept = true
    · simp [Postfix.kept_singleton isKept]
    · have dropped : token.kind.isKept = false := by simpa using isKept
      simp [Postfix.kept_dropped dropped, Token.gain, dropped]

namespace TokenTree

/-- A well-formed tree takes its operands from its own tokens, and leaves one. -/
theorem WellFormed.gain_postorder {supplied : Bool} {tree : TokenTree}
    (formed : tree.WellFormed supplied) : gain tree.postorder = 1 := by
  -- Each tree below an operation leaves one operand, and the operation takes all of these.
  induction formed with
  | letter kind | numeral kind =>
    simp [postorder, postorders, Token.gain, Token.operands, kind, Kind.isKept]
  | @operation token children operation kind known count _ ih =>
    have leaves : ∀ trees : List TokenTree, (∀ child ∈ trees, gain child.postorder = 1) →
        gain (postorders trees) = trees.length := by
      intro trees each
      induction trees with
      | nil => rfl
      | cons tree rest ihRest =>
        have first := each tree (by simp)
        have others := ihRest fun child member => each child (by simp [member])
        simp only [postorders, gain_append, first, others, List.length_cons]
        omega
    have takes : token.operands = children.length := by
      rcases kind with kind | kind <;> simp [Token.operands, kind, known, count]
    have isKept : token.kind.isKept = true := by
      rcases kind with kind | kind <;> simp [kind, Kind.isKept]
    have below := leaves children ih
    simp only [postorder, gain_append, gain_cons, gain_nil, below, Token.gain, isKept, if_true,
      takes]
    omega

/-- The first token of a well-formed tree is a literal. -/
theorem WellFormed.literal_first {supplied : Bool} {tree : TokenTree}
    (formed : tree.WellFormed supplied) :
    ∃ first rest, tree.postorder = first :: rest ∧ first.kind = .literal := by
  -- Every operation has a tree below it, whose tokens come before its own.
  induction formed with
  | @letter token kind | @numeral token kind => exact ⟨token, [], rfl, kind⟩
  | @operation token children operation kind known count _ ih =>
    cases children with
    | nil =>
      -- No operation stands alone.
      cases operation <;> simp [Operation.arity] at count
    | cons child others =>
      obtain ⟨first, rest, order, literal⟩ := ih child (by simp)
      exact ⟨first, rest ++ (postorders others ++ [token]),
        by simp [postorder, postorders, order], literal⟩

/-- A token of a well-formed tree is a literal that can be read, or stands for an operation. -/
theorem WellFormed.of_mem {supplied : Bool} {tree : TokenTree} (formed : tree.WellFormed supplied)
    {token : Token} (member : token ∈ tree.postorder) :
    (token.kind = .literal → token.text ≠ Token.variableName →
      (readFloat? token.text).isSome) ∧
      (token.kind ≠ .literal → (Operation.ofSymbol? token.text).isSome) := by
  -- The token is that at the top of the tree, or belongs to a tree below.
  induction formed with
  | @letter top kind named =>
    obtain rfl : token = top := by simpa [postorder, postorders] using member
    exact ⟨fun _ unnamed => absurd named unnamed, fun other => absurd kind other⟩
  | @numeral top kind unnamed readable =>
    obtain rfl : token = top := by simpa [postorder, postorders] using member
    exact ⟨fun _ _ => readable, fun other => absurd kind other⟩
  | @operation top children operation kind known count _ ih =>
    have below : ∀ trees : List TokenTree, token ∈ postorders trees →
        ∃ child ∈ trees, token ∈ child.postorder := by
      intro trees inTrees
      induction trees with
      | nil => cases inTrees
      | cons tree rest ihRest =>
        rcases List.mem_append.mp inTrees with first | later
        · exact ⟨tree, by simp, first⟩
        · obtain ⟨child, inRest, inChild⟩ := ihRest later
          exact ⟨child, List.mem_cons_of_mem tree inRest, inChild⟩
    rcases List.mem_append.mp member with inChildren | atTop
    · obtain ⟨child, inChildren, inChild⟩ := below children inChildren
      exact ih child inChildren inChild
    · obtain rfl : token = top := by simpa using atTop
      refine ⟨fun literal => ?_, fun _ => by simp [known]⟩
      rcases kind with kind | kind <;> rw [kind] at literal <;> cases literal

end TokenTree

end Formula
