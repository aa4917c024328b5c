import Formula.Operation

/-! Symbols tell operations apart, and precedence tells which operators group from the right. -/

namespace Formula.Operation

/-- The symbol of an operation stands for that operation. -/
@[simp] theorem ofSymbol?_symbol (operation : Operation) :
    ofSymbol? operation.symbol = some operation := by
  -- The table is searched from the front, so each entry has to be told from those before it.
  rcases operation with operation | operation <;> cases operation <;> rfl

/-- A text stands for an operation exactly when it is the symbol of that operation. -/
theorem ofSymbol?_eq_some_iff {text : String} {operation : Operation} :
    ofSymbol? text = some operation ↔ operation.symbol = text := by
  -- What is found in the table has the symbol that was looked for.
  constructor
  · intro found
    have named := List.find?_some found
    simpa using named
  · rintro rfl
    exact ofSymbol?_symbol operation

/-- Operations with the same symbol are the same. -/
theorem symbol_injective {operation other : Operation} (same : operation.symbol = other.symbol) :
    operation = other := by
  -- The symbol stands for one operation only.
  have found := ofSymbol?_symbol operation
  rw [same, ofSymbol?_symbol] at found
  exact (Option.some.inj found).symm

/-- Every operation has an entry in the table. -/
theorem mem_all (operation : Operation) : operation ∈ all := by
  -- The operations are finitely many, and each is looked up.
  rcases operation with operation | operation <;> cases operation <;> decide

/-- Exactly the operators that bind at least as strongly as powers group from the right. -/
theorem associativityOf_eq_right_iff {text : String} :
    associativityOf text = .right ↔ 3 ≤ precedenceOf text := by
  -- Powers and signs are the only operations that bind so strongly.
  unfold associativityOf precedenceOf
  cases ofSymbol? text with
  | none => simp
  | some operation => rcases operation with operation | operation <;> cases operation <;> decide

end Formula.Operation
