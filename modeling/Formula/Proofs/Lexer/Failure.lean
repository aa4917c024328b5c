import Formula.Expression
import Formula.Proofs.Lexer.Coverage
import Mathlib.Data.Nat.Find
import Mathlib.Order.Bounds.Basic

/-! The failures of the lexer: the first ambiguous place, and the first character of no token. -/

namespace Formula

/-- The character at a place of a text belongs to no token. -/
def UncoveredAt (text : List Char) (place : Nat) : Prop :=
  ∃ c ∈ text[place]?, ¬Covered (text.take place).reverse c (text.drop (place + 1))

/-- An x right before a parenthesis, where an operand is in place, may be variable or function. -/
def AmbiguousAt (text : List Char) (place : Nat) : Prop :=
  text[place]? = some 'x' ∧ text[place + 1]? = some '(' ∧
    (place = 0 ∨ ∃ c ∈ text[place - 1]?, c ∈ ['-', '+', '*', '/', '^', '(', ','])

/-- Why a text without blanks has no tokens: what is reported, and for which place. -/
inductive Fails (policy : ConflictPolicy) (rejecting : Bool) (text : List Char) :
    (message : String) → (position? : Option Nat) → Prop where
  /-- There is nothing in the text. -/
  | empty (nothing : text = []) : Fails policy rejecting text "Expression is empty" none
  /-- The first ambiguous place is reported under the strict policy, before anything else. -/
  | ambiguous {place : Nat} (strict : policy = .strict)
      (first : IsLeast {place | AmbiguousAt text place} place) :
      Fails policy rejecting text
        ("Ambiguous token at position " ++ toString place ++ ": 'x' (literal) and 'x' (function)")
        (some place)
  /-- Otherwise the first uncovered character is reported, if such characters are refused. -/
  | unexpected {place : Nat} {c : Char} (refused : rejecting = true)
      (settled : policy = .strict → ∀ place, ¬AmbiguousAt text place)
      (first : IsLeast {place | UncoveredAt text place} place) (found : text[place]? = some c) :
      Fails policy rejecting text
        ("Unexpected character '" ++ String.singleton c ++ "' at position " ++ toString place)
        (some place)

/-- What is found first in a row is found at the least place at which there is something. -/
theorem findSome?_zipIdx_eq_some_iff {α β : Type} {xs : List α} {f : α × Nat → Option β}
    {holds : Nat → Prop} (within : ∀ place, holds place → place < xs.length)
    (agrees : ∀ {place x}, xs[place]? = some x → ((f (x, place)).isSome ↔ holds place)) {b : β} :
    xs.zipIdx.findSome? f = some b ↔
      ∃ place x, IsLeast {place | holds place} place ∧ xs[place]? = some x ∧
        f (x, place) = some b := by
  rw [List.findSome?_eq_some_iff]
  constructor
  · -- The number of those before it is the place of what is found.
    rintro ⟨earlier, ⟨x, place⟩, later, split, found, none⟩
    have entry (i : Nat) : xs.zipIdx[i]? = xs[i]?.map (·, i) := by simp
    have here : xs[earlier.length]? = some x ∧ earlier.length = place := by
      have same := entry earlier.length
      rw [split] at same
      cases value : xs[earlier.length]? <;> simp_all
    obtain ⟨here, rfl⟩ := here
    -- Nothing before it shows anything, so that no earlier place counts.
    refine ⟨earlier.length, x, ⟨(agrees here).mp (by simp [found]), fun place held => ?_⟩, here,
      found⟩
    by_contra before
    have bound := within place held
    have value := List.getElem?_eq_getElem bound
    have listed : (xs[place], place) ∈ earlier := by
      have same := entry place
      rw [split, List.getElem?_append_left (by omega), value] at same
      exact List.mem_of_getElem? same
    have some := (agrees value).mpr held
    simp [none _ listed] at some
  · rintro ⟨place, x, ⟨held, least⟩, here, found⟩
    refine ⟨xs.zipIdx.take place, (x, place), xs.zipIdx.drop (place + 1), ?_, found, ?_⟩
    · have same : xs.zipIdx[place]? = some (x, place) := by simp [here]
      obtain ⟨bound, value⟩ := List.getElem?_eq_some_iff.mp same
      rw [← value, List.getElem_cons_drop, List.take_append_drop]
    · -- What comes before would make the place not the least one.
      rintro ⟨y, other⟩ member
      obtain ⟨i, bound, value⟩ := List.mem_iff_getElem.mp member
      simp only [List.length_take, List.length_zipIdx] at bound
      simp only [List.getElem_take, List.getElem_zipIdx, Nat.zero_add, Prod.mk.injEq] at value
      obtain ⟨rfl, rfl⟩ := value
      by_contra some
      have held := (agrees (List.getElem?_eq_getElem (by omega))).mp
        (Option.isSome_iff_ne_none.mpr some)
      have := least held
      omega

/-- What comes right before a place is the head of what comes before it, backwards. -/
theorem head?_reverse_take {text : List Char} {place : Nat} (within : place ≤ text.length)
    (later : place ≠ 0) : (text.take place).reverse.head? = text[place - 1]? := by
  -- The last of the first characters is the one before the place.
  rw [List.head?_reverse, List.getLast?_eq_getElem?, List.length_take, Nat.min_eq_left within,
    List.getElem?_take_of_lt (by omega)]

/-- A place is ambiguous exactly when its character is, between what comes before and after. -/
theorem ambiguousAt_iff {text : List Char} {place : Nat} {c : Char}
    (found : text[place]? = some c) :
    AmbiguousAt text place ↔ Ambiguous (text.take place).reverse c (text.drop (place + 1)) := by
  obtain ⟨within, -⟩ := List.getElem?_eq_some_iff.mp found
  simp only [AmbiguousAt, Ambiguous, found, Option.some.injEq, List.head?_drop]
  refine and_congr_right fun _ => and_congr_right fun _ => ?_
  by_cases beginning : place = 0
  · simp [beginning]
  · -- Only at the beginning does nothing come before.
    have nonempty : (text.take place).reverse ≠ [] := by
      simp only [ne_eq, List.reverse_eq_nil_iff, List.take_eq_nil_iff, not_or]
      exact ⟨beginning, List.ne_nil_of_length_pos (by omega)⟩
    simp only [beginning, nonempty, false_or, OperandAwaited,
      head?_reverse_take within.le beginning]

/-- The first character of no token is the one at the least uncovered place. -/
theorem firstUncovered?_eq_some_iff {text : List Char} {c : Char} {place : Nat} :
    firstUncovered? text = some (c, place) ↔
      IsLeast {place | UncoveredAt text place} place ∧ text[place]? = some c := by
  -- The columns are uncovered at the same places as the text.
  have agrees {place : Nat} {column : Column} (found : (columns text)[place]? = some column) :
      text[place]? = some column.character ∧
        (column.isCovered = false ↔ UncoveredAt text place) := by
    obtain ⟨c, here, shown⟩ := shown_of_columns found
    refine ⟨here.trans (congrArg some shown.character.symm), ?_⟩
    rw [← Bool.not_eq_true, show column.isCovered = column.summary.isCovered from rfl,
      shown.covered]
    simp [UncoveredAt, here]
  have within : ∀ place, UncoveredAt text place → place < (columns text).length := by
    rintro place ⟨c, found, -⟩
    rw [length_columns]
    exact (List.getElem?_eq_some_iff.mp found).1
  -- A search with a mark for each place is one for the first place that is marked.
  have search : firstUncovered? text = (columns text).zipIdx.findSome?
      (Option.map (fun entry => (entry.1.character, entry.2)) ∘
        Option.guard fun entry => !entry.1.isCovered) := by
    rw [← List.map_findSome?, ← List.find?_eq_findSome?_guard]
    rfl
  rw [search, findSome?_zipIdx_eq_some_iff within fun found => by
    simpa using (agrees found).2]
  constructor
  · rintro ⟨least, column, first, found, shows⟩
    simp only [Function.comp_apply, Option.map_eq_some_iff, Option.guard_eq_some_iff] at shows
    obtain ⟨entry, ⟨rfl, -⟩, same⟩ := shows
    obtain ⟨rfl, rfl⟩ := Prod.mk.inj same
    exact ⟨first, (agrees found).1⟩
  · rintro ⟨first, here⟩
    have found := List.getElem?_eq_getElem (within place first.1)
    obtain ⟨character, uncovered⟩ := agrees found
    refine ⟨place, _, first, found, ?_⟩
    obtain rfl := Option.some.inj (here.symm.trans character)
    simp [uncovered.mpr first.1]

/-- At an ambiguous place the variable clashes with a function, and no others have clashes. -/
theorem clashesAt_claims {text : List Char} {place : Nat} {column : Column}
    (found : (columns text)[place]? = some column) :
    (AmbiguousAt text place → clashesAt place column.claims =
      [⟨place, ⟨.literal, ['x']⟩, ⟨.function, ['x']⟩⟩]) ∧
      (¬AmbiguousAt text place → clashesAt place column.claims = []) := by
  obtain ⟨c, here, shown⟩ := shown_of_columns found
  rw [ambiguousAt_iff here, show column.claims = column.summary.claims from rfl]
  refine ⟨fun ambiguous => by rw [shown.both ambiguous]; rfl, fun sole => ?_⟩
  -- A place that is not ambiguous has no second claim.
  have few := shown.sole sole
  cases claims : column.summary.claims with
  | nil => rfl
  | cons claim others =>
    cases others with
    | nil => rfl
    | cons rival more => simp [claims] at few

/--
Clashes are noticed in order of their places.

Every recognizer reads the whole text before the next one, so that a clash further on could be
noticed earlier. But it is always the recognizer of functions that comes second.
-/
theorem clashes_eq_clashesByPlace (text : List Char) : clashes text = clashesByPlace text := by
  -- Where there is a clash, the place is ambiguous, and the second claim a function's.
  have second : ∀ clash ∈ clashesByPlace text, clash.other.form = .function := by
    intro clash member
    obtain ⟨⟨column, place⟩, listed, claimed⟩ := List.mem_flatMap.mp member
    have found : (columns text)[place]? = some column := List.mem_zipIdx_iff_getElem?.mp listed
    have claimed : clash ∈ clashesAt place column.claims := claimed
    obtain ⟨clashing, quiet⟩ := clashesAt_claims found
    by_cases ambiguous : AmbiguousAt text place
    · rw [clashing ambiguous, List.mem_singleton] at claimed
      rw [claimed]
    · rw [quiet ambiguous] at claimed
      cases claimed
  -- The other recognizers notice nothing, and that of functions notices everything.
  have noticed (form : Recognizer) :
      ((clashesByPlace text).filter fun clash => clash.other.form == form) =
        if form = .function then clashesByPlace text else [] := by
    split_ifs with same
    · exact List.filter_eq_self.mpr fun clash member => by rw [second clash member, same]; rfl
    · refine List.filter_eq_nil_iff.mpr fun clash member => ?_
      rw [second clash member, beq_iff_eq]
      exact Ne.symm same
  simp [clashes, noticed, Recognizer.all]

/-- The first clash is the one at the least ambiguous place, of the variable with a function. -/
theorem head?_clashes_eq_some_iff {text : List Char} {clash : Clash} :
    (clashes text).head? = some clash ↔ ∃ place, IsLeast {place | AmbiguousAt text place} place ∧
      clash = ⟨place, ⟨.literal, ['x']⟩, ⟨.function, ['x']⟩⟩ := by
  -- At each place there is one clash or none.
  have agrees {place : Nat} {column : Column} (found : (columns text)[place]? = some column) :
      (AmbiguousAt text place → (clashesAt place column.claims).head? =
        some ⟨place, ⟨.literal, ['x']⟩, ⟨.function, ['x']⟩⟩) ∧
      ((clashesAt place column.claims).head?.isSome → AmbiguousAt text place) := by
    obtain ⟨clashing, quiet⟩ := clashesAt_claims found
    refine ⟨fun ambiguous => by rw [clashing ambiguous]; rfl, fun some => ?_⟩
    by_contra sole
    rw [quiet sole] at some
    cases some
  have within : ∀ place, AmbiguousAt text place → place < (columns text).length := by
    rintro place ⟨found, -⟩
    rw [length_columns]
    exact (List.getElem?_eq_some_iff.mp found).1
  rw [clashes_eq_clashesByPlace, clashesByPlace, List.head?_flatMap,
    findSome?_zipIdx_eq_some_iff within fun found => by
    refine ⟨(agrees found).2, fun ambiguous => ?_⟩
    rw [(agrees found).1 ambiguous]
    rfl]
  constructor
  · rintro ⟨place, column, first, found, shows⟩
    exact ⟨place, first, Option.some.inj (shows.symm.trans ((agrees found).1 first.1))⟩
  · rintro ⟨place, first, rfl⟩
    have found := List.getElem?_eq_getElem (within place first.1)
    exact ⟨place, _, first, found, (agrees found).1 first.1⟩

/-- There are no clashes exactly when no place is ambiguous. -/
theorem clashes_eq_nil_iff_ambiguousAt {text : List Char} :
    clashes text = [] ↔ ∀ place, ¬AmbiguousAt text place := by
  rw [← List.head?_eq_none_iff]
  constructor
  · intro none place ambiguous
    -- Among the ambiguous places there would be a first one.
    classical
    have first : IsLeast {place | AmbiguousAt text place} (Nat.find ⟨place, ambiguous⟩) :=
      ⟨Nat.find_spec ⟨place, ambiguous⟩, fun other held => Nat.find_min' _ held⟩
    have some := head?_clashes_eq_some_iff.mpr ⟨_, first, rfl⟩
    rw [none] at some
    cases some
  · -- A first clash would be at an ambiguous place.
    intro quiet
    by_contra some
    obtain ⟨clash, found⟩ := Option.ne_none_iff_exists'.mp some
    obtain ⟨place, first, -⟩ := head?_clashes_eq_some_iff.mp found
    exact quiet place first.1

/-- The wording of an ambiguous place names the variable first. -/
theorem LexicalFault.message_ambiguous (place : Nat) :
    (ambiguous place ⟨.literal, ['x']⟩ ⟨.function, ['x']⟩).message =
      "Ambiguous token at position " ++ toString place ++
        ": 'x' (literal) and 'x' (function)" := by
  -- Only what comes after the place is put together from pieces.
  have wording : ": '" ++ ("x" ++ ("' (" ++ ("literal" ++ (") and '" ++ ("x" ++ ("' (" ++
      ("function" ++ ")"))))))) = ": 'x' (literal) and 'x' (function)" := by decide
  rw [← wording]
  simp only [← String.append_assoc]
  rfl

/-- A text without blanks has no tokens for exactly one of the stated reasons, if any. -/
theorem tokenizeChars_fails_iff {policy : ConflictPolicy} {rejecting : Bool} {text : List Char}
    {message : String} {position? : Option Nat} :
    (∃ fault, tokenizeChars policy rejecting text = .error fault ∧ fault.message = message ∧
      fault.position? = position?) ↔ Fails policy rejecting text message position? := by
  constructor
  · rintro ⟨fault, failed, rfl, rfl⟩
    -- The lexer looks for the reasons in their order.
    unfold tokenizeChars at failed
    split at failed
    · rename_i nothing
      obtain rfl := Except.error.inj failed
      exact .empty (List.isEmpty_iff.mp nothing)
    · split at failed
      · rename_i clash others found
        obtain rfl := Except.error.inj failed
        obtain ⟨place, first, rfl⟩ := head?_clashes_eq_some_iff.mp (by rw [found]; rfl)
        rw [LexicalFault.message_ambiguous]
        exact .ambiguous rfl first
      · rename_i settled
        split at failed
        · rename_i c place uncovered
          obtain rfl := Except.error.inj failed
          obtain ⟨first, here⟩ := firstUncovered?_eq_some_iff.mp uncovered
          refine .unexpected rfl (fun strict => clashes_eq_nil_iff_ambiguousAt.mp ?_) first here
          cases found : clashes text with
          | nil => rfl
          | cons clash others => exact absurd found (settled clash others strict)
        · cases failed
  · -- Each reason rules out those that are looked for before it.
    intro fails
    cases fails with
    | empty nothing => exact ⟨.empty, by simp [tokenizeChars, nothing], rfl, rfl⟩
    | @ambiguous place strict first =>
      refine ⟨.ambiguous place ⟨.literal, ['x']⟩ ⟨.function, ['x']⟩, ?_,
        LexicalFault.message_ambiguous place, rfl⟩
      obtain ⟨others, found⟩ :=
        List.head?_eq_some_iff.mp (head?_clashes_eq_some_iff.mpr ⟨place, first, rfl⟩)
      have nonempty : text ≠ [] := by
        rintro rfl
        cases found
      simp [tokenizeChars, nonempty, strict, found]
    | @unexpected place c refused settled first here =>
      refine ⟨.unexpected place c, ?_, rfl, rfl⟩
      have nonempty : text ≠ [] := by
        rintro rfl
        cases here
      have uncovered := firstUncovered?_eq_some_iff.mpr ⟨first, here⟩
      cases policy with
      | strict =>
        have quiet := clashes_eq_nil_iff_ambiguousAt.mpr (settled rfl)
        simp [tokenizeChars, nonempty, quiet, refused, uncovered]
      | priority => simp [tokenizeChars, nonempty, refused, uncovered]

namespace Expression

/--
The failures of the lexer under either policy, where unknown characters are refused or not.

A text fails with a message and a place exactly when its characters that are not blank give that
reason: none of them, then under the strict policy the first ambiguous place, then the first
character that is not covered.
-/
theorem tokenize_fails_iff (settings : Settings) (policy : ConflictPolicy) (rejecting : Bool)
    (text : String) (message : String) (position? : Option Nat) :
    (∃ failure, tokenize settings
        { conflictPolicy := some policy.name, rejectUnknown := some rejecting } text =
          .error failure ∧ failure.message = message ∧ failure.position? = position?) ↔
      Fails policy rejecting (Text.withoutBlanks text.toList) message position? := by
  -- With a policy and a refusal given, the settings do not matter.
  rw [← tokenizeChars_fails_iff]
  simp only [tokenize, Settings.policyFor_name, Settings.rejectsUnknown, Option.getD_some,
    Formula.tokenize]
  -- A lexical fault keeps its message and its place as a failure.
  cases tokenizeChars policy rejecting (Text.withoutBlanks text.toList) <;>
    simp [Failure.message, Failure.position?, FormulaFault.message, FormulaFault.position?]

end Expression

end Formula
