import Formula.Lexer
import Formula.Proofs.Lexer.Recognizer

/-! What all recognizers claim of a text together is what one scan from left to right reads. -/

namespace Formula

namespace Recognizer

/-- The claims of all recognizers on one place, the one with the highest priority first. -/
def claimsAt (before after : List Char) : List Claim :=
  all.filterMap fun form =>
    match form.matchLength before after with
    | 0 => none
    | length + 1 => some ⟨form, after.take (length + 1)⟩

/-- A claim at a place is a form that matches there, with the characters that it matches. -/
theorem mem_claimsAt {before after : List Char} {claim : Claim} :
    claim ∈ claimsAt before after ↔ claim.form.matchLength before after ≠ 0 ∧
      claim.lexeme = after.take (claim.form.matchLength before after) := by
  -- Every form is asked, and claims what it matches.
  simp only [claimsAt, List.mem_filterMap, mem_all, true_and]
  constructor
  · rintro ⟨form, claimed⟩
    cases found : form.matchLength before after with
    | zero => simp [found] at claimed
    | succ length =>
      simp only [found, Option.some.injEq] at claimed
      subst claimed
      simp [found]
  · rintro ⟨matched, lexeme⟩
    refine ⟨claim.form, ?_⟩
    cases found : claim.form.matchLength before after with
    | zero => exact absurd found matched
    | succ length =>
      rw [found] at lexeme
      simp [← lexeme]

/-- Nothing is claimed at a place exactly when no form matches there. -/
theorem claimsAt_eq_nil_iff {before after : List Char} :
    claimsAt before after = [] ↔ ∀ form : Recognizer, form.matchLength before after = 0 := by
  -- A form that matched would have its claim among the others.
  constructor
  · intro none form
    cases found : form.matchLength before after with
    | zero => rfl
    | succ length =>
      have claimed : Claim.mk form (after.take (length + 1)) ∈ claimsAt before after :=
        mem_claimsAt.mpr ⟨by simp [found], by simp [found]⟩
      simp [none] at claimed
  · intro none
    rw [List.eq_nil_iff_forall_not_mem]
    intro claim claimed
    exact (mem_claimsAt.mp claimed).1 (none claim.form)

/-- The claims on a place are of different forms. -/
theorem nodup_claimsAt (before after : List Char) :
    ((claimsAt before after).map Claim.form).Nodup := by
  -- The forms that match are asked in a fixed order, in which each occurs once.
  have forms : (claimsAt before after).map Claim.form =
      all.filter fun form => form.matchLength before after != 0 := by
    simp only [claimsAt]
    induction all with
    | nil => rfl
    | cons form others ih => cases found : form.matchLength before after <;> simp [found, ih]
  have distinct : all.Nodup := by decide
  rw [forms]
  exact List.Pairwise.filter _ distinct

end Recognizer

/-- A piece of a text: a token with the claims that it prevails over, or a character of no token. -/
inductive Piece where
  | token (form : Recognizer) (first : Char) (inner : List Char) (rivals : List Claim)
  | loose (character : Char)

/-- One scan of a text: the first claim at a place is a token, and the scan goes on after it. -/
def pieces (before : List Char) : (text : List Char) → List Piece
  | [] => []
  | c :: rest =>
    match Recognizer.claimsAt before (c :: rest) with
    | [] => .loose c :: pieces (c :: before) rest
    | claim :: rivals =>
      .token claim.form c claim.lexeme.tail rivals ::
        pieces (claim.lexeme.tail.reverse ++ c :: before) (rest.drop claim.lexeme.tail.length)
termination_by text => text.length
decreasing_by
  · simp
  · simp only [List.length_drop, List.length_cons]
    omega

namespace Recognizer

/-- The mark of a recognizer on the first character, given how many more its last token covers. -/
def markAt (form : Recognizer) (covered : Nat) (before after : List Char) : Mark :=
  match covered with
  | _ + 1 => .inside
  | 0 =>
    match form.matchLength before after with
    | 0 => .outside
    | length + 1 => .opening (after.take (length + 1))

/-- How many characters after the first one the token of a recognizer covers. -/
def coveredAfter (form : Recognizer) (covered : Nat) (before after : List Char) : Nat :=
  match covered with
  | remaining + 1 => remaining
  | 0 => form.matchLength before after - 1

/-- A recognizer marks one character and goes on with the next. -/
theorem marksFrom_cons (form : Recognizer) (covered : Nat) (before : List Char) (c : Char)
    (rest : List Char) :
    form.marksFrom covered before (c :: rest) = form.markAt covered before (c :: rest) ::
      form.marksFrom (form.coveredAfter covered before (c :: rest)) (c :: before) rest := by
  -- Either a token is still going on, or the form is asked for a new one.
  cases covered with
  | succ remaining => rfl
  | zero =>
    cases matched : form.matchLength before (c :: rest) <;>
      simp [marksFrom, markAt, coveredAfter, matched]

end Recognizer

/-- Rows of marks laid over the characters of a text, one row for each recognizer. -/
def overlay (forms : List Recognizer) (marksOf : Recognizer → List Mark) (text : List Char) :
    List Column :=
  forms.foldr
    (fun form later => List.zipWith
      (fun mark column => { column with marks := (form, mark) :: column.marks })
      (marksOf form) later)
    (text.map (Column.mk · []))

/-- The first marks of all rows make up the first column. -/
theorem overlay_cons (forms : List Recognizer) (first : Recognizer → Mark)
    (later : Recognizer → List Mark) (c : Char) (rest : List Char) :
    overlay forms (fun form => first form :: later form) (c :: rest) =
      ⟨c, forms.map fun form => (form, first form)⟩ :: overlay forms later rest := by
  -- The induction lays one row after the other over the text.
  induction forms with
  | nil => rfl
  | cons form others ih =>
    simp only [overlay, List.foldr_cons] at ih ⊢
    rw [ih]
    rfl

/-- No columns stand over an empty text. -/
theorem overlay_nil (forms : List Recognizer) (marksOf : Recognizer → List Mark) :
    overlay forms marksOf [] = [] := by
  -- However many rows there are, none of them reaches beyond the text.
  induction forms with
  | nil => rfl
  | cons form others ih =>
    have none : overlay (form :: others) marksOf [] =
        List.zipWith (fun mark column => { column with marks := (form, mark) :: column.marks })
          (marksOf form) (overlay others marksOf []) := rfl
    rw [none, ih, List.zipWith_nil_right]

/-- The columns from a place on, given how many characters the last token of each form covers. -/
def columnsFrom (covered : Recognizer → Nat) (before text : List Char) : List Column :=
  overlay Recognizer.all (fun form => form.marksFrom (covered form) before text) text

/-- The columns of a text are those from its beginning, where nothing is covered yet. -/
theorem columns_eq_columnsFrom (text : List Char) :
    columns text = columnsFrom (fun _ => 0) [] text :=
  rfl

/-- The column of one character comes before those of the characters after it. -/
theorem columnsFrom_cons (covered : Recognizer → Nat) (before : List Char) (c : Char)
    (rest : List Char) :
    columnsFrom covered before (c :: rest) =
      ⟨c, Recognizer.all.map fun form =>
        (form, form.markAt (covered form) before (c :: rest))⟩ ::
      columnsFrom (fun form => form.coveredAfter (covered form) before (c :: rest))
        (c :: before) rest := by
  -- Each recognizer marks the character first, and the rows of marks are overlaid.
  simp only [columnsFrom, Recognizer.marksFrom_cons]
  exact overlay_cons _ _ _ c rest

/-- What the lexer reads off a column: its character, its claims, and whether it is covered. -/
structure Summary where
  character : Char
  claims : List Claim
  isCovered : Bool

/-- The summary of a column. -/
def Column.summary (column : Column) : Summary :=
  ⟨column.character, column.claims, column.isCovered⟩

/-- A character within a token is covered, and nothing is claimed to start there. -/
def Summary.within (c : Char) : Summary :=
  ⟨c, [], true⟩

/-- The summaries of the columns of a piece. -/
def Piece.summaries : Piece → List Summary
  | token form first inner rivals =>
    ⟨first, ⟨form, first :: inner⟩ :: rivals, true⟩ :: inner.map Summary.within
  | loose c => [⟨c, [], false⟩]

/-- Where no token reaches from before, a column shows the claims on its place. -/
theorem summary_between (before : List Char) (c : Char) (rest : List Char) :
    Column.summary ⟨c, Recognizer.all.map fun form => (form, form.markAt 0 before (c :: rest))⟩ =
      ⟨c, Recognizer.claimsAt before (c :: rest),
        !(Recognizer.claimsAt before (c :: rest)).isEmpty⟩ := by
  -- Both parts go through the forms, each of which opens a token or stays outside.
  -- An opening mark holds the lexeme that its form claims, and every other mark is outside.
  simp only [Column.summary, Column.claims, Column.isCovered, Recognizer.claimsAt,
    Summary.mk.injEq, true_and]
  generalize Recognizer.all = forms
  induction forms with
  | nil => exact ⟨rfl, rfl⟩
  | cons form others ih =>
    obtain ⟨claims, covered⟩ := ih
    cases matched : form.matchLength before (c :: rest) with
    | zero =>
      exact ⟨by simpa [Recognizer.markAt, matched] using claims,
        by simpa [Recognizer.markAt, matched] using covered⟩
    | succ length =>
      exact ⟨by simpa [Recognizer.markAt, matched] using claims,
        by simp [Recognizer.markAt, matched]⟩

/-- Only one recognizer is within a token, of which some more characters are to come. -/
def holding (form : Recognizer) (length : Nat) : Recognizer → Nat :=
  fun other => if other = form then length else 0

/-- Within a token, a column shows nothing else when no other form matches there. -/
theorem summary_within {form : Recognizer} {before : List Char} {c : Char} {rest : List Char}
    (quiet : ∀ other : Recognizer, other ≠ form → other.matchLength before (c :: rest) = 0)
    (length : Nat) :
    Column.summary ⟨c, Recognizer.all.map fun other =>
      (other, other.markAt (holding form (length + 1) other) before (c :: rest))⟩ =
      Summary.within c := by
  -- The token's own form is inside of it, and the others do not match here.
  have marked : ∀ other : Recognizer,
      other.markAt (holding form (length + 1) other) before (c :: rest) =
        if other = form then .inside else .outside := by
    intro other
    by_cases same : other = form
    · simp [holding, same, Recognizer.markAt]
    · simp [holding, same, Recognizer.markAt, quiet other same]
  -- The mark of the token's own form covers the character, and no mark opens a token.
  simp only [marked, Column.summary, Column.claims, Column.isCovered, Summary.within,
    Summary.mk.injEq, true_and, List.filterMap_eq_nil_iff, List.any_eq_true, List.mem_map]
  constructor
  · rintro mark ⟨other, -, rfl⟩
    by_cases same : other = form <;> simp [same]
  · exact ⟨_, ⟨form, Recognizer.mem_all form, rfl⟩, by simp⟩

/-- The columns within a token show nothing else, and those after it start anew. -/
theorem summaries_within {form : Recognizer} (inner before rest : List Char)
    (quiet : ∀ earlier c later, inner = earlier ++ c :: later → ∀ other : Recognizer,
      other ≠ form → other.matchLength (earlier.reverse ++ before) (c :: (later ++ rest)) = 0) :
    (columnsFrom (holding form inner.length) before (inner ++ rest)).map Column.summary =
      inner.map Summary.within ++
        (columnsFrom (fun _ => 0) (inner.reverse ++ before) rest).map Column.summary := by
  -- The induction goes through the token; each form but its own starts over at each character.
  induction inner generalizing before with
  | nil =>
    have nothing : holding form 0 = fun _ => 0 := by
      funext other
      simp [holding]
    simp [nothing]
  | cons c later ih =>
    -- No other form matches at the first character, so none of them covers the next one.
    have here : ∀ other : Recognizer, other ≠ form →
        other.matchLength before (c :: (later ++ rest)) = 0 :=
      quiet [] c later rfl
    have next : (fun other => other.coveredAfter (holding form (later.length + 1) other) before
        (c :: (later ++ rest))) = holding form later.length := by
      funext other
      by_cases same : other = form
      · simp [holding, same, Recognizer.coveredAfter]
      · simp [holding, same, Recognizer.coveredAfter, here other same]
    have further : ∀ earlier d last, later = earlier ++ d :: last → ∀ other : Recognizer,
        other ≠ form →
          other.matchLength (earlier.reverse ++ c :: before) (d :: (last ++ rest)) = 0 := by
      intro earlier d last split other distinct
      have moved := quiet (c :: earlier) d last (by simp [split]) other distinct
      simpa using moved
    rw [List.length_cons, List.cons_append, columnsFrom_cons, List.map_cons,
      summary_within here, next, ih (c :: before) further]
    simp

/-- The first claim on a place is that of a literal wherever there is one. -/
theorem Recognizer.claimsAt_literal {before after : List Char} {claim : Claim}
    {rivals : List Claim} (claimed : claimsAt before after = claim :: rivals)
    (matched : literal.matchLength before after ≠ 0) : claim.form = literal := by
  -- Literals are asked first.
  simp only [claimsAt, all] at claimed
  cases found : literal.matchLength before after with
  | zero => exact absurd found matched
  | succ length =>
    simp only [List.filterMap_cons, found, List.cons.injEq] at claimed
    rw [← claimed.1]

/-- The first claim on a place takes its first character and some that come right after it. -/
theorem Recognizer.lexeme_of_claimsAt {before rest : List Char} {c : Char} {claim : Claim}
    {rivals : List Claim} (claimed : claimsAt before (c :: rest) = claim :: rivals) :
    claim.form.matchLength before (c :: rest) = claim.lexeme.tail.length + 1 ∧
      claim.lexeme = c :: claim.lexeme.tail ∧
      rest = claim.lexeme.tail ++ rest.drop claim.lexeme.tail.length := by
  -- A match takes at least one character, and no more than there are.
  obtain ⟨matched, lexeme⟩ := mem_claimsAt.mp (claimed ▸ List.mem_cons_self (a := claim))
  have within := matchLength_le claim.form before c rest
  cases length : claim.form.matchLength before (c :: rest) with
  | zero => exact absurd length matched
  | succ more =>
    rw [length, List.take_succ_cons] at lexeme
    rw [length, List.length_cons] at within
    have tail : claim.lexeme.tail = rest.take more := by rw [lexeme, List.tail_cons]
    have count : claim.lexeme.tail.length = more := by
      rw [tail, List.length_take]
      omega
    exact ⟨by rw [count], by rw [tail, lexeme], by rw [count, tail, List.take_append_drop]⟩

/-- A form other than that of the first claim is silent if it would come first or if none follow. -/
theorem Recognizer.matchLength_of_claimsAt {before after : List Char} {claim : Claim}
    {rivals : List Claim} (claimed : claimsAt before after = claim :: rivals) {other : Recognizer}
    (distinct : other ≠ claim.form) (silent : other = literal ∨ rivals = []) :
    other.matchLength before after = 0 := by
  -- If the form matched, its claim would be one of those at this place.
  by_cases zero : other.matchLength before after = 0
  · exact zero
  · refine absurd ?_ distinct
    rcases silent with rfl | rfl
    · exact (claimsAt_literal claimed zero).symm
    · have own : Claim.mk other (after.take (other.matchLength before after)) ∈
          claimsAt before after := mem_claimsAt.mpr ⟨zero, rfl⟩
      rw [claimed, List.mem_singleton] at own
      rw [← own]

/-- After the first claim on a place, no other form is within a token. -/
theorem Recognizer.coveredAfter_claim {before rest : List Char} {c : Char} {claim : Claim}
    {rivals : List Claim} (claimed : claimsAt before (c :: rest) = claim :: rivals) :
    (fun form : Recognizer => form.coveredAfter 0 before (c :: rest)) =
      holding claim.form claim.lexeme.tail.length := by
  -- The form of the claim covers the rest of its token, and all others nothing.
  obtain ⟨length, -, -⟩ := lexeme_of_claimsAt claimed
  funext form
  by_cases same : form = claim.form
  · simp [coveredAfter, holding, same, length]
  · -- Any other token at this place is a single character.
    have short : form.matchLength before (c :: rest) ≤ 1 := by
      -- A literal would have been the first claim.
      by_cases isLiteral : form = literal
      · by_cases unmatched : form.matchLength before (c :: rest) = 0
        · omega
        · subst isLiteral
          exact absurd (claimsAt_literal claimed unmatched).symm same
      · exact matchLength_rival same isLiteral (by omega)
    simp only [coveredAfter, holding, same, if_false]
    omega

/-- All recognizers together show of a text what one scan from left to right reads. -/
theorem summaries_columnsFrom (before text : List Char) :
    (columnsFrom (fun _ => 0) before text).map Column.summary =
      (pieces before text).flatMap Piece.summaries := by
  -- The induction follows the scan; a token takes all of its characters in one step.
  fun_induction pieces before text with
  | case1 before => simp [columnsFrom, overlay_nil]
  | case2 before c rest unclaimed ih =>
    -- No form takes anything, so all of them start anew at the next character.
    have none := Recognizer.claimsAt_eq_nil_iff.mp unclaimed
    have next : (fun form : Recognizer => form.coveredAfter 0 before (c :: rest)) =
        fun _ => 0 := by
      funext form
      simp [Recognizer.coveredAfter, none]
    rw [columnsFrom_cons, List.map_cons, summary_between, next, ih, unclaimed]
    rfl
  | case3 before c rest claim rivals claimed ih =>
    obtain ⟨length, lexeme, split⟩ := Recognizer.lexeme_of_claimsAt claimed
    obtain ⟨-, taken⟩ :=
      Recognizer.mem_claimsAt.mp (claimed ▸ List.mem_cons_self (a := claim))
    -- Within the token, nothing else is shown.
    have quiet : ∀ earlier d later, claim.lexeme.tail = earlier ++ d :: later →
        ∀ other : Recognizer, other ≠ claim.form → other.matchLength
          (earlier.reverse ++ c :: before)
          (d :: (later ++ rest.drop claim.lexeme.tail.length)) = 0 := by
      intro earlier d later parts other distinct
      have whole : (c :: rest).take (claim.form.matchLength before (c :: rest)) =
          c :: (earlier ++ d :: later) := by rw [← taken, lexeme, parts]
      exact Recognizer.matchLength_within distinct whole _
    have inside := summaries_within claim.lexeme.tail (c :: before)
      (rest.drop claim.lexeme.tail.length) quiet
    rw [← split, ih] at inside
    rw [columnsFrom_cons, List.map_cons, summary_between,
      Recognizer.coveredAfter_claim claimed, inside, claimed]
    simp [Piece.summaries, ← lexeme]

/-- What all recognizers show of a text is what a scan from its beginning reads. -/
theorem summaries_columns (text : List Char) :
    (columns text).map Column.summary = (pieces [] text).flatMap Piece.summaries := by
  rw [columns_eq_columnsFrom, summaries_columnsFrom]

namespace Piece

/-- The token of a piece. -/
def token? : Piece → Option Token
  | token form first inner _ => some (form.token (first :: inner))
  | loose _ => none

/-- The claims that the token of a piece prevails over. -/
def rivals : Piece → List Claim
  | token _ _ _ rivals => rivals
  | loose _ => []

/-- A piece of a text that has tokens: a token, without any rivals under the strict policy. -/
def Accepted (policy : ConflictPolicy) (piece : Piece) : Prop :=
  piece.token?.isSome ∧ (policy = .strict → piece.rivals = [])

/-- The characters of a piece are covered exactly when it is a token. -/
theorem isCovered_iff (piece : Piece) :
    (∀ summary ∈ piece.summaries, summary.isCovered = true) ↔ piece.token?.isSome := by
  -- All characters of a token are covered, and a loose character is not.
  cases piece with
  | token form first inner rivals => simp [summaries, token?, Summary.within]
  | loose c => simp [summaries, token?]

/-- The characters of a piece are claimed at most once exactly when its token has no rivals. -/
theorem claims_iff (piece : Piece) :
    (∀ summary ∈ piece.summaries, summary.claims.length ≤ 1) ↔ piece.rivals = [] := by
  -- Only the first character of a token has claims, and its own is one of them.
  cases piece with
  | token form first inner rivals => simp [summaries, Piece.rivals, Summary.within]
  | loose c => simp [summaries, Piece.rivals]

/-- The token of a piece is what its columns claim first. -/
theorem token?_eq (piece : Piece) :
    (piece.summaries.filterMap fun summary =>
      summary.claims.head?.map fun claim => claim.form.token claim.lexeme) =
        piece.token?.toList := by
  cases piece with
  | token form first inner rivals =>
    -- Only the first character of a token has any claims.
    have within : (inner.map Summary.within).filterMap (fun summary =>
        summary.claims.head?.map fun claim => claim.form.token claim.lexeme) = [] := by
      simp [List.filterMap_eq_nil_iff, Summary.within]
    simp [summaries, token?, within]
  | loose c => rfl

end Piece

/-- The tokens of a text are those of its pieces. -/
theorem claimedTokens_eq (text : List Char) :
    claimedTokens text = (pieces [] text).filterMap Piece.token? := by
  -- Tokens are read off the columns, which show the same as the pieces.
  have summarized : claimedTokens text =
      ((columns text).map Column.summary).filterMap fun summary =>
        summary.claims.head?.map fun claim => claim.form.token claim.lexeme := by
    rw [List.filterMap_map]
    rfl
  rw [summarized, summaries_columns]
  induction pieces [] text with
  | nil => rfl
  | cons piece others ih =>
    rw [List.flatMap_cons, List.filterMap_append, ih, Piece.token?_eq]
    cases found : piece.token? <;> simp [found]

/-- There are clashes to be noticed exactly where there are any. -/
theorem clashes_eq_nil_iff_clashesByPlace (text : List Char) :
    clashes text = [] ↔ clashesByPlace text = [] := by
  simp only [clashes, List.flatMap_eq_nil_iff, List.filter_eq_nil_iff, beq_iff_eq]
  constructor
  · intro none
    -- A clash would be noticed by the recognizer that comes second.
    refine List.eq_nil_iff_forall_not_mem.mpr fun clash member => ?_
    have listed : clash.other.form ∈ Recognizer.all := by cases clash.other.form <;> decide
    exact none clash.other.form listed clash member rfl
  · intro none
    simp [none]

/-- No recognizers clash over a text exactly when none of its tokens has rivals. -/
theorem clashes_eq_nil_iff (text : List Char) :
    clashes text = [] ↔ ∀ piece ∈ pieces [] text, piece.rivals = [] := by
  -- Clashes are read off the columns, which show the same as the pieces.
  have quiet : ∀ position claims, clashesAt position claims = [] ↔ claims.length ≤ 1 := by
    intro position claims
    match claims with
    | [] | [claim] | claim :: rival :: others => simp [clashesAt]
  have places : clashes text = [] ↔
      ∀ summary ∈ (columns text).map Column.summary, summary.claims.length ≤ 1 := by
    simp only [clashes_eq_nil_iff_clashesByPlace, clashesByPlace, List.flatMap_eq_nil_iff, quiet,
      List.forall_mem_map, Column.summary]
    constructor
    · intro each column member
      obtain ⟨index, bound, rfl⟩ := List.mem_iff_getElem.mp member
      exact each (_, index) (List.mem_zipIdx_iff_getElem?.mpr (by simp))
    · intro each entry member
      exact each entry.1 (List.fst_mem_of_mem_zipIdx member)
  simp only [places, summaries_columns, List.forall_mem_flatMap, Piece.claims_iff]

/-- No character of a text is uncovered exactly when all of its pieces are tokens. -/
theorem firstUncovered?_eq_none_iff (text : List Char) :
    firstUncovered? text = none ↔ ∀ piece ∈ pieces [] text, piece.token?.isSome := by
  -- What is uncovered is read off the columns, which show the same as the pieces.
  have places : firstUncovered? text = none ↔
      ∀ summary ∈ (columns text).map Column.summary, summary.isCovered = true := by
    simp only [firstUncovered?, Option.map_eq_none_iff, List.find?_eq_none, List.forall_mem_map,
      Column.summary]
    constructor
    · intro each column member
      obtain ⟨index, bound, rfl⟩ := List.mem_iff_getElem.mp member
      simpa using each (_, index) (List.mem_zipIdx_iff_getElem?.mpr (by simp))
    · intro each entry member
      simpa using each entry.1 (List.fst_mem_of_mem_zipIdx member)
  simp only [places, summaries_columns, List.forall_mem_flatMap, Piece.isCovered_iff]

/-- A text that is not empty has tokens when all of its pieces are accepted: those of the pieces. -/
theorem tokenizeChars_eq_ok_iff (policy : ConflictPolicy) (text : List Char)
    (tokens : List Token) :
    tokenizeChars policy true text = .ok tokens ↔ text ≠ [] ∧
      (∀ piece ∈ pieces [] text, piece.Accepted policy) ∧
        (pieces [] text).filterMap Piece.token? = tokens := by
  -- What is accepted of the pieces is what the lexer checks of the whole text.
  have accepted : (∀ piece ∈ pieces [] text, piece.Accepted policy) ↔
      firstUncovered? text = none ∧ (policy = .strict → clashes text = []) := by
    rw [firstUncovered?_eq_none_iff, clashes_eq_nil_iff]
    simp only [Piece.Accepted]
    exact ⟨fun each => ⟨fun piece member => (each piece member).1,
      fun strict piece member => (each piece member).2 strict⟩,
      fun ⟨covered, sole⟩ piece member => ⟨covered piece member,
        fun strict => sole strict piece member⟩⟩
  rw [accepted, ← claimedTokens_eq]
  cases text with
  | nil => simp [tokenizeChars]
  | cons c rest =>
    cases policy <;> cases found : clashes (c :: rest) <;>
      cases first : firstUncovered? (c :: rest) <;> simp [tokenizeChars, found, first]

/-- Tokens that are read where unknown characters are refused are read everywhere. -/
theorem tokenizeChars_of_rejecting {policy : ConflictPolicy} {text : List Char}
    {tokens : List Token} (read : tokenizeChars policy true text = .ok tokens) (rejecting : Bool) :
    tokenizeChars policy rejecting text = .ok tokens := by
  -- Refusing unknown characters only adds a reason to fail.
  cases rejecting with
  | true => exact read
  | false =>
    cases text with
    | nil => simp [tokenizeChars] at read
    | cons c rest =>
      cases policy <;> cases found : clashes (c :: rest) <;>
        cases first : firstUncovered? (c :: rest) <;> simp_all [tokenizeChars]

end Formula
