import Formula.Proofs.Lexer.Scan

/-! What the recognizers make of a text together is what a single scanner reads step by step. -/

namespace Formula

namespace Recognizer

/-- The first form in the order of priority that matches at a place. -/
def first? (before after : List Char) : Option Recognizer :=
  all.find? fun form => form.matchLength before after != 0

/-- The first claim on a place is that of the first form that matches there. -/
theorem claimsAt_of_first? {before after : List Char} {form : Recognizer}
    (found : first? before after = some form) :
    ∃ rivals, claimsAt before after =
      ⟨form, after.take (form.matchLength before after)⟩ :: rivals := by
  -- Claims come in the order in which the forms are tried; the induction skips what is silent.
  unfold first? at found
  unfold claimsAt
  revert found
  induction all with
  | nil => simp
  | cons other others ih =>
    intro found
    cases matched : other.matchLength before after with
    | zero =>
      rw [List.find?_cons_of_neg (by simp [matched])] at found
      simpa [matched] using ih found
    | succ length =>
      rw [List.find?_cons_of_pos (by simp [matched]), Option.some.injEq] at found
      subst found
      rw [List.filterMap_cons, matched]
      exact ⟨_, rfl⟩

/-- The first form that matches takes the first character and some of the others. -/
theorem take_of_first? {before rest : List Char} {c : Char} {form : Recognizer}
    (found : first? before (c :: rest) = some form) :
    (c :: rest).take (form.matchLength before (c :: rest)) =
      c :: rest.take (form.matchLength before (c :: rest) - 1) := by
  -- A form is found only where its match is not empty.
  have matched := List.find?_some found
  cases length : form.matchLength before (c :: rest) with
  | zero => simp [length] at matched
  | succ more => rfl

/-- Nothing is claimed at a place where no form matches. -/
theorem claimsAt_of_first?_eq_none {before after : List Char}
    (missing : first? before after = none) : claimsAt before after = [] := by
  -- A place without claims is one where every form is silent.
  refine claimsAt_eq_nil_iff.mpr fun form => ?_
  simpa using List.find?_eq_none.mp missing form (mem_all form)

end Recognizer

/-- Reads a text from a place on: a token is emitted and jumped over, or a character left out. -/
def scanFrom (rejecting : Bool) (position : Nat) (before : List Char) :
    (text : List Char) → Except LexicalFault (List Token)
  | [] => .ok []
  | c :: rest =>
    match Recognizer.first? before (c :: rest) with
    | some form =>
      -- A match takes the first character, and this many of the others.
      let inner := rest.take (form.matchLength before (c :: rest) - 1)
      (scanFrom rejecting (position + inner.length + 1) (inner.reverse ++ c :: before)
        (rest.drop inner.length)).map (form.token (c :: inner) :: ·)
    | none =>
      if rejecting then .error (.unexpected position c)
      else scanFrom rejecting (position + 1) (c :: before) rest
termination_by text => text.length
decreasing_by
  · simp only [List.length_drop, List.length_cons]
    omega
  · simp

/-- Reads a whole text without blanks; there has to be something in it. -/
def scan (rejecting : Bool) (text : List Char) : Except LexicalFault (List Token) :=
  if text.isEmpty then .error .empty else scanFrom rejecting 0 [] text

/-- The tokens of a text, unless a character of no token is refused. -/
def settled (rejecting : Bool) (loose : Option (Char × Nat)) (tokens : List Token) :
    Except LexicalFault (List Token) :=
  match rejecting, loose with
  | true, some (character, position) => .error (.unexpected position character)
  | _, _ => .ok tokens

/-- A token that is read first comes before those that are settled later. -/
theorem settled_cons (rejecting : Bool) (loose : Option (Char × Nat)) (token : Token)
    (tokens : List Token) :
    settled rejecting loose (token :: tokens) =
      (settled rejecting loose tokens).map (token :: ·) := by
  -- A refused character is reported in either case, and otherwise the token comes first.
  cases rejecting <;> cases loose <;> rfl

/-- Where no clashes are refused, the lexer settles what all recognizers make of the text. -/
theorem tokenizeChars_priority (rejecting : Bool) {text : List Char} (filled : text ≠ []) :
    tokenizeChars .priority rejecting text =
      settled rejecting (firstUncovered? text) (claimedTokens text) := by
  -- Under this policy, clashes are listed but never looked at.
  have kept : text.isEmpty = false := by simpa using filled
  unfold tokenizeChars
  rw [kept]
  cases clashes text <;> cases rejecting <;> cases firstUncovered? text <;> rfl

/-- Tokens that are read where clashes are refused are read everywhere. -/
theorem tokenizeChars_of_strict {rejecting : Bool} {text : List Char} {tokens : List Token}
    (read : tokenizeChars .strict rejecting text = .ok tokens) :
    tokenizeChars .priority rejecting text = .ok tokens := by
  -- Refusing clashes only adds a reason to fail.
  cases text with
  | nil => simp [tokenizeChars] at read
  | cons c rest => cases found : clashes (c :: rest) <;> simp_all [tokenizeChars]

/-- The first loose character among some pieces, with its place. -/
def firstLoose? (position : Nat) : List Piece → Option (Char × Nat)
  | [] => none
  | .loose c :: _ => some (c, position)
  | .token _ _ inner _ :: others => firstLoose? (position + inner.length + 1) others

/-- The first summary that is not covered, with its place. -/
def firstBare? (position : Nat) (summaries : List Summary) : Option (Char × Nat) :=
  ((summaries.zipIdx position).find? fun (summary, _) => !summary.isCovered).map
    fun (summary, place) => (summary.character, place)

/-- Covered summaries are passed over. -/
theorem firstBare?_append {covered : List Summary}
    (all : ∀ summary ∈ covered, summary.isCovered = true) (position : Nat)
    (others : List Summary) :
    firstBare? position (covered ++ others) = firstBare? (position + covered.length) others := by
  -- None of the covered summaries is found, wherever it is.
  have none : (covered.zipIdx position).find? (fun (summary, _) => !summary.isCovered) = none := by
    simp only [List.find?_eq_none]
    rintro ⟨summary, place⟩ member
    simpa using all summary (List.fst_mem_of_mem_zipIdx member)
  -- The others are counted from where the covered ones end.
  rw [firstBare?, List.zipIdx_append, List.find?_append, none, Option.none_or, firstBare?]

/-- What the first uncovered summary shows of some pieces is their first loose character. -/
theorem firstBare?_summaries (position : Nat) (parts : List Piece) :
    firstBare? position (parts.flatMap Piece.summaries) = firstLoose? position parts := by
  -- A token covers all of its characters, and a loose character ends the search.
  fun_induction firstLoose? position parts with
  | case1 position => rfl
  | case2 position c others => rfl
  | case3 position form first inner rivals others ih =>
    have covered := (Piece.isCovered_iff (.token form first inner rivals)).mpr rfl
    rw [List.flatMap_cons, firstBare?_append covered, ← ih]
    simp [Piece.summaries, Nat.add_assoc]

/-- The first uncovered character of a text is the first loose one of its pieces. -/
theorem firstUncovered?_eq (text : List Char) :
    firstUncovered? text = firstLoose? 0 (pieces [] text) := by
  -- The columns show the same as the pieces, and are counted in the same way.
  have summarized : firstUncovered? text = firstBare? 0 ((columns text).map Column.summary) := by
    rw [firstBare?, List.zipIdx_map, List.find?_map, Option.map_map]
    rfl
  rw [summarized, summaries_columns, firstBare?_summaries]

/-- From any place on, the scanner settles the pieces of the text. -/
theorem scanFrom_eq (rejecting : Bool) (position : Nat) (before text : List Char) :
    scanFrom rejecting position before text =
      settled rejecting (firstLoose? position (pieces before text))
        ((pieces before text).filterMap Piece.token?) := by
  -- The induction follows the scanner, which steps over one piece at a time.
  fun_induction scanFrom rejecting position before text with
  | case1 position before => cases rejecting <;> simp [pieces, firstLoose?, settled]
  | case2 position before c rest form found inner ih =>
    obtain ⟨rivals, claimed⟩ := Recognizer.claimsAt_of_first? found
    rw [Recognizer.take_of_first? found] at claimed
    -- The lexeme of the first claim is what the scanner takes, and the rest is read alike.
    have piece : pieces before (c :: rest) = .token form c inner rivals ::
        pieces (inner.reverse ++ c :: before) (rest.drop inner.length) := by
      rw [pieces, claimed]
      rfl
    rw [ih, piece, firstLoose?, ← settled_cons]
    rfl
  -- No form matches, and the scanner stops at the character that is refused.
  | case3 position before c rest missing refused =>
    have unclaimed := Recognizer.claimsAt_of_first?_eq_none missing
    rw [pieces, unclaimed]
    simp [firstLoose?, settled, refused]
  -- No form matches, and the character is passed over like any loose piece.
  | case4 position before c rest missing passed ih =>
    have unclaimed := Recognizer.claimsAt_of_first?_eq_none missing
    rw [ih, pieces, unclaimed, List.filterMap_cons_none rfl]
    simp [firstLoose?, settled, passed]

/-- The lexer reads the text as the scanner does; refusing clashes takes nothing else away. -/
theorem tokenize_eq_scan (rejecting : Bool) (text : String) :
    tokenize .priority rejecting text = scan rejecting (Text.withoutBlanks text.toList) ∧
      ∀ tokens, tokenize .strict rejecting text = .ok tokens →
        scan rejecting (Text.withoutBlanks text.toList) = .ok tokens := by
  -- Only a text without any characters is looked at before the scan.
  have same : ∀ chars, tokenizeChars .priority rejecting chars = scan rejecting chars := by
    intro chars
    by_cases empty : chars = []
    · subst empty
      rfl
    · have kept : chars.isEmpty = false := by simpa using empty
      rw [tokenizeChars_priority rejecting empty, firstUncovered?_eq, claimedTokens_eq, scan, kept,
        scanFrom_eq]
      rfl
  refine ⟨same _, fun tokens read => ?_⟩
  rw [← same]
  exact tokenizeChars_of_strict read

/-- A minus sign within a product is read alike by the scanner and by the lexer that is strict. -/
theorem tokenize_eq_scan_minus :
    tokenize .strict true "2 * -x" =
        .ok [⟨"2", .literal⟩, ⟨"*", .operator⟩, ⟨"unary_minus", .operator⟩, ⟨"x", .literal⟩] ∧
      scan true ['2', '*', '-', 'x'] =
        .ok [⟨"2", .literal⟩, ⟨"*", .operator⟩, ⟨"unary_minus", .operator⟩, ⟨"x", .literal⟩] := by
  -- After the product sign an operand is awaited, so that the minus sign is unary.
  have read : tokenize .strict true "2 * -x" =
      .ok [⟨"2", .literal⟩, ⟨"*", .operator⟩, ⟨"unary_minus", .operator⟩, ⟨"x", .literal⟩] := by
    rfl
  exact ⟨read, (tokenize_eq_scan true "2 * -x").2 _ read⟩

end Formula
