import Formula.CommandLine.Arguments
import Formula.Proofs.Decimal.Notation

/-! Arguments of the command line: which of them are plain, and what a line with them asks for. -/

namespace Formula.CommandLine

namespace Flag

/-- The names of options that a text abbreviates begin with it. -/
theorem prefix_of_mem_abbreviated {text : List Char} {flag : Flag}
    (member : flag ∈ abbreviated text) : text <+: flag.name.toList := by
  -- A whole name begins with itself, and all others are chosen for their beginning.
  unfold abbreviated at member
  split at member
  · next other found =>
    rw [List.mem_singleton.mp member]
    have same := List.find?_some found
    exact (beq_iff_eq.mp same) ▸ List.prefix_rfl
  · exact List.isPrefixOf_iff_prefix.mp (List.mem_filter.mp member).2

/-- What abbreviates help alone begins its long name, and goes on after the minus signs. -/
theorem exists_of_abbreviated_eq_help {rest : List Char}
    (abbreviates : abbreviated ('-' :: '-' :: rest) = [help]) :
    ∃ more, rest = 'h' :: more ∧ more <+: ['e', 'l', 'p'] := by
  have begins : '-' :: '-' :: rest <+: help.name.toList :=
    prefix_of_mem_abbreviated (abbreviates ▸ List.mem_singleton_self _)
  have long : help.name.toList = ['-', '-', 'h', 'e', 'l', 'p'] := rfl
  -- Two minus signs alone abbreviate all of the names.
  have several : abbreviated ['-', '-'] ≠ [help] := by decide
  cases rest with
  | nil => exact absurd abbreviates several
  | cons c more =>
    rw [long] at begins
    simp only [List.cons_prefix_cons, true_and] at begins
    obtain ⟨rfl, begins⟩ := begins
    exact ⟨more, rfl, begins⟩

end Flag

namespace Piece

/-- A text that neither names an option nor begins the name of one. -/
def NamesNoOption (text : List Char) : Prop :=
  ¬['-', 'h'] <+: text ∧ (['-', '-'] <+: text → Flag.abbreviated (splitAttached text).1 = [])

/-- An argument that is taken for itself: what starts with a minus sign is mostly an option. -/
def IsPlain (argument : String) : Prop :=
  argument.toList.head? ≠ some '-' ∨ argument = "-" ∨ isNegativeNumber argument.toList = true ∨
    (' ' ∈ argument.toList ∧ NamesNoOption argument.toList)

/-- An argument that asks for help, by its short name or by the long one or a part of that. -/
def asksForHelp (argument : List Char) : Bool :=
  match argument with
  | '-' :: 'h' :: rest => !spoilsHelp rest
  | '-' :: '-' :: 'h' :: rest => rest.isPrefixOf ['e', 'l', 'p']
  | _ => false

/-- What neither starts with a digit nor with a point is no number after a minus sign. -/
theorem isNegativeNumber_eq_false {second : Char} {rest : List Char}
    (noDigit : Text.isDigit second = false) (noPoint : second ≠ '.') :
    isNegativeNumber ('-' :: second :: rest) = false := by
  -- The first character after the sign stays what it is, unless it is the line feed at the end.
  unfold isNegativeNumber
  cases rest with
  | nil =>
    -- A line feed there leaves the sign alone, which is no number either.
    by_cases feed : second = '\n'
    · simp [feed]
    · simp [feed, noDigit]
  | cons third more =>
    simp only [List.dropLast_cons_cons]
    split_ifs <;> simp [noDigit, noPoint]

/-- After one minus sign, only the letter of the short name begins an option. -/
theorem namesNoOption_cons {second : Char} (noDash : second ≠ '-') (noLetter : second ≠ 'h')
    (rest : List Char) : NamesNoOption ('-' :: second :: rest) := by
  -- The two conditions look at the second character, which is neither `h` nor a minus sign.
  constructor
  · intro letter
    simp only [List.cons_prefix_cons, true_and] at letter
    exact noLetter letter.1.symm
  · intro dashes
    simp only [List.cons_prefix_cons, true_and] at dashes
    exact absurd dashes.1.symm noDash

/-- A negative number names no option. -/
theorem namesNoOption_of_isNegativeNumber {second : Char} {rest : List Char}
    (number : isNegativeNumber ('-' :: second :: rest) = true) :
    NamesNoOption ('-' :: second :: rest) := by
  -- Neither a second minus sign nor the letter of the short name starts a number.
  apply namesNoOption_cons
  · rintro rfl
    rw [isNegativeNumber_eq_false (by decide) (by decide)] at number
    cases number
  · rintro rfl
    rw [isNegativeNumber_eq_false (by decide) (by decide)] at number
    cases number

/-- After two minus signs, an argument is an option by its name, or else unmatched. -/
theorem ofArgument?_double {argument : String} {rest : List Char}
    (characters : argument.toList = '-' :: '-' :: rest) :
    ofArgument? argument = match Flag.abbreviated (splitAttached argument.toList).1 with
      | [flag] => some (option flag (splitAttached argument.toList).2)
      | [] => some (ofUnmatched argument)
      | _ => none := by
  rw [ofArgument?, characters]
  rfl

/-- The short name of help makes an argument an option, whatever comes after it. -/
theorem ofArgument?_short {argument : String} {rest : List Char}
    (characters : argument.toList = '-' :: 'h' :: rest) :
    ofArgument? argument =
      some (option .help (if spoilsHelp rest then some (String.ofList rest) else none)) := by
  rw [ofArgument?, characters]
  rfl

/-- After one minus sign and any other character, an argument is unmatched. -/
theorem ofArgument?_single {argument : String} {second : Char} {rest : List Char}
    (characters : argument.toList = '-' :: second :: rest) (noDash : second ≠ '-')
    (noLetter : second ≠ 'h') : ofArgument? argument = some (ofUnmatched argument) := by
  rw [ofArgument?, characters]
  -- The first two patterns want one of those characters.
  split
  · next same => exact absurd (List.cons.inj (List.cons.inj same).2).1 noDash
  · next same => exact absurd (List.cons.inj (List.cons.inj same).2).1 noLetter
  · rfl
  · next none => exact absurd rfl (none second rest)

/-- An argument that names no option is unmatched. -/
theorem ofArgument?_of_namesNoOption {argument : String} {second : Char} {rest : List Char}
    (characters : argument.toList = '-' :: second :: rest)
    (unnamed : NamesNoOption argument.toList) :
    ofArgument? argument = some (ofUnmatched argument) := by
  obtain ⟨noLetter, noFlag⟩ := unnamed
  -- After a minus sign the name decides, and after anything else the letter.
  by_cases dash : second = '-'
  · subst dash
    rw [ofArgument?_double characters, noFlag ⟨rest, characters.symm⟩]
  · refine ofArgument?_single characters dash ?_
    rintro rfl
    exact noLetter ⟨rest, characters.symm⟩

/-- With more than a minus sign, a plain argument names no option. -/
theorem namesNoOption_of_plain {argument : String} {second : Char} {rest : List Char}
    (characters : argument.toList = '-' :: second :: rest)
    (plain : ofArgument? argument = some (.plain argument)) : NamesNoOption argument.toList := by
  -- The second character decides what the argument is compared with.
  by_cases letter : second = 'h'
  · subst letter
    rw [ofArgument?_short characters] at plain
    cases plain
  by_cases dash : second = '-'
  · subst dash
    rw [ofArgument?_double characters] at plain
    refine ⟨by simp [characters], fun _ => ?_⟩
    -- A name that fits one option or several would have been read differently.
    split at plain
    · cases plain
    · next none => exact none
    · cases plain
  · rw [characters]
    exact namesNoOption_cons dash letter rest

/-- Unmatched arguments are plain for a reason. -/
theorem ofUnmatched_eq_plain_iff (argument : String) :
    ofUnmatched argument = .plain argument ↔
      isNegativeNumber argument.toList = true ∨ ' ' ∈ argument.toList := by
  unfold ofUnmatched
  split_ifs with reason <;> simpa using reason

/-- Unmatched arguments are no options. -/
theorem ofUnmatched_ne_option (argument : String) (flag : Flag) (attached : Option String) :
    ofUnmatched argument ≠ .option flag attached := by
  intro same
  unfold ofUnmatched at same
  split_ifs at same

/-- An argument that does not start with a minus sign is plain. -/
theorem ofArgument?_of_noDash {argument : String} (noDash : argument.toList.head? ≠ some '-') :
    ofArgument? argument = some (.plain argument) := by
  have other (others : List Char) : argument.toList ≠ '-' :: others := by
    intro same
    exact noDash (congrArg List.head? same)
  -- All patterns but the last one start with a minus sign.
  unfold ofArgument?
  split
  · next same => exact absurd same (other _)
  · next same => exact absurd same (other _)
  · next same => exact absurd same (other _)
  · rfl

/-- With more than a minus sign, an argument is plain as a number, or with a space and no name. -/
theorem isPlain_iff_of_dash {argument : String} {second : Char} {rest : List Char}
    (characters : argument.toList = '-' :: second :: rest) :
    IsPlain argument ↔ isNegativeNumber argument.toList = true ∨
      (' ' ∈ argument.toList ∧ NamesNoOption argument.toList) := by
  -- The first two reasons to be plain are out, because more follows the sign.
  have dashed : argument.toList.head? = some '-' := by
    rw [characters]
    rfl
  have more : argument ≠ "-" := by
    rintro rfl
    simp at characters
  simp only [IsPlain, dashed, ne_eq, not_true_eq_false, more, false_or]

/-- With more than a minus sign, an argument is read as plain for one of these two reasons. -/
theorem ofArgument?_eq_plain_iff_of_dash {argument : String} {second : Char} {rest : List Char}
    (characters : argument.toList = '-' :: second :: rest) :
    ofArgument? argument = some (.plain argument) ↔ isNegativeNumber argument.toList = true ∨
      (' ' ∈ argument.toList ∧ NamesNoOption argument.toList) := by
  constructor
  · -- A plain argument names no option, so that it is unmatched.
    intro plain
    have unnamed := namesNoOption_of_plain characters plain
    rw [ofArgument?_of_namesNoOption characters unnamed, Option.some.injEq,
      ofUnmatched_eq_plain_iff] at plain
    exact plain.imp_right fun space => ⟨space, unnamed⟩
  · -- Numbers name no option anyway, and a text with a space is asked not to.
    intro reason
    have unnamed : NamesNoOption argument.toList := by
      rcases reason with number | ⟨-, unnamed⟩
      · rw [characters] at number ⊢
        exact namesNoOption_of_isNegativeNumber number
      · exact unnamed
    rw [ofArgument?_of_namesNoOption characters unnamed, Option.some.injEq,
      ofUnmatched_eq_plain_iff]
    exact reason.imp_right And.left

/-- An argument is read as plain exactly if it is. -/
theorem ofArgument?_eq_plain_iff (argument : String) :
    ofArgument? argument = some (.plain argument) ↔ IsPlain argument := by
  -- Only after a minus sign there is more to ask.
  by_cases dash : argument.toList.head? = some '-'
  · obtain ⟨rest, characters⟩ := List.head?_eq_some_iff.mp dash
    cases rest with
    | nil =>
      have alone : argument = "-" := String.toList_inj.mp characters
      subst alone
      exact ⟨fun _ => .inr (.inl rfl), fun _ => rfl⟩
    | cons second rest =>
      rw [ofArgument?_eq_plain_iff_of_dash characters, isPlain_iff_of_dash characters]
  · exact iff_of_true (ofArgument?_of_noDash dash) (.inl dash)

/-- Only its own text is what an argument can be plainly. -/
theorem eq_of_ofArgument?_eq_plain {argument text : String}
    (read : ofArgument? argument = some (.plain text)) : text = argument := by
  have unmatched (same : some (ofUnmatched argument) = some (.plain text)) : text = argument := by
    rw [Option.some.injEq, ofUnmatched] at same
    split_ifs at same
    exact (plain.inj same).symm
  -- Options are not plain, and everything else is the argument itself.
  unfold ofArgument? at read
  split at read
  · dsimp only at read
    split at read
    · cases read
    · exact unmatched read
    · cases read
  · cases read
  · exact unmatched read
  · exact (plain.inj (Option.some.inj read)).symm

/-- Without an equals sign, nothing is split off. -/
theorem splitAttached_fst_of_none {text : List Char} (alone : (splitAttached text).2 = none) :
    (splitAttached text).1 = text := by
  unfold splitAttached at alone ⊢
  rw [List.span_eq_takeWhile_dropWhile] at alone ⊢
  -- Nothing is left to drop, so that everything has been taken.
  cases left : text.dropWhile (· != '=') with
  | cons sign after => simp [left] at alone
  | nil =>
    have whole := List.takeWhile_append_dropWhile (p := (· != '=')) (l := text)
    rw [left, List.append_nil] at whole
    exact whole

/-- What is read as the option for help asks for it. -/
theorem asksForHelp_of_ofArgument? {argument : String}
    (read : ofArgument? argument = some (.option .help none)) :
    asksForHelp argument.toList = true := by
  unfold ofArgument? at read
  split at read
  · next rest characters =>
    dsimp only at read
    split at read
    · next flag abbreviates =>
      obtain ⟨rfl, alone⟩ := option.inj (Option.some.inj read)
      -- Without an equals sign, the whole argument abbreviates the name.
      rw [splitAttached_fst_of_none alone, characters] at abbreviates
      obtain ⟨more, rfl, begins⟩ := Flag.exists_of_abbreviated_eq_help abbreviates
      rw [characters]
      exact List.isPrefixOf_iff_prefix.mpr begins
    · exact absurd (Option.some.inj read) (ofUnmatched_ne_option _ _ _)
    · cases read
  · next rest characters =>
    rw [characters]
    -- What spoils the short name is attached to it, and then it is not help alone.
    by_cases spoiled : spoilsHelp rest = true
    · simp [spoiled] at read
    · simpa [asksForHelp] using spoiled
  · exact absurd (Option.some.inj read) (ofUnmatched_ne_option _ _ _)
  · cases read

/-- What asks for help is read as the option for it. -/
theorem ofArgument?_of_asksForHelp {argument : String}
    (asks : asksForHelp argument.toList = true) :
    ofArgument? argument = some (.option .help none) := by
  unfold asksForHelp at asks
  split at asks
  · next rest characters =>
    rw [ofArgument?_short characters, if_neg (by simpa using asks)]
  · next rest characters =>
    -- The long name has few beginnings, and all of them are read as what they begin.
    have begins := List.isPrefixOf_iff_prefix.mp asks
    have few : rest ∈ [[], ['e'], ['e', 'l'], ['e', 'l', 'p']] := by
      have inits := (List.mem_inits rest ['e', 'l', 'p']).mpr begins
      simpa using inits
    rw [ofArgument?_double characters, characters]
    fin_cases few <;> rfl
  · cases asks

/-- Exactly the arguments that ask for help are read as the option for it. -/
theorem ofArgument?_eq_help_iff (argument : String) :
    ofArgument? argument = some (.option .help none) ↔
      asksForHelp argument.toList = true :=
  ⟨asksForHelp_of_ofArgument?, ofArgument?_of_asksForHelp⟩

/-- A bare double minus has no piece of its own. -/
theorem ne_separator {argument : String} {piece : Piece}
    (read : ofArgument? argument = some piece) : argument ≠ "--" := by
  -- A bare double minus begins all long names, so that it abbreviates none in particular.
  rintro rfl
  cases read

/-- The pieces of a line that evaluates a formula at a number. -/
theorem ofArguments?_evaluation {text number : String} (formula : text ≠ "--")
    (value : number ≠ "--") :
    ofArguments? [text, "--x", number] = (ofArgument? text).bind fun first =>
      (ofArgument? number).map fun last => [first, .option .x none, last] := by
  -- No argument is a bare double minus, so that each is read by itself.
  have named : ofArgument? "--x" = some (.option .x none) := rfl
  have apart : "--x" ≠ "--" := by decide
  simp only [ofArguments?, formula, value, apart, if_false, named]
  cases ofArgument? text <;> cases ofArgument? number <;> rfl

/-- Digits are passed over up to what follows them. -/
theorem dropWhile_digits (run : DigitRun) {rest : List Char}
    (noDigit : rest.head?.any Text.isDigit = false) :
    (run.characters ++ rest).dropWhile Text.isDigit = rest := by
  -- The run consists of digits, and the character after it is none.
  rw [List.dropWhile_append_of_pos run.digits]
  cases rest with
  | nil => rfl
  | cons c others => exact List.dropWhile_cons_of_neg (by simpa using noDigit)

/-- A written number with a minus sign is a negative number unless it has an exponent. -/
theorem isNegativeNumber_write (d : Decimal) :
    isNegativeNumber ('-' :: d.write.toList) = true ↔ d.IsPositional := by
  -- No line feed is at the end, and the digits before the point or the mark are passed over.
  have noFeed : ('-' :: d.write.toList).getLast? ≠ some '\n' := by
    intro feed
    rcases List.mem_cons.mp (List.mem_of_getLast? feed) with same | member
    · cases same
    · exact d.not_mem_write (by decide) (by decide) member
  -- Neither the point nor the mark is a digit, whatever comes after them.
  have noPoint := @Text.noDigit_cons '.' (by decide)
  have noMark := @Text.noDigit_cons 'e' (by decide)
  have noFeed : (('-' :: d.write.toList).getLast? == some '\n') = false := by simpa using noFeed
  simp only [isNegativeNumber, noFeed, Bool.false_eq_true, if_false]
  by_cases positional : d.IsPositional
  · -- In positional form there is a point with at least one digit after it.
    obtain ⟨places, units, written, -⟩ := Decimal.write_of_isPositional positional
    rw [written]
    have digits := (DigitRun.ofNat places (units % 10 ^ places)).digits
    have nonempty := (DigitRun.ofNat places (units % 10 ^ places)).nonempty
    simp only [PlainNumeral.characters, PlainNumeral.ofUnits, dropWhile_digits _ (noPoint _)]
    simpa [positional, nonempty] using digits
  · -- The mark of the exponent is reached, before the point or after it.
    obtain ⟨numeral, written, -⟩ := Decimal.write_of_not_isPositional positional
    obtain ⟨whole, fraction⟩ := numeral
    rw [written, Decimal.toList_writeExponent]
    cases fraction with
    | none =>
      simp only [PlainNumeral.characters, List.append_nil, dropWhile_digits _ (noMark _)]
      simp [positional]
    | some run =>
      simp only [PlainNumeral.characters, List.append_assoc, List.cons_append,
        dropWhile_digits _ (noPoint _)]
      have mark : Text.isDigit 'e' = false := by decide
      simp [positional, mark]

/-- The text of a finite double is plain, unless it has a minus sign and an exponent. -/
theorem ofArgument?_text {x : Float} (finite : x.isFinite = true) :
    ofArgument? (Decimal.text x) =
      some (if Double.isNegative x = true ∧ ¬(Decimal.shortest x).IsPositional then .unknownOption
        else .plain (Decimal.text x)) := by
  obtain ⟨c, rest, first, digit⟩ := (Decimal.shortest x).head_write
  have characters := Decimal.toList_text finite
  have noDash : c ≠ '-' := Numeral.ne_of_isDigit digit (by decide)
  have noLetter : c ≠ 'h' := Numeral.ne_of_isDigit digit (by decide)
  cases negative : Double.isNegative x with
  | false =>
    rw [negative, first] at characters
    -- Without a minus sign the text begins with a digit.
    have plain : IsPlain (Decimal.text x) := by
      refine .inl ?_
      rw [characters]
      simpa [Numeral.minus] using noDash
    simpa using (ofArgument?_eq_plain_iff _).mpr plain
  | true =>
    -- After the minus sign no option begins, and no space follows.
    have minus : (Decimal.text x).toList = '-' :: (Decimal.shortest x).write.toList := by
      rw [characters, negative]
      rfl
    have noSpace : ' ' ∉ (Decimal.text x).toList := by
      rw [minus]
      intro member
      rcases List.mem_cons.mp member with same | member
      · cases same
      · exact (Decimal.shortest x).not_mem_write (by decide) (by decide) member
    have number := isNegativeNumber_write (Decimal.shortest x)
    rw [← minus] at number
    have unnamed : NamesNoOption (Decimal.text x).toList := by
      rw [minus, first]
      exact namesNoOption_cons noDash noLetter rest
    rw [ofArgument?_of_namesNoOption (minus.trans (by rw [first])) unnamed]
    -- Without names and spaces, only being a number makes the text plain.
    by_cases positional : (Decimal.shortest x).IsPositional
    · simp [ofUnmatched, number, positional]
    · have noNumber : isNegativeNumber (Decimal.text x).toList = false := by
        simpa [positional] using number
      simp [ofUnmatched, noSpace, noNumber, positional]

end Piece

namespace Request

/-- An answer that has the formula of a request, or that is misuse. -/
def KeepsFormula (request : Request) (answer : Except Halt Request) : Prop :=
  (∃ next, answer = .ok next ∧ next.formula = request.formula) ∨ answer = .error .misuse

/-- What keeps the formula with every value keeps it with a value that has to be read. -/
theorem KeepsFormula.ofRead {α : Type} {request : Request} {value? : Option α}
    {set : α → Except Halt Request} (each : ∀ value, KeepsFormula request (set value)) :
    KeepsFormula request (Halt.unlessRead value? >>= set) := by
  -- A value that cannot be read is misuse.
  cases value? with
  | none => exact .inr rfl
  | some value => exact each value

/-- An option keeps the formula, or else it ends the reading: by misuse, or because of help. -/
theorem withOption_cases (request : Request) (flag : Flag) (values : List String) :
    KeepsFormula request (request.withOption flag values) ∨
      flag = .help ∧ values = [] ∧ request.withOption flag values = .error .help := by
  -- Each option sets a field of its own, if its arguments can be read.
  unfold withOption
  split
  case h_1 => exact .inr ⟨rfl, rfl, rfl⟩
  -- Numbers are read one after the other, and the first that cannot be read ends the reading.
  case h_2 => exact .inl (.ofRead fun _ => .inl ⟨_, rfl, rfl⟩)
  case h_3 | h_4 => exact .inl (.ofRead fun _ => .ofRead fun _ => .inl ⟨_, rfl, rfl⟩)
  case h_5 =>
    exact .inl (.ofRead fun _ => .ofRead fun _ => .ofRead fun _ => .inl ⟨_, rfl, rfl⟩)
  case h_6 =>
    split_ifs
    · exact .inl (.inl ⟨_, rfl, rfl⟩)
    · exact .inl (.inr rfl)
  case h_7 | h_8 => exact .inl (.inl ⟨_, rfl, rfl⟩)
  case h_9 => exact .inl (.inr rfl)

/-- The option for x takes a plain argument at the end, and nothing else. -/
theorem read_value (request : Request) (last : Piece) :
    request.read none [.option .x none, last] =
      (Halt.unlessRead last.plainText?).bind fun text => request.withOption .x [text] := by
  -- One argument is all that the option waits for, and it has to be plain.
  have single : Flag.arity .x = 1 := rfl
  cases last with
  | plain text =>
    simp only [read, single, Piece.plainText?]
    cases changed : request.withOption .x [text] <;>
      simp [changed, Halt.unlessRead, Except.bind]
  | option | unknownOption | separator => rfl

/-- Where there is no formula before the option for x, there is none at the end. -/
theorem complete_read_value {request : Request} (missing : request.formula = none)
    (last : Piece) : (request.read none [.option .x none, last] >>= complete) =
      .error .misuse := by
  rw [read_value]
  cases last.plainText? with
  | none => rfl
  | some text =>
    -- The option itself sets no formula.
    obtain (⟨next, changed, same⟩ | misused) | ⟨other, -⟩ := request.withOption_cases .x [text]
    · have unset : next.formula = none := same.trans missing
      simp [Halt.unlessRead, Except.bind, changed, bind, complete, unset]
    · simp [Halt.unlessRead, Except.bind, misused, bind]
    · cases other

/-- Where the first of the pieces is neither plain nor asks for help, the line is misused. -/
theorem complete_read_special {first last : Piece} (special : first.plainText? = none)
    (noHelp : first ≠ .option .help none) :
    (read {} none [first, .option .x none, last] >>= complete) = .error .misuse := by
  -- The first piece sets no formula, and the rest is read after it if anything is.
  cases first with
  | plain text => cases special
  | option flag attached =>
    cases attached with
    -- An attached text is given to the option at once.
    | some text =>
      rw [read]
      obtain (⟨next, changed, same⟩ | misused) | ⟨-, none, -⟩ := withOption_cases {} flag [text]
      · rw [changed]
        exact complete_read_value same last
      · rw [misused]
        rfl
      · cases none
    | none =>
      rw [read]
      -- An option without arguments is set before the line goes on.
      split_ifs with empty
      · obtain (⟨next, changed, same⟩ | misused) | ⟨help, -⟩ := withOption_cases {} flag []
        · rw [changed]
          exact complete_read_value same last
        · rw [misused]
          rfl
        · exact absurd (congrArg (Piece.option · none) help) noHelp
      · -- The option for x stands where an argument should be.
        rfl
  | unknownOption => exact complete_read_value rfl last
  | separator => exact complete_read_value rfl last

/-- A line with a plain formula and a plain number asks for the formula at the number. -/
theorem ofArguments_of_plain {text number : String} {x : Float}
    (formula : Piece.IsPlain text) (value : Piece.ofArgument? number = some (.plain number))
    (readable : readFloat? number = some x) :
    ofArguments [text, "--x", number] = .ok (text, { formula := some text, x := some x }) := by
  have plain := (Piece.ofArgument?_eq_plain_iff text).mpr formula
  have pieces : Piece.ofArguments? [text, "--x", number] =
      some [.plain text, .option .x none, .plain number] := by
    rw [Piece.ofArguments?_evaluation (Piece.ne_separator plain) (Piece.ne_separator value),
      plain, value]
    rfl
  -- The formula is set first, and then the option takes the number.
  have request : read {} none [.plain text, .option .x none, .plain number] =
      .ok { formula := some text, x := some x } := by
    have next : read {} none [.plain text, .option .x none, .plain number] =
        read { formula := some text } none [.option .x none, .plain number] := rfl
    rw [next, read_value]
    simp only [Piece.plainText?, Halt.unlessRead, Except.bind, withOption, readable]
    rfl
  rw [ofArguments, pieces]
  simp only [request]
  rfl

/-- A line without a plain formula only asks for help, or it is misused. -/
theorem ofArguments_of_not_plain {text number : String} {last : Piece}
    (special : ¬Piece.IsPlain text) (value : Piece.ofArgument? number = some last) :
    ofArguments [text, "--x", number] =
      .error (if Piece.asksForHelp text.toList then .help else .misuse) := by
  by_cases separator : text = "--"
  · -- After a double minus the option is the formula, and the number is left over.
    subst separator
    rfl
  · rw [ofArguments, Piece.ofArguments?_evaluation separator (Piece.ne_separator value), value]
    cases piece : Piece.ofArgument? text with
    | none =>
      -- A text that abbreviates several names ends the reading before help is given.
      have noHelp : ¬Piece.asksForHelp text.toList = true := by
        rw [← Piece.ofArgument?_eq_help_iff, piece]
        simp
      rw [if_neg noHelp]
      rfl
    | some first =>
      -- Plain pieces come from plain arguments, which the formula is not.
      have notPlain : first.plainText? = none := by
        cases first with
        | plain other =>
          have same := Piece.eq_of_ofArgument?_eq_plain piece
          rw [same] at piece
          exact absurd ((Piece.ofArgument?_eq_plain_iff text).mp piece) special
        | option | unknownOption | separator => rfl
      split_ifs with asks
      · -- Help is given before anything else is looked at.
        rw [← Piece.ofArgument?_eq_help_iff, piece, Option.some.injEq] at asks
        subst asks
        rfl
      · refine complete_read_special notPlain ?_
        rintro rfl
        exact asks ((Piece.ofArgument?_eq_help_iff text).mp piece)

/-- A line with no plain argument for the option x is misused. -/
theorem ofArguments_of_unknownOption {text number : String} (formula : Piece.IsPlain text)
    (unknown : Piece.ofArgument? number = some .unknownOption) :
    ofArguments [text, "--x", number] = .error .misuse := by
  -- The option for x finds nothing plain after it, once the formula is set.
  have plain := (Piece.ofArgument?_eq_plain_iff text).mpr formula
  have pieces : Piece.ofArguments? [text, "--x", number] =
      some [.plain text, .option .x none, .unknownOption] := by
    rw [Piece.ofArguments?_evaluation (Piece.ne_separator plain) (Piece.ne_separator unknown),
      plain, unknown]
    rfl
  rw [ofArguments, pieces]
  rfl

end Request

end Formula.CommandLine
