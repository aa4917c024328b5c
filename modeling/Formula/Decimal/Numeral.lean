import Formula.Decimal.Basic
import Formula.Text.Blank
import Formula.Text.Digit

/-! Written numbers: their grammar over the digits of every script, and the doubles they denote. -/

namespace Formula

/-- A written number is a signed decimal number, a signed infinity, or undefined. -/
inductive Numeral where
  | finite (negative : Bool) (magnitude : Decimal)
  | infinite (negative : Bool)
  | undefined
  deriving DecidableEq

namespace Numeral

/-- The double nearest to a written number. -/
def value : Numeral → Float
  | finite negative magnitude => magnitude.toFloat negative
  | infinite negative => Double.ofPattern negative Double.infinityPattern
  | undefined => Double.undefinedValue

/-- The whole number that a row of digit values writes, most significant first. -/
def ofDigits (digits : List Nat) : Nat :=
  digits.foldl (fun whole digit => 10 * whole + digit) 0

/-- The values of the leading digits, and what follows; a low line may join two digits. -/
def digitRun (afterDigit : Bool) : List Char → List Nat × List Char
  | [] => ([], [])
  | c :: rest =>
    match Text.digitValue? c with
    | some digit =>
      let (digits, remainder) := digitRun true rest
      (digit :: digits, remainder)
    | none =>
      -- A low line that does not join two digits belongs to what follows the run.
      if c == '_' && afterDigit && rest.head?.any Text.isDigit then digitRun false rest
      else ([], c :: rest)

/-- An optional sign, and what follows. -/
def signed : List Char → Bool × List Char
  | '-' :: rest => (true, rest)
  | '+' :: rest => (false, rest)
  | rest => (false, rest)

/-- The digits after an optional point, and what follows. -/
def fractionRun : List Char → List Nat × List Char
  | '.' :: rest => digitRun false rest
  | rest => ([], rest)

/-- The power of ten at the end of a written number; no mark means none, a mark needs digits. -/
def scale? : List Char → Option Int
  | [] => some 0
  | mark :: rest =>
    if mark == 'e' || mark == 'E' then
      let (negative, unsigned) := signed rest
      match digitRun false unsigned with
      | (digit :: digits, []) =>
        let size : Int := ofDigits (digit :: digits)
        some (if negative then -size else size)
      | _ => none
    else none

/-- A decimal number has a digit on at least one side of its point. -/
def decimal? (text : List Char) : Option Decimal :=
  let (whole, afterWhole) := digitRun false text
  let (fraction, afterFraction) := fractionRun afterWhole
  if whole.isEmpty && fraction.isEmpty then none
  else (scale? afterFraction).map fun scale =>
    ⟨ofDigits (whole ++ fraction), scale - fraction.length⟩

/-- A whole number is a row of digits without point or scale. -/
def whole? (text : List Char) : Option Nat :=
  match digitRun false text with
  | (digit :: digits, []) => some (ofDigits (digit :: digits))
  | _ => none

/-- The names of infinity, in small letters. -/
def infinityNames : List (List Char) :=
  ["inf".toList, "infinity".toList]

/-- A text without its surrounding blanks. -/
def trim (text : List Char) : List Char :=
  ((text.dropWhile Text.isNumberBlank).reverse.dropWhile Text.isNumberBlank).reverse

/-- A written number, when the whole text is one; blanks may surround it. -/
def ofChars? (text : List Char) : Option Numeral :=
  let (negative, unsigned) := signed (trim text)
  let name := unsigned.map Char.toLower
  if infinityNames.contains name then some (.infinite negative)
  else if name == "nan".toList then some .undefined
  else (decimal? unsigned).map (.finite negative)

end Numeral

/-- The double that a text denotes, when the text is a written number. -/
def readFloat? (text : String) : Option Float :=
  (Numeral.ofChars? text.toList).map Numeral.value

/-- The whole number that a text denotes, when the text is one with an optional sign. -/
def readWhole? (text : String) : Option Int :=
  let (negative, unsigned) := Numeral.signed (Numeral.trim text.toList)
  (Numeral.whole? unsigned).map fun size => if negative then -(size : Int) else size

end Formula
