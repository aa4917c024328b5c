import Formula.Number.Word

/-! Cells: rows of numbers that are all kept in one form, chosen by the numbers themselves. -/

namespace Formula

/-- A row of numbers: words with or without a sign, doubles, or numbers of any size. -/
inductive Cells (n : Nat) where
  | signed (words : Vector Int64 n)
  | unsigned (words : Vector UInt64 n)
  | double (values : Vector Float n)
  | exact (values : Vector Number n)

namespace Cells

variable {m n : Nat}

/-- The same cells, when their number is written differently. -/
def cast (same : m = n) (cells : Cells m) : Cells n :=
  same ▸ cells

/-- The numbers that cells hold. -/
def numbers : Cells n → Vector Number n
  | signed words => words.map fun word => .whole word.toInt
  | unsigned words => words.map fun word => .whole word.toNat
  | double values => values.map .real
  | exact values => values

/-- The doubles nearest to the numbers that cells hold. -/
def nearest (cells : Cells n) : Vector Float n :=
  cells.numbers.map Number.nearest

/-- The numbers of a rectangle: doubles where words of one kind do not suit all of them. -/
def ofRectangle (given : Vector Number n) : Cells n :=
  if n = 0 then double (given.map Number.nearest)
  else if given.any Number.outgrowsWords then exact given
  else
    match given.mapM Number.signed?, given.mapM Number.unsigned? with
    | some words, _ => signed words
    | none, some words =>
      -- A row in which only some numbers need the width has no kind of word.
      if given.all Number.needsWidth then unsigned words else double (given.map Number.nearest)
    | none, none => double (given.map Number.nearest)

/-- The numbers of a series that words cannot hold, or only words of different kinds. -/
def needExactness (given : Vector Number n) : Bool :=
  given.any Number.outgrowsWords || given.any Number.needsSign && given.any Number.needsWidth

/-- The first number beyond words must still be within doubles. -/
def checkOutgrown (given : Vector Number n) : Except NumberFault Unit :=
  match given.find? Number.outgrowsWords with
  | some number => number.toFloat.map fun _ => ()
  | none => .ok ()

/-- The numbers of a series: words where one kind suits all of them, and doubles with a fraction. -/
def ofSeries (given : Vector Number n) : Except NumberFault (Cells n) := do
  checkOutgrown given
  if n = 0 || needExactness given then return exact given
  match given.mapM Number.signed?, given.mapM Number.unsigned? with
  | some words, _ => return signed words
  | none, some words => return unsigned words
  | none, none => return double (given.map Number.nearest)

/-- The entries of a row at some places, with a stand-in for places outside the row. -/
def entriesAt {α : Type} (outside : α) (places : Vector Nat n) (row : Vector α m) : Vector α n :=
  places.map fun place => (row[place]?).getD outside

/-- Cells at some places of a row, in the form of that row. -/
def pick (places : Vector Nat n) : Cells m → Cells n
  | signed words => signed (entriesAt 0 places words)
  | unsigned words => unsigned (entriesAt 0 places words)
  | double values => double (entriesAt 0 places values)
  | exact values => exact (entriesAt (.whole 0) places values)

/-- Entries at places of which some are missing, with a stand-in for those. -/
def entriesOr {α : Type} (missing : α) (places : Vector (Option Nat) n) (row : Vector α m) :
    Vector α n :=
  places.map fun place => (place.bind fun i => row[i]?).getD missing

/-- Cells at places of which some are missing; words give way to doubles where one is. -/
def align (places : Vector (Option Nat) n) (cells : Cells m) : Cells n :=
  match places.mapM id, cells with
  | some present, _ => cells.pick present
  | none, exact values => exact (entriesOr (.real Double.undefinedValue) places values)
  | none, _ => double (entriesOr Double.undefinedValue places cells.nearest)

end Cells

end Formula
