import Formula.Decimal.Notation
import Formula.Sampling

/-! Layout of tables of values: a column of points beside a column of values. -/

namespace Formula

namespace Layout

/-- The decimal places that a column starts with. -/
def fullPlaces : Nat :=
  6

/-- A magnitude in millionths, rounded. -/
def millionths (d : Decimal) : Nat :=
  let rounded := d.toPlaces fullPlaces
  rounded.coefficient * 10 ^ (rounded.exponent + fullPlaces).toNat

/-- An undefined number among points leaves room for a sign, as the other points do. -/
def undefinedPoint : String :=
  " NaN"

/-- An undefined number among values needs no room for a sign, because values end at one place. -/
def undefinedValue : String :=
  "NaN"

/-- A number in a column has a blank in the place of a plus sign. -/
def entry (written : Decimal → String) (undefinedName : String) (x : Float) : String :=
  Decimal.writeSigned " " written undefinedName x

/-- The decimal places that a column needs; zeros at the end of all its numbers are not shown. -/
def neededPlaces (values : List Float) : Nat :=
  let shown := (values.filter Float.isFinite).map fun x => millionths (Decimal.magnitude x)
  let droppable := (List.range' 1 fullPlaces).countP fun zeros =>
    shown.all fun units => units % 10 ^ zeros == 0
  if shown.isEmpty then fullPlaces else max 1 (fullPlaces - droppable)

/-- A column with a fixed number of decimal places. -/
def fixedColumn (undefinedName : String) (values : List Float) : List String :=
  let places := neededPlaces values
  let written := fun d => Decimal.writeFixed places (millionths d / 10 ^ (fullPlaces - places))
  values.map (entry written undefinedName)

/-- A column in scientific notation. -/
def scientificColumn (undefinedName : String) (values : List Float) : List String :=
  values.map (entry (Decimal.scientific fullPlaces) undefinedName)

/-- The length of the longest of some texts. -/
def widest (texts : List String) : Nat :=
  texts.foldl (fun width text => max width text.length) 0

/-- Fixed places would show a number as zero, or need much room for large ones. -/
def needsExponents (undefinedName : String) (values : List Float) : Bool :=
  values.any (fun x => 0 < x.abs && x.abs < 1e-6)
    || (12 < widest (fixedColumn undefinedName values) && values.any fun x => 1e6 < x.abs)

/-- A column of numbers of equal notation. -/
def column (undefinedName : String) (values : List Float) : List String :=
  if needsExponents undefinedName values then scientificColumn undefinedName values
  else fixedColumn undefinedName values

/-- A blank before every entry of a column is left out. -/
def dropBlank (texts : List String) : List String :=
  if texts.all fun text => text.toList.head? == some ' ' then
    texts.map fun text => String.ofList text.toList.tail
  else texts

/-- Blanks that fill a text up to a width. -/
def padding (width : Nat) (text : String) : String :=
  String.ofList (List.replicate (width - text.length) ' ')

/-- A column whose entries start at one place. -/
def alignLeft (texts : List String) : List String :=
  let width := widest texts
  texts.map fun text => text ++ padding width text

/-- A column whose entries end at one place. -/
def alignRight (texts : List String) : List String :=
  let width := widest texts
  texts.map fun text => padding width text ++ text

/-- The points of a table, which start at one place. -/
def pointColumn (points : List Float) : List String :=
  alignLeft (dropBlank (column undefinedPoint points))

/-- The values of a table, which end at one place. -/
def valueColumn (values : List Float) : List String :=
  alignRight (column undefinedValue values)

end Layout

/-- A table as text: the name of the points, and then a line for each of them. -/
def ValueTable.render (table : ValueTable) : String :=
  let rows := List.zipWith (fun point value => point ++ "   " ++ value)
    (Layout.pointColumn table.points) (Layout.valueColumn table.values)
  "\n".intercalate (ValueTable.pointName :: rows)

end Formula
