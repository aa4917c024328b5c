import Formula.Arrangement

/-! Alignment: the rows in which two series are put side by side, matched by label. -/

namespace Formula

namespace Label

/-- Labels that are names, as opposed to numbers. -/
def isName : Label → Bool
  | text _ => true
  | number _ => false

/-- Numbers come by value, and before all names; names come by code points. -/
def isAtMost : Label → Label → Bool
  | number m, number n => m ≤ n
  | number _, text _ => true
  | text _, number _ => false
  | text a, text b => a ≤ b

end Label

/-- A row of two aligned series: its label, and its place on either side, if it has one there. -/
structure AlignedRow where
  label : Label
  left : Option Nat
  right : Option Nat

namespace Alignment

/-- The places of a label on one side, or one row without a place when it is missing there. -/
def places (labels : List Label) (label : Label) : List (Option Nat) :=
  match labels.zipIdx.filter fun entry => entry.1 = label with
  | [] => [none]
  | present => present.map fun entry => some entry.2

/-- The rows of one label: each of its places on the left with each on the right. -/
def rowsOf (left right : List Label) (label : Label) : List AlignedRow :=
  (places left label).flatMap fun i => (places right label).map fun j => ⟨label, i, j⟩

/-- Every label is a name. -/
def areNames (labels : List Label) : Bool :=
  labels.all Label.isName

/-- Every label is a number. -/
def areNumbers (labels : List Label) : Bool :=
  labels.all fun label => !label.isName

/-- Every label is at most the one after it. -/
def areSorted (labels : List Label) : Bool :=
  (labels.zip labels.tail).all fun pair => pair.1.isAtMost pair.2

/-- No label occurs twice. -/
def areDistinct (labels : List Label) : Bool :=
  labels.eraseDups == labels

/-- Names against numbers, each sorted: there is no common order, and none is imposed. -/
def lackOrder (left right : List Label) : Bool :=
  (areNames left && areNumbers right || areNumbers left && areNames right)
    && areSorted left && areSorted right && (areDistinct left || areDistinct right)

/-- Distinct names and numbers in one series, which no others join, are left as they are. -/
def standAlone (labels : List Label) : Bool :=
  !areNames labels && !areNumbers labels && areDistinct labels

/-- The labels of both sides keep the order in which they are given. -/
def keepOrder : List Label → List Label → Bool
  | [], labels => standAlone labels
  | labels, [] => standAlone labels
  | left, right => lackOrder left right

/-- One side of a row for each label, which a label that occurs twice leads to too many of. -/
def side (labels joined : List Label) : Except ArrangementFault (List (Option Nat)) :=
  let found := joined.flatMap (places labels)
  if found.length = joined.length then .ok found
  else .error (.unequalLengths found.length joined.length)

/-- Labels in the order in which they are given, those of the left side first. -/
def inGivenOrder (left right : List Label) : Except ArrangementFault (List AlignedRow) := do
  let joined := left ++ right.filter fun label => !left.contains label
  let lefts ← side left joined
  let rights ← side right joined
  return List.zipWith (fun label row => ⟨label, row.1, row.2⟩) joined (lefts.zip rights)

/-- All labels in ascending order, each with its rows. -/
def inAscendingOrder (left right : List Label) : List AlignedRow :=
  ((left ++ right).eraseDups.mergeSort Label.isAtMost).flatMap (rowsOf left right)

/-- Equal labels match place by place, and all others by value. -/
def rows (left right : List Label) : Except ArrangementFault (List AlignedRow) :=
  if left = right then
    .ok (left.zipIdx.map fun entry => ⟨entry.1, some entry.2, some entry.2⟩)
  else if keepOrder left right then inGivenOrder left right
  else .ok (inAscendingOrder left right)

end Alignment

end Formula
