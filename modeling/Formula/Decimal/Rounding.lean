import Formula.Decimal.Basic

/-! Rounding a double to a number of decimal places. -/

namespace Formula.Decimal

/-- The double nearest to the decimal rounding of a double; the sign of zero is kept. -/
def round (places : Int) (x : Float) : Float :=
  -- Only finite doubles have digits to drop.
  if x.isFinite then ((magnitude x).toPlaces places).toFloat (Double.isNegative x) else x

end Formula.Decimal
