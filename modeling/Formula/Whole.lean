/-! Whole numbers: their powers, products and sums are those of the core library. -/

-- Other libraries have instances of their own for these, with the same values.
attribute [instance (1100)] instPowNat One.ofOfNat1 Zero.ofOfNat0
attribute [default_instance 20000] instPowNat
