import Formula.Proofs.Double.Packing

/-! Signs of doubles: products have the sign of their factors, unless they are rounded to zero. -/

namespace Formula.Double

open Float.Model Float.Model.UnpackedFloat

/-- What the bits of a double mean. -/
def parts (x : Float) : UnpackedFloat :=
  x.toModel.unpack

/-- The side of zero on which a number lies, unless it is zero or undefined. -/
def side : UnpackedFloat → Option Sign
  | .infinity sign | .finite sign .. => some sign
  | .zero _ | .notANumber => none

/-- One double is below another if what they mean is. -/
theorem lt_iff_parts {x y : Float} : x < y ↔ (parts x).lt (parts y) = true := by
  -- Doubles are compared through their parts.
  change decide ((parts x).lt (parts y) = true) = true ↔ _
  rw [decide_eq_true_iff]

/-- Zero has no side. -/
theorem parts_zero : parts 0 = .zero .positive :=
  rfl

/-- A double below zero lies on the negative side. -/
theorem lt_zero_iff {x : Float} : x < 0 ↔ side (parts x) = some .negative := by
  -- Against zero, only the sign of what is not zero is compared.
  rw [lt_iff_parts, parts_zero]
  cases parts x with
  | notANumber => exact ⟨nofun, nofun⟩
  | zero sign => exact ⟨nofun, nofun⟩
  | infinity sign | finite sign =>
    cases sign <;> simp [UnpackedFloat.lt, UnpackedFloat.compare, side]

/-- A double above zero lies on the positive side. -/
theorem zero_lt_iff {x : Float} : 0 < x ↔ side (parts x) = some .positive := by
  -- The sides are those of the other comparison, with the signs exchanged.
  rw [lt_iff_parts, parts_zero]
  cases parts x with
  | notANumber => exact ⟨nofun, nofun⟩
  | zero sign => exact ⟨nofun, nofun⟩
  | infinity sign | finite sign =>
    cases sign <;> simp [UnpackedFloat.lt, UnpackedFloat.compare, side]

/-- No double is on both sides of zero. -/
theorem not_lt_zero_of_zero_lt {x : Float} (positive : 0 < x) : ¬x < 0 := by
  -- A double lies on one side at most.
  rw [zero_lt_iff] at positive
  rw [lt_zero_iff, positive]
  nofun

/-- A product of two doubles is rounded to zero when it is at most half of the least double. -/
def Vanishes (x y : Float) : Prop :=
  2 * (significand x * significand y) ≤ 2 ^ (leastExponent - (exponent x + exponent y)).toNat

instance (x y : Float) : Decidable (Vanishes x y) :=
  inferInstanceAs (Decidable (_ ≤ _))

/-- A double is undefined, infinite, zero or a significand with an exponent. -/
theorem parts_cases (x : Float) :
    parts x = .notANumber ∨
      (parts x = .infinity (sign x) ∧ significand x = 2 ^ 52 ∧ exponent x = 972) ∨
      (parts x = .zero (sign x) ∧ significand x = 0) ∨
      ∃ positive, parts x = .finite (sign x) (significand x) (exponent x) positive := by
  -- At the greatest scale the fraction tells the kinds apart, and the significand below it.
  rw [parts, unpack_eq]
  by_cases top : scaleBits x = 2047
  · by_cases empty : fractionBits x = 0
    · refine .inr (.inl ⟨by simp [top, empty], ?_, by simp [exponent, top]⟩)
      simp [significand, top, empty]
    · exact .inl (by simp [top, empty])
  · by_cases zero : significand x = 0
    · exact .inr (.inr (.inl ⟨by simp [top, zero], zero⟩))
    · exact .inr (.inr (.inr ⟨Nat.pos_of_ne_zero zero, by simp [top, zero]⟩))

/-- The product of two finite numbers has a side, unless it is rounded to zero. -/
theorem side_mul_finite (first second : Sign) {m n : Nat} {d e : Int} (positive : 0 < m)
    (positiveOther : 0 < n) (canonical : Canonical m d) (canonicalOther : Canonical n e) :
    side (UnpackedFloat.unpack .binary64 (UnpackedFloat.pack .binary64
        (.mul .binary64 (.finite first m d positive) (.finite second n e positiveOther)))) =
      if 2 * (m * n) ≤ 2 ^ (leastExponent - (d + e)).toNat then none
      else some (first * second) := by
  -- The exact product has as many places as a double, or too small an exponent for them.
  have wide := canonical.wide_mul canonicalOther positive positiveOther
  change side (UnpackedFloat.unpack .binary64 (UnpackedFloat.pack .binary64
    (roundWithAccuracy .binary64 (first * second) (m * n) (d + e) .exact))) = _
  rcases roundWithAccuracy_exact (first * second) (Nat.mul_pos positive positiveOther) wide with
    ⟨small, zero⟩ | ⟨large, mantissa, place, nonzero, finite, canonical⟩
  · rw [zero, if_pos small]
    cases first * second <;> rfl
  · rw [finite, if_neg (Nat.not_le_of_lt large), unpack_pack nonzero canonical]
    split <;> rfl

/-- Nothing vanishes beside an infinite factor. -/
theorem not_vanishes_of_infinite {x y : Float}
    (infinite : significand x = 2 ^ 52 ∧ exponent x = 972) (positive : 0 < significand y) :
    ¬Vanishes x y := by
  -- The exponent of an infinite double outweighs that of every other.
  have bounded := (canonical_significand y).bounded
  have none : (leastExponent - (972 + exponent y)).toNat = 0 := by
    unfold leastExponent at bounded ⊢
    omega
  simp only [Vanishes, infinite, none]
  omega

/-- It does not matter in which order factors vanish. -/
theorem vanishes_comm {x y : Float} : Vanishes x y ↔ Vanishes y x := by
  -- The product and the sum are the same in either order.
  simp only [Vanishes, Nat.mul_comm (significand x), Int.add_comm (exponent x)]

/-- A double on a side of zero is infinite, or a significand with an exponent. -/
theorem parts_of_side {x : Float} {sign : Sign} (lies : side (parts x) = some sign) :
    ∃ positive : 0 < significand x,
      parts x = .infinity sign ∧ significand x = 2 ^ 52 ∧ exponent x = 972 ∨
        parts x = .finite sign (significand x) (exponent x) positive := by
  -- Of the four kinds of doubles, two are on no side.
  rcases parts_cases x with undefined | ⟨infinite, large, high⟩ | ⟨zero, -⟩ |
    ⟨positive, finite⟩
  · rw [undefined] at lies
    cases lies
  · rw [infinite] at lies
    cases lies
    exact ⟨by omega, .inl ⟨infinite, large, high⟩⟩
  · rw [zero] at lies
    cases lies
  · rw [finite] at lies
    cases lies
    exact ⟨positive, .inr finite⟩

/-- A product with a factor on no side is zero or undefined. -/
theorem mul_of_side_none {u v : UnpackedFloat} (none : side u = none ∨ side v = none) :
    UnpackedFloat.mul .binary64 u v = .notANumber ∨
      ∃ sign, UnpackedFloat.mul .binary64 u v = .zero sign := by
  -- Zeros and undefined parts make the product of their own kind.
  cases u <;> cases v <;> simp_all [side, UnpackedFloat.mul]

/-- A product with an infinite factor is infinite, if both factors are on a side. -/
theorem mul_of_infinite {u v : UnpackedFloat} {first second : Sign} (left : side u = some first)
    (right : side v = some second) (infinite : u = .infinity first ∨ v = .infinity second) :
    UnpackedFloat.mul .binary64 u v = .infinity (first * second) := by
  -- The other factor is not a zero, so that infinity remains.
  cases u <;> cases v <;> simp_all [side, UnpackedFloat.mul]

/-- The product of two doubles lies on the side of both, unless it is rounded to zero. -/
theorem side_mul (x y : Float) :
    side (parts (x * y)) =
      if Vanishes x y then none
      else (side (parts x)).bind fun first => (side (parts y)).map (first * ·) := by
  -- A product is packed from the product of the parts, which the kinds of both decide.
  have packed : parts (x * y) = UnpackedFloat.unpack .binary64
      (UnpackedFloat.pack .binary64 (.mul .binary64 (parts x) (parts y))) := rfl
  rw [packed]
  by_cases none : side (parts x) = none ∨ side (parts y) = none
  · -- Without a side, the product is on none either.
    have nothing :
        ((side (parts x)).bind fun first => (side (parts y)).map (first * ·)) = .none := by
      rcases none with left | right
      · rw [left, Option.bind_none]
      · cases side (parts x) <;> simp [right]
    rw [nothing, ite_self]
    rcases mul_of_side_none none with undefined | ⟨sign, zero⟩
    · rw [undefined]
      rfl
    · rw [zero]
      cases sign <;> rfl
  · -- Otherwise both factors are infinite, or significands with exponents.
    obtain ⟨noneLeft, noneRight⟩ := not_or.mp none
    obtain ⟨first, left⟩ := Option.ne_none_iff_exists'.mp noneLeft
    obtain ⟨second, right⟩ := Option.ne_none_iff_exists'.mp noneRight
    rw [left, right, Option.bind_some, Option.map_some]
    obtain ⟨positive, kind⟩ := parts_of_side left
    obtain ⟨positiveOther, kindOther⟩ := parts_of_side right
    -- Infinity on one side is enough for the product to be infinite.
    have infinite (either : parts x = .infinity first ∨ parts y = .infinity second) :
        side (UnpackedFloat.unpack .binary64 (UnpackedFloat.pack .binary64
          (.mul .binary64 (parts x) (parts y)))) = some (first * second) := by
      rw [mul_of_infinite left right either]
      cases first * second <;> rfl
    rcases kind with ⟨unbounded, huge⟩ | finite
    · rw [infinite (.inl unbounded), if_neg (not_vanishes_of_infinite huge positiveOther)]
    · rcases kindOther with ⟨unbounded, huge⟩ | finiteOther
      · have remains : ¬Vanishes x y := fun vanishes =>
          not_vanishes_of_infinite huge positive (vanishes_comm.mp vanishes)
        rw [infinite (.inr unbounded), if_neg remains]
      · rw [finite, finiteOther, side_mul_finite first second positive positiveOther
          (canonical_significand x) (canonical_significand y)]
        rfl

/-- The sign of a product is negative exactly if its factors have opposite signs. -/
theorem mul_eq_negative {first second : Sign} :
    first * second = .negative ↔
      first = .negative ∧ second = .positive ∨ first = .positive ∧ second = .negative := by
  -- Signs are multiplied by a table of four entries.
  cases first <;> cases second <;> simp [HMul.hMul, Mul.mul]

/-- A product is negative exactly if its factors have opposite signs, and it does not vanish. -/
theorem mul_lt_zero_iff {x y : Float} :
    x * y < 0 ↔ (x < 0 ∧ 0 < y ∨ 0 < x ∧ y < 0) ∧ ¬Vanishes x y := by
  -- All three conditions are about the sides of the factors.
  rw [lt_zero_iff, side_mul]
  simp only [lt_zero_iff, zero_lt_iff]
  by_cases vanishes : Vanishes x y
  · simp [vanishes]
  · cases side (parts x) <;> cases side (parts y) <;> simp [vanishes, mul_eq_negative]

end Formula.Double
