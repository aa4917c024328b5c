import Formula.Proofs.Double.Value

/-! The order of finite doubles is that of their values. -/

namespace Formula.Double

open Float.Model Float.Model.UnpackedFloat

/-- A canonical significand with a smaller exponent is less. -/
theorem Canonical.lt_of_lt {m n : Nat} {d e : Int} (first : Canonical m d) (second : Canonical n e)
    (below : d < e) : (m * 2 ^ d : ℚ) < n * 2 ^ e := by
  -- The greater exponent is not the least, so that the significand there is full.
  have bounded := first.bounded
  have narrow : (m : ℚ) < 2 ^ 53 := by exact_mod_cast first.narrow
  have full : (2 : ℚ) ^ 52 ≤ n := by exact_mod_cast second.full.resolve_right (by omega)
  have double : (2 : ℚ) ^ (d + 1) ≤ 2 ^ e := zpow_le_zpow_right₀ one_le_two (by omega)
  calc (m * 2 ^ d : ℚ) < 2 ^ 53 * 2 ^ d := by gcongr
    _ = 2 ^ 52 * 2 ^ (d + 1) := by
      rw [zpow_add_one₀ two_ne_zero]
      ring
    _ ≤ n * 2 ^ e := by gcongr

/-- Canonical significands are compared after their exponents. -/
theorem Canonical.compare_eq {m n : Nat} {d e : Int} (first : Canonical m d)
    (second : Canonical n e) :
    (compare d e).then (compare m n) = compare (m * 2 ^ d : ℚ) (n * 2 ^ e) := by
  -- A greater exponent is decisive, whatever the significands are.
  rcases Int.lt_trichotomy d e with less | same | more
  · have below := first.lt_of_lt second less
    rw [Int.compare_eq_lt.mpr less, compare_lt_iff_lt.mpr below]
    rfl
  · -- At one exponent, the significands decide.
    subst same
    have unit : (0 : ℚ) < 2 ^ d := by positivity
    rw [Int.compare_eq_eq.mpr rfl, Ordering.eq_then]
    rcases Nat.lt_trichotomy m n with less | rfl | more
    · have below : (m * 2 ^ d : ℚ) < n * 2 ^ d := by gcongr
      rw [Nat.compare_eq_lt.mpr less, compare_lt_iff_lt.mpr below]
    · rw [Nat.compare_eq_eq.mpr rfl, compare_eq_iff_eq.mpr rfl]
    · have above : (n * 2 ^ d : ℚ) < m * 2 ^ d := by gcongr
      rw [Nat.compare_eq_gt.mpr more, compare_gt_iff_gt.mpr above]
  · have above := second.lt_of_lt first more
    rw [Int.compare_eq_gt.mpr more, compare_gt_iff_gt.mpr above]
    rfl

/-- Negated numbers are compared the other way. -/
theorem compare_neg (a b : ℚ) : compare (-a) (-b) = (compare a b).swap := by
  -- Negation turns the order around, and keeps what is equal.
  rcases lt_trichotomy a b with less | rfl | more
  · rw [compare_lt_iff_lt.mpr less, compare_gt_iff_gt.mpr (neg_lt_neg less)]
    rfl
  · rw [compare_eq_iff_eq.mpr rfl, compare_eq_iff_eq.mpr rfl]
    rfl
  · rw [compare_gt_iff_gt.mpr more, compare_lt_iff_lt.mpr (neg_lt_neg more)]
    rfl

/-- What lies on the negative side is worth less than zero, and on the positive side more. -/
theorem amount_finite {sign : Sign} {m : Nat} {d : Int} (positive : 0 < m) :
    (sign = .negative → amount (.finite sign m d positive) < 0) ∧
      (sign = .positive → 0 < amount (.finite sign m d positive)) := by
  -- A significand that is not zero gives a magnitude above zero.
  have magnitude : (0 : ℚ) < m * 2 ^ d := by positivity
  refine ⟨?_, ?_⟩
  · rintro rfl
    exact neg_neg_of_pos magnitude
  · rintro rfl
    exact magnitude

variable {u v : UnpackedFloat}

/-- Proper parts are compared as what they are worth. -/
theorem compare_parts (first : Proper u) (second : Proper v) :
    UnpackedFloat.compare u v = some (compare (amount u) (amount v)) := by
  cases first with
  | zero =>
    rw [amount_zero]
    cases second with
    | zero => rfl
    | @finite other n e positive canonical bounded =>
      -- Zero is compared with the sign of the other number.
      obtain ⟨below, above⟩ := @amount_finite other n e positive
      cases other with
      | negative => rw [compare_gt_iff_gt.mpr (below rfl)]; rfl
      | positive => rw [compare_lt_iff_lt.mpr (above rfl)]; rfl
  -- Zero on the right is compared in the same way.
  | @finite sign m d positive canonical bounded =>
    obtain ⟨below, above⟩ := @amount_finite sign m d positive
    cases second with
    | zero =>
      rw [amount_zero]
      cases sign with
      | negative => rw [compare_lt_iff_lt.mpr (below rfl)]; rfl
      | positive => rw [compare_gt_iff_gt.mpr (above rfl)]; rfl
    | @finite other n e positiveOther canonicalOther boundedOther =>
      -- The signs decide where they differ, and otherwise the magnitudes.
      obtain ⟨belowOther, aboveOther⟩ := @amount_finite other n e positiveOther
      cases sign with
      | negative =>
        cases other with
        | negative =>
          rw [UnpackedFloat.compare, canonical.compare_eq canonicalOther, ← compare_neg]
          rfl
        | positive =>
          rw [compare_lt_iff_lt.mpr ((below rfl).trans (aboveOther rfl))]
          rfl
      | positive =>
        cases other with
        | negative =>
          rw [compare_gt_iff_gt.mpr ((belowOther rfl).trans (above rfl))]
          rfl
        | positive =>
          rw [UnpackedFloat.compare, canonical.compare_eq canonicalOther]
          rfl

variable {x y : Float}

/-- A finite double is below another if its value is. -/
theorem lt_iff_value (left : x.isFinite = true) (right : y.isFinite = true) :
    x < y ↔ value x < value y := by
  -- The order of doubles is that of their parts, and finite parts are proper.
  rw [lt_iff_parts, UnpackedFloat.lt, compare_parts (proper_parts left) (proper_parts right)]
  simp [compare_lt_iff_lt, value]

/-- A finite double is at most another if its value is. -/
theorem le_iff_value (left : x.isFinite = true) (right : y.isFinite = true) :
    x ≤ y ↔ value x ≤ value y := by
  -- To be at most another is not to be greater, of doubles as of rationals.
  change (decide ((parts x).le (parts y) = true)) = true ↔ _
  rw [decide_eq_true_iff, UnpackedFloat.le, compare_parts (proper_parts left) (proper_parts right)]
  simp [value, Ordering.isLE_iff_ne_gt, compare_gt_iff_gt]

/-- A double lies between two others, whichever of them is greater. -/
def Between (a b x : Float) : Prop :=
  a ≤ x ∧ x ≤ b ∨ b ≤ x ∧ x ≤ a

instance (a b x : Float) : Decidable (Between a b x) :=
  inferInstanceAs (Decidable (_ ∨ _))

/-- A finite double lies between two others if its value lies between theirs. -/
theorem between_iff {a b : Float} (left : a.isFinite = true) (right : b.isFinite = true)
    (finite : x.isFinite = true) : Between a b x ↔ value x ∈ Set.uIcc (value a) (value b) := by
  -- Both orders of the ends are compared by their values.
  rw [Between, Set.mem_uIcc, le_iff_value left finite, le_iff_value finite right,
    le_iff_value right finite, le_iff_value finite left]

/-- Where parts stand in the order of doubles: infinite ones beyond all that are finite. -/
def rankOfParts : UnpackedFloat → ℚ
  | .infinity sign => signed sign ceiling
  | u => amount u

/-- Where a double stands in the order of doubles, unless it is undefined. -/
def rank (x : Float) : ℚ :=
  rankOfParts (parts x)

/-- Parts of a double are undefined, infinite or proper. -/
theorem parts_kinds (x : Float) :
    parts x = .notANumber ∨ (∃ sign, parts x = .infinity sign) ∨ Proper (parts x) := by
  -- What is not finite is undefined or infinite.
  by_cases finite : x.isFinite = true
  · exact .inr (.inr (proper_parts finite))
  · change ¬(parts x).isFinite = true at finite
    cases found : parts x with
    | notANumber => exact .inl rfl
    | infinity sign => exact .inr (.inl ⟨sign, rfl⟩)
    | zero | finite =>
      rw [found] at finite
      exact absurd rfl finite

/-- Proper parts have the rank of what they are worth, which is below that of the infinite. -/
theorem Proper.rank_eq (proper : Proper u) : rankOfParts u = amount u := by
  -- Only infinite parts have a rank other than what they are worth, and those are not proper.
  cases proper <;> rfl

/-- Parts other than the undefined are compared by their ranks. -/
theorem compare_parts_rank (first : (∃ sign, u = .infinity sign) ∨ Proper u)
    (second : (∃ sign, v = .infinity sign) ∨ Proper v) :
    UnpackedFloat.compare u v = some (compare (rankOfParts u) (rankOfParts v)) := by
  rcases first with ⟨sign, rfl⟩ | proper
  · rcases second with ⟨other, rfl⟩ | properOther
    · -- Two infinite numbers are compared by their signs.
      have large : -ceiling < ceiling := by linarith [ceiling_pos]
      cases sign with
      | negative =>
        cases other with
        | negative => exact congrArg some (compare_eq_iff_eq.mpr rfl).symm
        | positive => exact congrArg some (compare_lt_iff_lt.mpr large).symm
      | positive =>
        cases other with
        | negative => exact congrArg some (compare_gt_iff_gt.mpr large).symm
        | positive => exact congrArg some (compare_eq_iff_eq.mpr rfl).symm
    · -- An infinite number is beyond the ceiling of what is finite.
      obtain ⟨above, below⟩ := abs_lt.mp properOther.amount_lt
      rw [properOther.rank_eq]
      cases sign with
      | negative =>
        have order : compare (-ceiling) (amount v) = .lt := compare_lt_iff_lt.mpr above
        cases properOther <;> exact congrArg some order.symm
      | positive =>
        have order : compare ceiling (amount v) = .gt := compare_gt_iff_gt.mpr below
        cases properOther <;> exact congrArg some order.symm
  · rcases second with ⟨other, rfl⟩ | properOther
    · -- On the right, an infinite number is beyond all that is finite as well.
      obtain ⟨above, below⟩ := abs_lt.mp proper.amount_lt
      rw [proper.rank_eq]
      cases other with
      | negative =>
        have order : compare (amount u) (-ceiling) = .gt := compare_gt_iff_gt.mpr above
        cases proper with
        | zero => exact congrArg some order.symm
        | @finite sign => cases sign <;> exact congrArg some order.symm
      | positive =>
        have order : compare (amount u) ceiling = .lt := compare_lt_iff_lt.mpr below
        cases proper with
        | zero => exact congrArg some order.symm
        | @finite sign => cases sign <;> exact congrArg some order.symm
    · rw [compare_parts proper properOther, proper.rank_eq, properOther.rank_eq]

/-- Doubles that are defined are compared by their ranks. -/
theorem compare_rank (left : x.isNaN = false) (right : y.isNaN = false) :
    UnpackedFloat.compare (parts x) (parts y) = some (compare (rank x) (rank y)) := by
  -- What is defined is infinite or proper, and so has a rank by which it is compared.
  have kind {z : Float} (defined : z.isNaN = false) :
      (∃ sign, parts z = .infinity sign) ∨ Proper (parts z) := by
    refine (parts_kinds z).resolve_left fun undefined => ?_
    change (parts z).isNaN = false at defined
    rw [undefined] at defined
    cases defined
  exact compare_parts_rank (kind left) (kind right)

/-- A defined double is below another if its rank is. -/
theorem lt_iff_rank (left : x.isNaN = false) (right : y.isNaN = false) :
    x < y ↔ rank x < rank y := by
  -- The comparison of the parts says which rank is the smaller one.
  rw [lt_iff_parts, UnpackedFloat.lt, compare_rank left right]
  simp [compare_lt_iff_lt]

/-- A defined double is equal to another if its rank is. -/
theorem beq_iff_rank (left : x.isNaN = false) (right : y.isNaN = false) :
    (x == y) = true ↔ rank x = rank y := by
  -- The comparison of the parts says whether the ranks are equal.
  change ((parts x).compare (parts y) == some .eq) = true ↔ _
  rw [compare_rank left right]
  simp

/-- Only doubles that are defined are in order. -/
theorem isNaN_of_lt (below : x < y) : x.isNaN = false ∧ y.isNaN = false := by
  -- With undefined parts on either side, the comparison has no result.
  rw [lt_iff_parts] at below
  have defined (z : Float) : z.isNaN = (parts z).isNaN := rfl
  rw [defined, defined]
  generalize parts x = u, parts y = v at below
  cases u <;> cases v <;> first | exact ⟨rfl, rfl⟩ | cases below

/-- Of two doubles at most one is below the other. -/
theorem lt_asymm_double (below : x < y) : ¬y < x := by
  -- Both are defined, so that the order is that of their ranks.
  obtain ⟨left, right⟩ := isNaN_of_lt below
  rw [lt_iff_rank left right] at below
  rw [lt_iff_rank right left]
  exact lt_asymm below

/-- Doubles are in order, or equal, or one of them is undefined. -/
theorem lt_trichotomy_double (x y : Float) :
    x < y ∨ y < x ∨ (x == y) = true ∨ x.isNaN = true ∨ y.isNaN = true := by
  -- Where both are defined, their ranks are in order or equal.
  by_cases left : x.isNaN = true
  · exact .inr (.inr (.inr (.inl left)))
  · by_cases right : y.isNaN = true
    · exact .inr (.inr (.inr (.inr right)))
    · rw [Bool.not_eq_true] at left right
      rw [lt_iff_rank left right, lt_iff_rank right left, beq_iff_rank left right]
      rcases lt_trichotomy (rank x) (rank y) with below | same | above
      · exact .inl below
      · exact .inr (.inr (.inl same))
      · exact .inr (.inl above)

end Formula.Double
