import Formula.Proofs.Double.Order

/-! Doubles that are equal up to the sign of zero, and what arithmetic makes of such doubles. -/

namespace Formula.Double

open Float.Model Float.Model.UnpackedFloat

/-- Two doubles are equal, zeros of either sign included, or both are undefined. -/
def Alike (x y : Float) : Prop :=
  (x == y) = true ∨ x.isNaN = true ∧ y.isNaN = true

instance (x y : Float) : Decidable (Alike x y) :=
  inferInstanceAs (Decidable (_ ∨ _))

/-- Parts are the same, but for the sign of zero. -/
inductive LikeParts : UnpackedFloat → UnpackedFloat → Prop where
  | same (u : UnpackedFloat) : LikeParts u u
  | zero (first second : Sign) : LikeParts (.zero first) (.zero second)

variable {u u' v v' w : UnpackedFloat}

/-- What is negated twice is left as it is. -/
theorem neg_neg_parts (u : UnpackedFloat) : u.neg.neg = u := by
  -- The patterns take the sign of each kind apart, where it has one.
  rcases u with ⟨⟨⟩⟩ | _ | ⟨⟨⟩⟩ | ⟨⟨⟩⟩ <;> rfl

/-- It does not matter in which order parts are added. -/
theorem add_comm_parts (u v : UnpackedFloat) :
    UnpackedFloat.add .binary64 u v = .add .binary64 v u := by
  -- The kinds of parts are added by a table, but for two that are finite.
  cases u with
  | notANumber => cases v <;> rfl
  | infinity sign =>
    cases v with
    | infinity other => cases sign <;> cases other <;> rfl
    | notANumber | zero | finite => rfl
  | zero sign =>
    cases v with
    | zero other => cases sign <;> cases other <;> rfl
    | notANumber | infinity | finite => rfl
  | finite sign m d positive =>
    cases v with
    | notANumber | infinity | zero => rfl
    | finite other n e positiveOther =>
      -- Both significands are brought down to the smaller exponent.
      simp only [UnpackedFloat.add, min_comm e d, add_comm (other.apply _)]

/-- A number that is rounded keeps its sign. -/
theorem neg_roundWithAccuracy (sign : Sign) (mantissa : Nat) (exponent : Int)
    (accuracy : Accuracy) :
    (roundWithAccuracy .binary64 sign mantissa exponent accuracy).neg =
      roundWithAccuracy .binary64 (-sign) mantissa exponent accuracy := by
  -- The sign is only passed on to the result.
  unfold roundWithAccuracy
  dsimp only
  split_ifs <;> rfl

/-- Signed numbers are rounded alike on both sides of zero. -/
theorem like_normalize_neg (mantissa exponent : Int) (zeroSign : Sign) :
    LikeParts (.normalize .binary64 (-mantissa) exponent zeroSign)
      (UnpackedFloat.normalize .binary64 mantissa exponent zeroSign).neg := by
  unfold UnpackedFloat.normalize
  -- Only a zero is normalized to a sign that is given.
  rcases Int.lt_trichotomy mantissa 0 with negative | rfl | positive
  · have order : compare (-mantissa) 0 = .gt := Int.compare_eq_gt.mpr (by omega)
    rw [order, Int.compare_eq_lt.mpr negative]
    dsimp only [UnpackedFloat.round]
    rw [neg_roundWithAccuracy]
    exact .same _
  · exact .zero ..
  · have order : compare (-mantissa) 0 = .lt := Int.compare_eq_lt.mpr (by omega)
    rw [order, Int.compare_eq_gt.mpr positive, Int.neg_neg]
    dsimp only [UnpackedFloat.round]
    rw [neg_roundWithAccuracy]
    exact .same _

/-- Negated parts have a sum like the negated sum. -/
theorem like_add_neg (u v : UnpackedFloat) :
    LikeParts (.add .binary64 u.neg v.neg) (UnpackedFloat.add .binary64 u v).neg := by
  -- Infinite numbers and zeros are added by their signs, which are all negated.
  cases u with
  | notANumber => exact .same _
  | infinity sign =>
    cases v with
    | infinity other => cases sign <;> cases other <;> exact .same _
    | notANumber | zero | finite => exact .same _
  | zero sign =>
    cases v with
    | zero other => cases sign <;> cases other <;> exact .zero ..
    | notANumber | infinity | finite => exact .same _
  | finite sign m d positive =>
    cases v with
    | notANumber | infinity | zero => exact .same _
    | finite other n e positiveOther =>
      have negated (sign : Sign) (number : ℤ) : (-sign).apply number = -sign.apply number := by
        cases sign with
        | negative => exact (Int.neg_neg number).symm
        | positive => rfl
      -- Signs apply to the significands, so that their sum is negated as a whole.
      change LikeParts (.normalize .binary64 ((-sign).apply _ + (-other).apply _) _ _)
        (UnpackedFloat.normalize .binary64 (sign.apply _ + other.apply _) _ _).neg
      rw [negated, negated, ← Int.neg_add]
      exact like_normalize_neg ..

/-- A quotient stays the same when both of its terms are negated. -/
theorem div_neg_neg_parts (u v : UnpackedFloat) :
    UnpackedFloat.div .binary64 u.neg v.neg = .div .binary64 u v := by
  have divided (first second : Sign) : -first / -second = first / second := by
    cases first <;> cases second <;> rfl
  -- Signs are divided apart from the rest.
  cases u <;> cases v <;> simp only [UnpackedFloat.neg, UnpackedFloat.div, divided]

namespace LikeParts

/-- Parts are like each other. -/
theorem symm (like : LikeParts u v) : LikeParts v u := by
  -- The relation is the same from both sides by its constructors.
  cases like with
  | same => exact .same u
  | zero first second => exact .zero second first

/-- Parts that are like the same ones are like each other. -/
theorem trans (first : LikeParts u v) (second : LikeParts v w) : LikeParts u w := by
  -- What is like the zeros is a zero.
  cases first with
  | same => exact second
  | zero sign =>
    cases second with
    | same => exact .zero ..
    | zero => exact .zero ..

/-- Parts on a side of zero are only like themselves. -/
theorem eq_of_side (like : LikeParts u v) {sign : Sign} (lies : side u = some sign) : u = v := by
  -- Zeros lie on no side.
  cases like with
  | same => rfl
  | zero => cases lies

/-- Like parts lie on the same side of zero. -/
theorem side_eq (like : LikeParts u v) : side u = side v := by
  -- Either nothing changes, or both lie on no side.
  cases like <;> rfl

/-- Negated parts are like each other. -/
theorem neg (like : LikeParts u v) : LikeParts u.neg v.neg := by
  -- A zero that is negated is still a zero.
  cases like with
  | same => exact .same _
  | zero => exact .zero ..

/-- Sums of like parts are like each other. -/
theorem add (first : LikeParts u u') (second : LikeParts v v') :
    LikeParts (.add .binary64 u v) (.add .binary64 u' v') := by
  -- A zero is only seen beside another one.
  cases first with
  | same =>
    cases second with
    | same => exact .same _
    | zero one other =>
      cases u with
      | zero sign => cases sign <;> cases one <;> cases other <;> exact .zero ..
      | notANumber | infinity | finite => exact .same _
  | zero one other =>
    cases second with
    | same =>
      cases v with
      | zero sign => cases sign <;> cases one <;> cases other <;> exact .zero ..
      | notANumber | infinity | finite => exact .same _
    | zero third fourth =>
      cases one <;> cases other <;> cases third <;> cases fourth <;> exact .zero ..

/-- Products of like parts are like each other. -/
theorem mul (first : LikeParts u u') (second : LikeParts v v') :
    LikeParts (.mul .binary64 u v) (.mul .binary64 u' v') := by
  -- A zero is multiplied to a zero, or to what is undefined.
  cases first with
  | same =>
    cases second with
    | same => exact .same _
    | zero => cases u <;> first | exact .zero .. | exact .same _
  | zero =>
    cases second with
    | same => cases v <;> first | exact .zero .. | exact .same _
    | zero => exact .zero ..

/-- Like parts that are divided by the same have quotients like each other. -/
theorem div (like : LikeParts u u') (v : UnpackedFloat) :
    LikeParts (.div .binary64 u v) (.div .binary64 u' v) := by
  -- A zero is divided to a zero, or to what is undefined.
  cases like with
  | same => exact .same _
  | zero => cases v <;> first | exact .zero .. | exact .same _

end LikeParts

/-- A difference is like the negated one with its terms exchanged. -/
theorem like_sub_swap (first : LikeParts u u') (second : LikeParts v v') :
    LikeParts (.sub .binary64 v' u') (UnpackedFloat.sub .binary64 u v).neg := by
  -- Both are sums of the same two numbers, one of them negated as a whole.
  have negated := like_add_neg u v.neg
  rw [neg_neg_parts, add_comm_parts] at negated
  rw [sub_eq_add_parts, sub_eq_add_parts]
  exact (second.symm.add first.symm.neg).trans negated

/-- Parts as they are read back from the bits that they are packed into. -/
def repacked (u : UnpackedFloat) : UnpackedFloat :=
  UnpackedFloat.unpack .binary64 (UnpackedFloat.pack .binary64 u)

/-- The sign is packed beside all other parts. -/
theorem unpack_packComponents_neg (sign : Sign) (scale : BitVec 11) (fraction : BitVec 52) :
    UnpackedFloat.unpack .binary64 (packComponents .binary64 (-sign) scale fraction) =
      (UnpackedFloat.unpack .binary64 (packComponents .binary64 sign scale fraction)).neg := by
  -- The three components are read back apart from each other.
  unfold UnpackedFloat.unpack
  simp only [unpackMantissa_packComponents, unpackExponent_packComponents,
    unpackSign_packComponents, Sign.ofBitVec_toBitVec]
  split_ifs <;> rfl

/-- Negated parts are packed with the other sign. -/
theorem repacked_neg (u : UnpackedFloat) : repacked u.neg = (repacked u).neg := by
  -- Without a significand only the sign is left to be packed.
  cases u with
  | notANumber => rfl
  | infinity sign => exact unpack_packComponents_neg sign ..
  | zero sign => exact unpack_packComponents_neg sign ..
  | finite sign m d positive =>
    -- Scale and fraction do not depend on the sign.
    unfold repacked UnpackedFloat.neg
    dsimp only
    rw [pack_finite, pack_finite]
    split_ifs <;> exact unpack_packComponents_neg sign ..

/-- Like parts are packed alike. -/
theorem LikeParts.repacked (like : LikeParts u v) : LikeParts (repacked u) (repacked v) := by
  -- The two zeros are packed into different bits, but read back as zeros.
  cases like with
  | same => exact .same _
  | zero first second => cases first <;> cases second <;> exact .zero ..

variable {x x' y y' : Float}

/-- A double is packed from its parts. -/
theorem ofModel_pack_parts (x : Float) : Float.ofModel (.pack (parts x)) = x :=
  Float.ofBits_toBits x

/-- Doubles with the same parts are the same. -/
theorem eq_of_parts (same : parts x = parts y) : x = y := by
  -- A double can be made of its parts again.
  rw [← ofModel_pack_parts x, same, ofModel_pack_parts]

/-- What is packed from the parts of a double is read back. -/
theorem repacked_parts (x : Float) : repacked (parts x) = parts x := by
  -- The parts come from bits, which they are packed into without a change.
  have packed : repacked (parts x) = parts (Float.ofModel (.pack (parts x))) := rfl
  rw [packed, ofModel_pack_parts]

/-- The magnitude of a double has its parts without the sign. -/
theorem parts_abs (x : Float) : parts x.abs = (parts x).abs := by
  have signless (u : UnpackedFloat) : u.abs = u ∨ u.abs = u.neg := by
    rcases u with ⟨⟨⟩⟩ | _ | ⟨⟨⟩⟩ | ⟨⟨⟩⟩ <;> first | exact .inl rfl | exact .inr rfl
  -- What has no sign is either the same parts or the negated ones, and both are packed exactly.
  change repacked (parts x).abs = _
  rcases signless (parts x) with kept | negated
  · rw [kept, repacked_parts]
  · rw [negated, repacked_neg, repacked_parts]

/-- The magnitude of a double is as far from zero in the order of doubles, and above it. -/
theorem rank_abs (x : Float) : rank x.abs = |rank x| := by
  -- Without the sign, what is left of each kind is its magnitude.
  unfold rank
  rw [parts_abs]
  have large : |ceiling| = ceiling := abs_of_pos ceiling_pos
  cases parts x with
  | notANumber | zero => exact abs_zero.symm
  | infinity sign => exact ((abs_signed sign ceiling).trans large).symm
  | finite sign mantissa exponent positive =>
    change (mantissa * 2 ^ exponent : ℚ) = |signed sign (mantissa * 2 ^ exponent)|
    rw [abs_signed, abs_of_nonneg (by positivity)]

/-- A double with the parts of a zero is the zero with that sign. -/
theorem zero_of_parts {sign : Sign} (found : parts x = .zero sign) : x = 0 ∨ x = -0.0 := by
  -- There is one zero for each sign.
  cases sign with
  | negative => exact .inr (eq_of_parts found)
  | positive => exact .inl (eq_of_parts found)

/-- Only the zeros are worth nothing. -/
theorem zero_of_value (finite : x.isFinite = true) (nothing : value x = 0) :
    x = 0 ∨ x = -0.0 := by
  -- A significand that is not zero would be worth something.
  rcases parts_of_finite finite with ⟨found, -⟩ | ⟨positive, found⟩
  · exact zero_of_parts found
  · have worth : (0 : ℚ) < significand x * 2 ^ exponent x := by positivity
    rw [value_eq finite, ← abs_eq_zero, abs_signed, abs_of_pos worth] at nothing
    exact absurd nothing worth.ne'

/-- A double on no side of zero has a magnitude that is zero or undefined. -/
theorem abs_of_side_none (unsigned : side (parts x) = none) :
    x.abs = 0 ∨ x.abs = undefinedValue := by
  -- The kinds on no side are the undefined value and both zeros.
  cases found : parts x with
  | notANumber =>
    have undefined : x = undefinedValue := eq_of_parts found
    rw [undefined]
    exact .inr rfl
  | zero sign =>
    rcases zero_of_parts found with rfl | rfl
    · exact .inl rfl
    · exact .inl rfl
  | infinity | finite =>
    rw [found] at unsigned
    cases unsigned

/-- A double below zero has its sign bit set, and a significand other than zero. -/
theorem isNegative_of_lt_zero (below : x < 0) : isNegative x = true ∧ 0 < significand x := by
  -- On the negative side are infinity and finite numbers with that sign.
  have lies := lt_zero_iff.mp below
  obtain ⟨positive, -⟩ := parts_of_side lies
  refine ⟨?_, positive⟩
  have shown : sign x = .negative := by
    rcases parts_cases x with found | ⟨found, -⟩ | ⟨found, -⟩ | ⟨_, found⟩ <;> rw [found] at lies
    · cases lies
    · exact Option.some.inj lies
    · cases lies
    · exact Option.some.inj lies
  unfold sign at shown
  split_ifs at shown with negative
  exact negative

/-- Parts that are compared as equal are like each other, and all but the undefined ones are so. -/
theorem compare_eq_iff : UnpackedFloat.compare u v = some .eq ↔
    LikeParts u v ∧ u ≠ .notANumber := by
  -- Kinds are compared before what is in them, so that equal parts are of one kind.
  constructor
  · intro equal
    refine ⟨?_, fun undefined => by rw [undefined] at equal; cases equal⟩
    cases u with
    | notANumber => cases equal
    | infinity sign =>
      cases v with
      | infinity other => cases sign <;> cases other <;> first | exact .same _ | cases equal
      | notANumber | zero | finite => cases sign <;> cases equal
    | zero sign =>
      cases v with
      | zero other => exact .zero ..
      | infinity other | finite other => cases other <;> cases equal
      | notANumber => cases equal
    -- On the same side of zero, exponents decide, and after them significands.
    | finite sign m d positive =>
      cases v with
      | finite other n e positiveOther =>
        -- Equal exponents and equal significands are needed for that.
        cases sign <;> cases other <;>
          simp only [UnpackedFloat.compare, Option.some.injEq, Ordering.swap_eq_eq,
            Ordering.then_eq_eq, Int.compare_eq_eq, Nat.compare_eq_eq, reduceCtorEq] at equal
        all_goals
          obtain ⟨rfl, rfl⟩ := equal
          exact .same _
      | infinity other => cases sign <;> cases other <;> cases equal
      | notANumber | zero => cases sign <;> cases equal
  · rintro ⟨u | ⟨first, second⟩, defined⟩
    · cases u with
      | notANumber => exact absurd rfl defined
      | infinity sign => cases sign <;> rfl
      | zero => rfl
      | finite sign m d positive =>
        have same : (compare d d).then (compare m m) = .eq := by
          rw [Int.compare_eq_eq.mpr rfl, Nat.compare_eq_eq.mpr rfl]
          rfl
        cases sign with
        | negative =>
          rw [UnpackedFloat.compare, same]
          rfl
        | positive => rw [UnpackedFloat.compare, same]
    · rfl

/-- A double is undefined if its parts are. -/
theorem isNaN_iff : x.isNaN = true ↔ parts x = .notANumber := by
  -- Undefined parts are the only ones of their kind.
  change (parts x).isNaN = true ↔ _
  cases parts x <;> simp [UnpackedFloat.isNaN]

/-- What has a magnitude is defined. -/
theorem isNaN_of_abs (defined : x.abs.isNaN = false) : x.isNaN = false := by
  -- The magnitude of an undefined double is undefined.
  rw [Bool.eq_false_iff, Ne, isNaN_iff] at defined ⊢
  intro undefined
  rw [parts_abs, undefined] at defined
  exact defined rfl

/-- Doubles are equal exactly if their parts are like each other, and defined. -/
theorem beq_iff_parts : (x == y) = true ↔
    LikeParts (parts x) (parts y) ∧ parts x ≠ .notANumber := by
  -- Doubles are equal when their parts are compared so.
  rw [← compare_eq_iff]
  change ((parts x).compare (parts y) == some .eq) = true ↔ _
  exact beq_iff_eq

/-- Of two equal doubles, it does not matter which one comes first. -/
theorem beq_comm_double (x y : Float) : (x == y) = (y == x) := by
  -- One direction is enough, since the names of both can be exchanged.
  have turned {x y : Float} (equal : (x == y) = true) : (y == x) = true := by
    have found := beq_iff_parts.mp equal
    refine beq_iff_parts.mpr ⟨found.1.symm, fun undefined => found.2 ?_⟩
    have like := found.1
    rw [undefined] at like
    generalize parts x = u at like
    cases like
    rfl
  exact Bool.eq_iff_iff.mpr ⟨turned, turned⟩

/-- Doubles are alike exactly if their parts are. -/
theorem alike_iff : Alike x y ↔ LikeParts (parts x) (parts y) := by
  -- Undefined parts are only like themselves, and all other like parts are equal.
  rw [Alike, beq_iff_parts, isNaN_iff, isNaN_iff]
  constructor
  · rintro (⟨like, -⟩ | ⟨first, second⟩)
    · exact like
    · rw [first, second]
      exact .same _
  · intro like
    by_cases undefined : parts x = .notANumber
    · generalize parts y = v at like
      rw [undefined] at like
      cases like
      exact .inr ⟨undefined, rfl⟩
    · exact .inl ⟨like, undefined⟩

namespace Alike

/-- A double is like itself. -/
theorem refl (x : Float) : Alike x x :=
  -- Parts are like themselves.
  alike_iff.mpr (.same _)

/-- Doubles are like each other. -/
theorem symm (alike : Alike x y) : Alike y x :=
  -- The relation of the parts can be turned around.
  alike_iff.mpr (alike_iff.mp alike).symm

/-- Like doubles are the same, or both are zeros. -/
theorem eq_or (alike : Alike x y) :
    x = y ∨ (x = 0 ∨ x = -0.0) ∧ (y = 0 ∨ y = -0.0) := by
  -- Like parts are the same, or those of two zeros.
  have like := alike_iff.mp alike
  generalize left : parts x = u at like
  generalize right : parts y = v at like
  cases like with
  | same => exact .inl (eq_of_parts (left.trans right.symm))
  | zero => exact .inr ⟨zero_of_parts left, zero_of_parts right⟩

/-- Like doubles lie on the same side of zero. -/
theorem side_eq (alike : Alike x y) : side (parts x) = side (parts y) :=
  -- The side of a double is that of its parts.
  (alike_iff.mp alike).side_eq

/-- Doubles below or above zero are only like themselves. -/
theorem eq_of_signed (alike : Alike x y) (signed : x < 0 ∨ 0 < x) : x = y := by
  -- A double on a side of zero is not a zero, so that like parts are the same.
  refine eq_of_parts ?_
  rcases signed with below | above
  · exact (alike_iff.mp alike).eq_of_side (lt_zero_iff.mp below)
  · exact (alike_iff.mp alike).eq_of_side (zero_lt_iff.mp above)

/-- Sums of like doubles are alike. -/
theorem add (first : Alike x x') (second : Alike y y') : Alike (x + y) (x' + y') :=
  -- The parts of a sum are packed, and like parts are packed alike.
  alike_iff.mpr ((alike_iff.mp first).add (alike_iff.mp second)).repacked

/-- Products of like doubles are alike. -/
theorem mul (first : Alike x x') (second : Alike y y') : Alike (x * y) (x' * y') :=
  -- The parts of a product are packed, and like parts are packed alike.
  alike_iff.mpr ((alike_iff.mp first).mul (alike_iff.mp second)).repacked

/-- Like doubles that are divided by the same have quotients alike. -/
theorem div (alike : Alike x x') (y : Float) : Alike (x / y) (x' / y) :=
  -- The parts of a quotient are packed, and like parts are packed alike.
  alike_iff.mpr ((alike_iff.mp alike).div _).repacked

/-- Like doubles have magnitudes alike. -/
theorem abs (alike : Alike x y) : x.abs = y.abs := by
  -- Both zeros have the same magnitude.
  rcases alike.eq_or with rfl | ⟨rfl | rfl, rfl | rfl⟩ <;> rfl

end Alike

/-- It does not matter in which order doubles are added. -/
theorem add_comm_double (x y : Float) : x + y = y + x := by
  -- The sums of the parts are the same already before they are packed.
  refine eq_of_parts ?_
  change repacked (.add .binary64 (parts x) (parts y)) = repacked (.add .binary64 (parts y) _)
  rw [add_comm_parts]
  rfl

/-- A function that does not tell zeros apart has like values at like doubles. -/
theorem alike_of_zeros {f : Float → Float} (zeros : Alike (f 0) (f (-0.0))) (alike : Alike x y) :
    Alike (f x) (f y) := by
  -- The doubles are the same, or they are any two zeros.
  rcases alike.eq_or with rfl | ⟨rfl | rfl, rfl | rfl⟩
  · exact .refl _
  · exact .refl _
  · exact zeros
  · exact zeros.symm
  · exact .refl _

/-- A difference of like doubles is like the negated one with its terms exchanged. -/
theorem like_parts_sub (first : Alike x x') (second : Alike y y') :
    LikeParts (parts (y' - x')) (parts (x - y)).neg := by
  -- Negation can be moved out of the packing.
  change LikeParts (repacked _) (repacked _).neg
  rw [← repacked_neg]
  exact (like_sub_swap (alike_iff.mp first) (alike_iff.mp second)).repacked

/-- Quotients stay alike when both numbers are negated, if the divisor is not zero. -/
theorem Alike.div_neg (numerators : LikeParts (parts x') (parts x).neg)
    (denominators : LikeParts (parts y') (parts y).neg) (nonzero : ∀ sign, parts y ≠ .zero sign) :
    Alike (x / y) (x' / y') := by
  have same : parts y' = (parts y).neg := by
    generalize parts y' = v, negated : (parts y).neg = w at denominators
    cases denominators with
    | same => rfl
    | zero first second =>
      -- The divisor would be a zero.
      refine absurd ?_ (nonzero (-second))
      rw [← neg_neg_parts (parts y), negated]
      rfl
  -- With both signs turned, the quotient of the parts is what it was.
  refine alike_iff.mpr ?_
  change LikeParts (repacked (.div .binary64 (parts x) (parts y)))
    (repacked (.div .binary64 (parts x') (parts y')))
  rw [same, ← div_neg_neg_parts (parts x)]
  exact (numerators.symm.div _).repacked

end Formula.Double
