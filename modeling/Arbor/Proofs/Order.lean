import Arbor.Production

/-!
# The order of numbers

The undefined number compares with no number, and all others are ordered.  So there is one
way to move a number into the unit interval, and every number ends up in it.

Below zero are only numbers with a negative sign, and no operation that rounds turns the sign
of its exact result.  So what is left of zero when a number that is not above it is taken away
is not below zero.
-/

namespace Arbor

open Float.Model (UnpackedFloat Format)
open Float.Model.UnpackedFloat (Sign unpack pack packComponents)

namespace Scalar

/-! ## Comparison -/

/-- How two numbers compare, unless one of them is undefined. -/
def order? (left right : Float32) : Option Ordering :=
  left.toModel.unpack.compare right.toModel.unpack

variable {left right : Float32}

theorem lt_iff : left < right ↔ order? left right = some .lt := by
  change decide (left.toModel.unpack.lt right.toModel.unpack = true) = true ↔ _
  rw [decide_eq_true_eq, UnpackedFloat.lt, beq_iff_eq, order?]

theorem le_iff :
    left ≤ right ↔ order? left right = some .lt ∨ order? left right = some .eq := by
  change decide (left.toModel.unpack.le right.toModel.unpack = true) = true ↔ _
  rw [decide_eq_true_eq, UnpackedFloat.le, order?]
  cases left.toModel.unpack.compare right.toModel.unpack with
  | none => simp
  | some ordering => cases ordering <;> simp

/-- Finite numbers of one sign are compared by their exponents first. -/
private theorem compare_then_swap (leftExponent rightExponent : Int)
    (leftMantissa rightMantissa : Nat) :
    (compare rightExponent leftExponent).then (compare rightMantissa leftMantissa) =
      ((compare leftExponent rightExponent).then (compare leftMantissa rightMantissa)).swap := by
  rw [Ordering.swap_then, ← Std.OrientedOrd.eq_swap, ← Std.OrientedOrd.eq_swap]

private theorem compare_swap (left right : UnpackedFloat) :
    right.compare left = (left.compare right).map Ordering.swap := by
  cases left with
  | notANumber => cases right <;> rfl
  | infinity sign =>
      cases sign <;> cases right with
      | infinity other => cases other <;> rfl
      | notANumber | zero _ | finite _ _ _ _ => rfl
  | zero sign =>
      cases right with
      | infinity other | finite other _ _ _ => cases other <;> rfl
      | notANumber | zero _ => rfl
  | finite sign leftMantissa leftExponent _ =>
      cases right with
      | infinity other => cases sign <;> cases other <;> rfl
      | notANumber | zero _ => cases sign <;> rfl
      | finite other mantissa exponent _ =>
          have swapped := compare_then_swap leftExponent exponent leftMantissa mantissa
          cases sign <;> cases other
          case negative.negative => exact congrArg (fun order => some order.swap) swapped
          case positive.positive => exact congrArg some swapped
          all_goals rfl

theorem order?_swap (left right : Float32) :
    order? right left = (order? left right).map Ordering.swap :=
  compare_swap _ _

private theorem isSome_compare_iff (left right : UnpackedFloat) :
    (left.compare right).isSome ↔ left.isNaN = false ∧ right.isNaN = false := by
  cases left with
  | notANumber => exact ⟨nofun, fun defined => nomatch defined.1⟩
  | zero sign =>
      cases right with
      | notANumber => exact ⟨nofun, fun defined => nomatch defined.2⟩
      | zero _ => exact ⟨fun _ => ⟨rfl, rfl⟩, fun _ => rfl⟩
      | infinity other | finite other _ _ _ =>
          cases other <;> exact ⟨fun _ => ⟨rfl, rfl⟩, fun _ => rfl⟩
  | infinity sign | finite sign _ _ _ =>
      cases right with
      | notANumber => exact ⟨nofun, fun defined => nomatch defined.2⟩
      | zero _ => cases sign <;> exact ⟨fun _ => ⟨rfl, rfl⟩, fun _ => rfl⟩
      | infinity other | finite other _ _ _ =>
          cases sign <;> cases other <;> exact ⟨fun _ => ⟨rfl, rfl⟩, fun _ => rfl⟩

/-- Only the undefined number is not comparable. -/
theorem isSome_order?_iff :
    (order? left right).isSome ↔ left.isNaN = false ∧ right.isNaN = false :=
  isSome_compare_iff _ _

theorem isNaN_of_lt (less : left < right) : left.isNaN = false ∧ right.isNaN = false := by
  rw [← isSome_order?_iff, lt_iff.mp less]
  rfl

theorem isNaN_of_le (atMost : left ≤ right) : left.isNaN = false ∧ right.isNaN = false := by
  rw [← isSome_order?_iff]
  cases le_iff.mp atMost with
  | inl less => rw [less]; rfl
  | inr same => rw [same]; rfl

/-- Of two numbers that are not undefined, one is at most the other. -/
theorem not_lt_iff (leftDefined : left.isNaN = false) (rightDefined : right.isNaN = false) :
    ¬ left < right ↔ right ≤ left := by
  have comparable := isSome_order?_iff.mpr ⟨leftDefined, rightDefined⟩
  rw [lt_iff, le_iff, order?_swap left right]
  cases compared : order? left right with
  | none => simp [compared] at comparable
  | some ordering => cases ordering <;> simp

theorem unpack_zero : (0 : Float32).toModel.unpack = .zero .positive := rfl

/-- No number is both above the unit interval and below it. -/
theorem not_lt_zero_of_one_lt {value : Float32} (above : 1 < value) : ¬ value < 0 := by
  have one : (1 : Float32).toModel.unpack =
      .finite .positive 8388608 (-23) (Nat.zero_lt_succ _) := rfl
  rw [lt_iff, order?, one] at above
  rw [lt_iff, order?, unpack_zero]
  generalize value.toModel.unpack = unpacked at above ⊢
  cases unpacked with
  | notANumber | zero _ => exact absurd above nofun
  | infinity sign | finite sign _ _ _ =>
      cases sign with
      | negative => exact absurd above nofun
      | positive => exact nofun

/-! ## Signs -/

/-- The number has a negative sign.  The undefined number has none. -/
def IsMinus : UnpackedFloat → Prop
  | .infinity sign | .zero sign | .finite sign _ _ _ => sign = .negative
  | .notANumber => False

theorem unpack_sub (left right : Float32) :
    (left - right).toModel.unpack =
      unpack .binary32
        (pack .binary32 (.sub .binary32 left.toModel.unpack right.toModel.unpack)) := rfl

/-- The sign bit stands above the others, so packing a positive sign leaves it unset. -/
theorem unpackSign_packComponents_positive
    (exponent : BitVec Format.binary32.exponentBits)
    (mantissa : BitVec Format.binary32.mantissaBitsWithoutImplicit) :
    UnpackedFloat.unpackSign (packComponents .binary32 .positive exponent mantissa) = 0#1 := by
  have exponentBits : Format.binary32.exponentBits = 8 := rfl
  have mantissaBits : Format.binary32.mantissaBitsWithoutImplicit = 23 := rfl
  ext index below
  change (BitVec.extractLsb' 31 1 (0#1 ++ exponent ++ mantissa))[index] = _
  rw [BitVec.getElem_extractLsb', BitVec.getLsbD_append, if_neg (by omega),
    BitVec.getLsbD_append, if_neg (by omega)]
  exact BitVec.getLsbD_zero.trans (BitVec.getElem_zero _).symm

/-- The sign of a number that is not undefined is that of its sign bit, whatever the other bits
say. -/
theorem not_isMinus_unpack {bits : BitVec Format.binary32.numBits}
    (unset : UnpackedFloat.unpackSign bits = 0#1) : ¬ IsMinus (unpack .binary32 bits) := by
  have positive : ¬ Sign.ofBitVec (UnpackedFloat.unpackSign bits) = .negative := by
    rw [unset]
    exact nofun
  -- The exponent tells infinity and the undefined number from zero and the finite numbers.
  refine iteInduction (motive := fun number => ¬ IsMinus number) (fun _ => ?_) (fun _ => ?_)
  · exact iteInduction (motive := fun number => ¬ IsMinus number) (fun _ => positive)
      (fun _ => not_false)
  · refine iteInduction (motive := fun number => ¬ IsMinus number) (fun _ => ?_)
      (fun _ => positive)
    by_cases zero : UnpackedFloat.unpackMantissa bits = 0#_
    · rw [dif_pos zero]
      exact positive
    · rw [dif_neg zero]
      exact positive

/-- Whatever the other bits say, a number whose sign bit is not set has no negative sign. -/
theorem not_isMinus_unpack_packComponents
    (exponent : BitVec Format.binary32.exponentBits)
    (mantissa : BitVec Format.binary32.mantissaBitsWithoutImplicit) :
    ¬ IsMinus (unpack .binary32 (packComponents .binary32 .positive exponent mantissa)) :=
  not_isMinus_unpack (unpackSign_packComponents_positive exponent mantissa)

/-- Packing may round a number to zero or to infinity, but never turns its sign. -/
theorem not_isMinus_unpack_pack {number : UnpackedFloat} (notMinus : ¬ IsMinus number) :
    ¬ IsMinus (unpack .binary32 (pack .binary32 number)) := by
  cases number with
  | notANumber => exact not_isMinus_unpack_packComponents _ _
  | infinity sign | zero sign =>
      cases sign with
      | negative => exact absurd rfl notMinus
      | positive => exact not_isMinus_unpack_packComponents _ _
  | finite sign mantissa exponent positive =>
      cases sign with
      | negative => exact absurd rfl notMinus
      | positive =>
          -- Too great a number becomes infinite, a small one is packed without its first bit.
          have packed := not_isMinus_unpack_packComponents
          exact iteInduction (motive := fun bits => ¬ IsMinus (unpack .binary32 bits))
            (fun _ => packed _ _)
            (fun _ => iteInduction (motive := fun bits => ¬ IsMinus (unpack .binary32 bits))
              (fun _ => packed _ _) (fun _ => packed _ _))

theorem isMinus_of_lt_zero {value : Float32} (below : value < 0) :
    IsMinus value.toModel.unpack := by
  rw [lt_iff, order?, unpack_zero] at below
  generalize value.toModel.unpack = number at below ⊢
  cases number with
  | notANumber | zero _ => exact absurd below nofun
  | infinity sign | finite sign _ _ _ =>
      cases sign with
      | negative => rfl
      | positive => exact absurd below nofun

theorem not_isMinus_zero_sub {value : Float32} (atMost : value ≤ 0) :
    ¬ IsMinus (.sub .binary32 (.zero .positive) value.toModel.unpack) := by
  rw [le_iff, order?, unpack_zero] at atMost
  generalize value.toModel.unpack = number at atMost ⊢
  cases number with
  | notANumber =>
      cases atMost with
      | inl compared | inr compared => exact absurd compared nofun
  | zero sign => cases sign <;> exact nofun
  | infinity sign | finite sign _ _ _ =>
      cases sign with
      | negative => exact nofun
      | positive =>
          cases atMost with
          | inl compared | inr compared => exact absurd compared nofun

/-- The opposite of a number that is not above zero is not below it. -/
theorem not_zero_sub_lt_zero {value : Float32} (atMost : value ≤ 0) : ¬ 0 - value < 0 := by
  intro below
  have minus := isMinus_of_lt_zero below
  rw [unpack_sub, unpack_zero] at minus
  exact not_isMinus_unpack_pack (not_isMinus_zero_sub atMost) minus

end Scalar

/-! ## Clamping -/

namespace Production

/-- Moving a number into the unit interval gives its nearest point there, and zero for the
undefined number. -/
inductive ClampsTo (value : Float32) : Float32 → Prop where
  | undefined : value.isNaN = true → ClampsTo value 0
  | below : value < 0 → ClampsTo value 0
  | above : 1 < value → ClampsTo value 1
  | within : 0 ≤ value → value ≤ 1 → ClampsTo value value

theorem clampsTo_iff {value result : Float32} :
    ClampsTo value result ↔ clampProbability value = result := by
  unfold clampProbability
  constructor
  · intro clamps
    cases clamps with
    | undefined isNaN => rw [if_pos isNaN]
    | below less => rw [if_neg (ne_true_of_eq_false (Scalar.isNaN_of_lt less).1), if_pos less]
    | above greater =>
        rw [if_neg (ne_true_of_eq_false (Scalar.isNaN_of_lt greater).2),
          if_neg (Scalar.not_lt_zero_of_one_lt greater), if_pos greater]
    | within atLeast atMost =>
        have defined := Scalar.isNaN_of_le atLeast
        have notAbove := (Scalar.not_lt_iff (Scalar.isNaN_of_le atMost).2 defined.2).mpr atMost
        rw [if_neg (ne_true_of_eq_false defined.2),
          if_neg ((Scalar.not_lt_iff defined.2 defined.1).mpr atLeast), if_neg notAbove]
  · rintro rfl
    cases isNaN : value.isNaN with
    | true => exact .undefined isNaN
    | false =>
        rw [if_neg Bool.false_ne_true]
        by_cases below : value < 0
        · rw [if_pos below]
          exact .below below
        · rw [if_neg below]
          by_cases above : value > 1
          · rw [if_pos above]
            exact .above above
          · rw [if_neg above]
            exact .within ((Scalar.not_lt_iff isNaN (by decide)).mp below)
              ((Scalar.not_lt_iff (by decide) isNaN).mp above)

/-- Every number ends up in the unit interval. -/
theorem ClampsTo.mem_unit {value result : Float32} (clamps : ClampsTo value result) :
    0 ≤ result ∧ result ≤ 1 := by
  cases clamps with
  | undefined _ | below _ | above _ => decide
  | within atLeast atMost => exact ⟨atLeast, atMost⟩

end Production

end Arbor
