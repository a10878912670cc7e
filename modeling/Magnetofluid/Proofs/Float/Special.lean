import Mathlib
import Magnetofluid.Proofs.Float.Order

/-!
# Special values of floats

Signs, zeros, infinities and NaNs under the arithmetic of floats.  A result is rounded to the format in which it is
stored, which may turn a finite number into a zero or an infinity of its sign, and nothing else into another kind of
value.

* `Float.Model.UnpackedFloat.stored`: what may become of a value when it is stored.
* `Float.isFinite_of_add`, `Float.isFinite_of_sub_self`, `Float.isFinite_of_zero_mul`, `Float.isFinite_of_div`: results
  that only finite operands have.
* `Float.isNaN_sub`, `Float.isNaN_mul`, `Float.isNaN_abs`: a NaN is passed on.
* `Float.pos_of_div_natCast_pos`: a quotient of a count is positive only if the dividend is.
* `Float.IsPosInf`: the infinity above all floats; it is a root, and a product with a factor that is positive.
-/

namespace Float

/-! ### Unpacked values -/

namespace Model.UnpackedFloat

/-- The sign of a float, of a zero too; a NaN has none. -/
def sign? : UnpackedFloat → Option Sign
  | .notANumber => none
  | .infinity s | .zero s | .finite s .. => some s

section Signs

variable (s : Sign)

@[simp] theorem sign?_notANumber : notANumber.sign? = none := rfl

@[simp] theorem sign?_infinity : (infinity s).sign? = some s := rfl

@[simp] theorem sign?_zero : (zero s).sign? = some s := rfl

@[simp] theorem sign?_finite {m : ℕ} {e : ℤ} {h : 0 < m} : (finite s m e h).sign? = some s := rfl

end Signs

def isZero : UnpackedFloat → Bool
  | .zero _ => true
  | _ => false

def Positive (u : UnpackedFloat) : Prop := u.sign? = some .positive ∧ u.isZero = false

theorem zero_compare_eq_lt_iff {u : UnpackedFloat} (s : Sign) : (zero s).compare u = some .lt ↔ u.Positive := by
  cases u with
  | notANumber => simp [UnpackedFloat.compare, Positive]
  | infinity t => cases t <;> simp [UnpackedFloat.compare, Positive, isZero]
  | zero t => simp [UnpackedFloat.compare, Positive, isZero]
  | finite t => cases t <;> simp [UnpackedFloat.compare, Positive, isZero]

/-- What a value may become when it is stored in a format. -/
inductive Stored : UnpackedFloat → UnpackedFloat → Prop
  | notANumber : Stored .notANumber .notANumber
  | infinity (s : Sign) : Stored (.infinity s) (.infinity s)
  | zero (s : Sign) : Stored (.zero s) (.zero s)
  | overflow (s : Sign) {m e h} : Stored (.finite s m e h) (.infinity s)
  | underflow (s : Sign) {m e h} : Stored (.finite s m e h) (.zero s)
  | finite (s : Sign) {m e h n f k} : Stored (.finite s m e h) (.finite s n f k)

namespace Stored

variable {u v : UnpackedFloat} (h : Stored u v)
include h

theorem isNaN_eq : v.isNaN = u.isNaN := by cases h <;> rfl

theorem sign?_eq : v.sign? = u.sign? := by cases h <;> rfl

theorem isFinite (hv : v.isFinite) : u.isFinite := by cases h <;> trivial

theorem positive (hv : v.Positive) : u.Positive := by
  refine ⟨h.sign?_eq ▸ hv.1, ?_⟩
  cases h with
  | zero s => exact hv.2
  | _ => rfl

theorem isZero (hu : u.isZero) : v.isZero := by
  cases h with
  | zero s => rfl
  | _ => exact absurd hu Bool.false_ne_true

/-- Storing changes finite numbers only. -/
theorem eq_of_not_isFinite (hu : u.isFinite = false) : v = u := by
  cases h with
  | notANumber => rfl
  | infinity s => rfl
  | _ => exact absurd hu.symm Bool.false_ne_true

end Stored

section Storing

variable {spec : Format}

theorem unpack_packedInfinity {s : Sign} : unpack spec (packedInfinity spec s) = .infinity s := by
  simp [unpack, packedInfinity]

/-- Components whose exponent is not the largest are those of a finite number. -/
theorem stored_packComponents (s : Sign) {m e h} {exponent : BitVec spec.exponentBits} {mantissa}
    (hexponent : exponent ≠ -1#_) :
    Stored (.finite s m e h) (unpack spec (packComponents spec s exponent mantissa)) := by
  unfold unpack
  simp only [unpackExponent_packComponents, unpackMantissa_packComponents, unpackSign_packComponents,
    Sign.ofBitVec_toBitVec, hexponent, if_false]
  split_ifs
  · exact .underflow s
  · exact .finite s
  · exact .finite s

theorem stored (u : UnpackedFloat) : Stored u (unpack spec (pack spec u)) := by
  fun_cases pack with
  | case1 =>
    rw [unpack_packedNaN]
    exact .notANumber
  | case2 s =>
    rw [unpack_packedInfinity]
    exact .infinity s
  | case3 s =>
    rw [unpack_packedZero]
    exact .zero s
  | case4 s m e hm biasedExponent hoverflow =>
    rw [unpack_packedInfinity]
    exact .overflow s
  | case5 s m e hm actualMantissaBits biasedExponent hoverflow hnormal =>
    refine stored_packComponents s ?_
    have hlt : biasedExponent < 2 ^ spec.exponentBits - 1 := by omega
    rw [BitVec.neg_one_eq_allOnes, Ne, ← BitVec.toNat_inj, BitVec.toNat_ofNat, BitVec.toNat_allOnes,
      Nat.mod_eq_of_lt (by omega)]
    exact hlt.ne
  | case6 s m e hm actualMantissaBits biasedExponent hoverflow hnormal =>
    have hbits : spec.exponentBits ≠ 0 := spec.he.ne'
    exact stored_packComponents s (by simp [hbits])

end Storing

section Operations

variable {spec : Format} {u v : UnpackedFloat}

@[simp] theorem sign?_roundWithAccuracy (s : Sign) (m : ℕ) (e : ℤ) (acc : Accuracy) :
    (roundWithAccuracy spec s m e acc).sign? = some s := by
  unfold roundWithAccuracy
  dsimp only
  split_ifs
  · rfl
  · rfl

theorem sign?_normalize_natCast (n : ℕ) (e : ℤ) : (normalize spec n e .positive).sign? = some .positive := by
  unfold normalize
  cases h : compare (n : ℤ) 0 with
  | lt => exact absurd (compare_lt_iff_lt.1 h) (by omega)
  | eq => rfl
  | gt => exact sign?_roundWithAccuracy ..

theorem isFinite_of_add (h : (add spec u v).isFinite) : u.isFinite ∧ v.isFinite := by
  cases u with
  | infinity s =>
    cases v with
    | infinity t => cases s <;> cases t <;> exact absurd h Bool.false_ne_true
    | _ => exact absurd h Bool.false_ne_true
  | notANumber => exact absurd h Bool.false_ne_true
  | _ =>
    cases v with
    | infinity t => exact absurd h Bool.false_ne_true
    | notANumber => exact absurd h Bool.false_ne_true
    | _ => exact ⟨rfl, rfl⟩

theorem isNaN_sub (h : u.isNaN ∨ v.isNaN) : (sub spec u v).isNaN := by
  cases u <;> cases v <;> simp_all [isNaN, sub]

theorem isFinite_of_sub_self (h : ¬ (sub spec u u).isNaN) : u.isFinite := by
  cases u with
  | notANumber => exact absurd rfl h
  | infinity s => cases s <;> exact absurd rfl h
  | _ => rfl

theorem isNaN_mul (h : u.isNaN ∨ v.isNaN) : (mul spec u v).isNaN := by
  cases u <;> cases v <;> simp_all [isNaN, mul]

theorem isFinite_of_zero_mul (s : Sign) (h : (mul spec (zero s) u).isFinite) : u.isFinite := by
  cases u with
  | notANumber => exact absurd h Bool.false_ne_true
  | infinity t => exact absurd h Bool.false_ne_true
  | _ => rfl

theorem isFinite_of_div (h : (div spec u v).isFinite) : u.isFinite := by
  cases u with
  | notANumber => exact absurd h Bool.false_ne_true
  | infinity t => cases v <;> exact absurd h Bool.false_ne_true
  | _ => rfl

theorem sign?_mul_finite (hu : u.sign? = some .positive) {m : ℕ} {e : ℤ} {h : 0 < m} :
    (mul spec u (.finite .positive m e h)).sign? = some .positive := by
  have hsign : Sign.positive * .positive = .positive := rfl
  cases u <;> simp_all [mul]

theorem sign?_ofScientific (m : ℕ) (e : ℤ) : (ofScientific spec m e).sign? = some .positive := by
  unfold ofScientific
  split_ifs
  · rfl
  · rfl
  · rfl
  · exact sign?_mul_finite (sign?_finite _)
  · exact sign?_roundWithAccuracy ..

theorem sign_div_positive (s : Sign) : s / .positive = s := by cases s <;> rfl

/-- A quotient by something positive, or by a positive zero, has the sign of the dividend, unless it is a NaN. -/
theorem sign?_div (hv : v.sign? = some .positive) (h : (div spec u v).sign? ≠ none) :
    (div spec u v).sign? = u.sign? := by
  cases u <;> cases v <;> simp_all [div, sign_div_positive]

theorem not_positive_zero_div (s : Sign) : ¬ (div spec (zero s) v).Positive := by
  rintro ⟨hsign, hzero⟩
  cases v with
  | notANumber => exact absurd hsign.symm (Option.some_ne_none _)
  | zero t => exact absurd hsign.symm (Option.some_ne_none _)
  | _ => exact absurd hzero.symm Bool.false_ne_true

theorem positive_of_div (hv : v.sign? = some .positive) (h : (div spec u v).Positive) : u.Positive := by
  have hsign : u.sign? = some .positive := by
    rw [← sign?_div hv (h.1 ▸ Option.some_ne_none _)]
    exact h.1
  refine ⟨hsign, ?_⟩
  cases u with
  | zero r => exact absurd h (not_positive_zero_div r)
  | _ => rfl

end Operations

section Infinity
variable {spec : Format} {u v : UnpackedFloat}

theorem compare_infinity_positive (h : u.isNaN = false) :
    u.compare (.infinity .positive) = some .lt ∨ u.compare (.infinity .positive) = some .eq := by
  cases u with
  | notANumber => exact absurd h.symm Bool.false_ne_true
  | infinity s =>
    cases s with
    | negative => exact .inl rfl
    | positive => exact .inr rfl
  | zero s => exact .inl rfl
  | finite s => cases s <;> exact .inl rfl

theorem eq_infinity_positive_of_compare
    (h : (infinity .positive).compare u = some .lt ∨ (infinity .positive).compare u = some .eq) :
    u = .infinity .positive := by
  cases u with
  | infinity s =>
    cases s with
    | negative => rcases h with h | h <;> cases h
    | positive => rfl
  | _ => rcases h with h | h <;> cases h

theorem isFinite_mul_infinity (s : Sign) : (mul spec u (.infinity s)).isFinite = false := by cases u <;> rfl

/-- A product with infinity is infinity where the factor is above zero. -/
theorem mul_infinity_positive_iff : mul spec u (.infinity .positive) = .infinity .positive ↔ u.Positive := by
  cases u with
  | notANumber => simp [mul, Positive]
  | zero s => simp [mul, Positive, isZero]
  | _ s =>
    cases s with
    | negative => exact ⟨nofun, fun h => nomatch h.1⟩
    | positive => exact iff_of_true rfl ⟨rfl, rfl⟩

/-- A square root has no negative sign, but for that of a zero. -/
theorem isZero_sqrt_of_negative (h : (sqrt spec u).sign? = some .negative) : (sqrt spec u).isZero := by
  cases u with
  | zero s => rfl
  | notANumber => nomatch h
  | infinity s => cases s <;> nomatch h
  | finite s m e hm =>
    cases s with
    | negative => nomatch h
    | positive =>
      simp [sqrt] at h

end Infinity

end Model.UnpackedFloat

/-! ### Floats -/

open Model UnpackedFloat

theorem Model.stored_pack (u : UnpackedFloat) : Stored u (pack u).unpack := stored u

theorem unpack_zero : (0.0 : Float).toModel.unpack = .zero .positive := rfl

theorem unpack_natCast_zero : (Float.ofNat 0).toModel.unpack = .zero .positive := rfl

theorem sign?_natCast (n : ℕ) : (Float.ofNat n).toModel.unpack.sign? = some .positive := by
  show (Float.ofScientific n false 0).toModel.unpack.sign? = _
  unfold Float.ofScientific
  split
  · -- a count that is exact is multiplied by the power of ten whose exponent is zero
    have hcount : n.toUInt64.toFloat.toModel.unpack.sign? = some .positive :=
      (stored_pack _).sign?_eq.trans (sign?_normalize_natCast _ 0)
    have hone : exactlyRepresentablePowersOfTen[0].toModel.unpack = .finite .positive (2 ^ 52) (-52) (by decide) := rfl
    refine (stored_pack _).sign?_eq.trans ?_
    rw [hone]
    exact sign?_mul_finite hcount
  · exact (stored_pack _).sign?_eq.trans (sign?_ofScientific _ _)

variable {a b c : Float}

theorem zero_lt_iff : 0.0 < a ↔ a.toModel.unpack.Positive := by
  rw [lt_iff_compare]
  show UnpackedFloat.compare (0.0 : Float).toModel.unpack _ = _ ↔ _
  rw [unpack_zero]
  exact zero_compare_eq_lt_iff _

theorem pos_of_div_natCast_pos {n : ℕ} (h : 0.0 < a / Float.ofNat n) : 0.0 < a := by
  rw [zero_lt_iff] at h ⊢
  exact positive_of_div (sign?_natCast n) ((stored_pack _).positive h)

theorem isFinite_of_add (h : (a + b).isFinite) : a.isFinite ∧ b.isFinite :=
  UnpackedFloat.isFinite_of_add ((stored_pack _).isFinite h)

theorem isFinite_of_sub_self (h : ¬ (a - a).isNaN) : a.isFinite :=
  UnpackedFloat.isFinite_of_sub_self fun hsub => h ((stored_pack _).isNaN_eq.trans hsub)

theorem isFinite_of_zero_mul (h : (Float.ofNat 0 * a).isFinite) : a.isFinite := by
  have hmul := (stored_pack _).isFinite h
  rw [unpack_natCast_zero] at hmul
  exact UnpackedFloat.isFinite_of_zero_mul _ hmul

theorem isFinite_of_div (h : (a / b).isFinite) : a.isFinite :=
  UnpackedFloat.isFinite_of_div ((stored_pack _).isFinite h)

theorem isNaN_sub (h : a.isNaN ∨ b.isNaN) : (a - b).isNaN :=
  (stored_pack _).isNaN_eq.trans (UnpackedFloat.isNaN_sub h)

theorem isNaN_mul (h : a.isNaN ∨ b.isNaN) : (a * b).isNaN :=
  (stored_pack _).isNaN_eq.trans (UnpackedFloat.isNaN_mul h)

theorem isNaN_abs (h : a.isNaN) : a.abs.isNaN := by
  have hunpack : a.toModel.unpack = .notANumber := UnpackedFloat.isNaN_iff.1 h
  refine (stored_pack _).isNaN_eq.trans ?_
  rw [hunpack]
  rfl

/-! ### Infinity -/

/-- The infinity above all other floats. -/
def IsPosInf (a : Float) : Prop := a.toModel.unpack = .infinity .positive

/-- A float is finite, infinite or a NaN. -/
theorem isInf_of_not_isFinite (hfinite : a.isFinite = false) (hnan : a.isNaN = false) : a.isInf := by
  show a.toModel.unpack.isInf
  replace hfinite : a.toModel.unpack.isFinite = false := hfinite
  replace hnan : a.toModel.unpack.isNaN = false := hnan
  cases h : a.toModel.unpack with
  | infinity s => rfl
  | notANumber =>
    rw [h] at hnan
    exact absurd hnan.symm Bool.false_ne_true
  | _ =>
    rw [h] at hfinite
    exact absurd hfinite.symm Bool.false_ne_true

theorem le_iff_compare_unpack : a ≤ b ↔ a.toModel.unpack.compare b.toModel.unpack = some .lt ∨
    a.toModel.unpack.compare b.toModel.unpack = some .eq := le_iff_compare

namespace IsPosInf

theorem unpack_eq (h : a.IsPosInf) : a.toModel.unpack = .infinity .positive := h

theorem isFinite_eq (h : a.IsPosInf) : a.isFinite = false := congrArg UnpackedFloat.isFinite h.unpack_eq

theorem isNaN_eq (h : a.IsPosInf) : a.isNaN = false := congrArg UnpackedFloat.isNaN h.unpack_eq

theorem le (hb : b.IsPosInf) (ha : a.isNaN = false) : a ≤ b := by
  rw [le_iff_compare_unpack, hb.unpack_eq]
  exact compare_infinity_positive ha

theorem of_le (ha : a.IsPosInf) (h : a ≤ b) : b.IsPosInf := by
  rw [le_iff_compare_unpack, ha.unpack_eq] at h
  exact eq_infinity_positive_of_compare h

/-- A product with infinity is infinity where the factor is positive, and otherwise is not. -/
theorem mul_iff (ha : a.IsPosInf) : (c * a).IsPosInf ↔ 0.0 < c := by
  have hmul : (c * a).toModel.unpack = UnpackedFloat.mul Format.binary64 c.toModel.unpack (.infinity .positive) := by
    rw [← ha.unpack_eq]
    refine (stored_pack _).eq_of_not_isFinite ?_
    rw [ha.unpack_eq]
    exact isFinite_mul_infinity _
  show (c * a).toModel.unpack = _ ↔ _
  rw [hmul, mul_infinity_positive_iff, zero_lt_iff]

end IsPosInf

/-- A root that is infinite is so upwards. -/
theorem isPosInf_sqrt (h : a.sqrt.isInf) : a.sqrt.IsPosInf := by
  have hstored : Stored (UnpackedFloat.sqrt Format.binary64 a.toModel.unpack) a.sqrt.toModel.unpack := stored_pack _
  have hinf : a.sqrt.toModel.unpack.isInf := h
  show a.sqrt.toModel.unpack = _
  cases hunpack : a.sqrt.toModel.unpack with
  | infinity s =>
    cases s with
    | positive => rfl
    | negative =>
      rw [hunpack] at hstored
      have hzero := hstored.isZero (isZero_sqrt_of_negative hstored.sign?_eq.symm)
      exact absurd hzero Bool.false_ne_true
  | _ =>
    rw [hunpack] at hinf
    exact absurd hinf Bool.false_ne_true

end Float
