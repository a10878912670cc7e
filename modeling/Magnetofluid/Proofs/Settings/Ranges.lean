import Mathlib
import Magnetofluid.Proofs.Float.Order
import Magnetofluid.Proofs.Settings.Sections

/-!
# Ranges of the settings that are read

Two kinds of checks keep settings in their ranges.  One refuses a setting unless it is in its range; the other refuses a
setting that is out of range, and lets a NaN pass, which compares with nothing.

* `Section.InRange`, `Section.InRangeOrNaN`: the ranges, and the ranges together with the NaNs that pass.
* `Section.exists_ofValue_iff`: the sections that are read, other than grids, are the sections that are in range up to
  NaNs, and they are in range just if they have none.
* `Section.not_forall_inRange_of_ofValue`: a section is read with a size of step that is a NaN.
-/

namespace Magnetofluid

open Scalar

/-! ### Checks on floats -/

theorem lt_eq_true_iff {a b : Float} : lt a b = true ↔ a < b := decide_eq_true_iff

theorem le_eq_true_iff {a b : Float} : le a b = true ↔ a ≤ b := decide_eq_true_iff

theorem isNaN_zero : (0.0 : Float).isNaN = false := by decide

theorem lt_zero_eq_false_iff {x : Float} : lt x 0.0 = false ↔ 0.0 ≤ x ∨ x.isNaN := by
  refine decide_eq_false_iff_not.trans (Float.not_lt_iff.trans ?_)
  rw [isNaN_zero, Bool.false_eq_true, or_false]

theorem le_zero_eq_false_iff {x : Float} : le x 0.0 = false ↔ 0.0 < x ∨ x.isNaN := by
  refine decide_eq_false_iff_not.trans (Float.not_le_iff.trans ?_)
  rw [isNaN_zero, Bool.false_eq_true, or_false]

/-- A NaN is in no range. -/
theorem and_isNaN_iff {p : Prop} {x : Float} (h : p → x.isNaN = false) :
    p ↔ (p ∨ x.isNaN) ∧ x.isNaN = false := by
  cases hx : x.isNaN with
  | true => simp_all
  | false => simp

namespace Settings.Section

/-- The settings of a section are in the ranges that their names ask for. -/
def InRange : Section Float → Prop
  | options o => 1 ≤ o.writeFreq
  | grid _ => True
  | properties p => 0.0 ≤ p.viscosity ∧ 0.0 ≤ p.resistivity
  | initial i => 0.0 < i.lam ∧ (i.case_ = .coalescence → 0.0 ≤ i.eps ∧ i.eps < 1.0)
  | numerics n => 0.0 < n.dt
  | solver s => 0.0 < s.newton.alpha ∧ s.newton.alpha ≤ 1.0

/-- The settings of a section whose check refuses what is out of range. -/
def guarded : Section Float → List Float
  | properties p => [p.viscosity, p.resistivity]
  | initial i => [i.lam]
  | numerics n => [n.dt]
  | _ => []

/-- The settings of a section are in their ranges, or are NaNs that the checks do not refuse. -/
def InRangeOrNaN : Section Float → Prop
  | properties p => (0.0 ≤ p.viscosity ∨ p.viscosity.isNaN) ∧ (0.0 ≤ p.resistivity ∨ p.resistivity.isNaN)
  | initial i => (0.0 < i.lam ∨ i.lam.isNaN) ∧ (i.case_ = .coalescence → 0.0 ≤ i.eps ∧ i.eps < 1.0)
  | numerics n => 0.0 < n.dt ∨ n.dt.isNaN
  | s => s.InRange

variable {s : Section Float}

/-- The checks that a section has passed are those for its ranges, up to NaNs. -/
theorem checked_iff_inRangeOrNaN (hs : s.name ≠ .grid) : s.Checked ↔ s.InRangeOrNaN := by
  cases s with
  | options o => exact Iff.rfl
  | grid g => exact absurd rfl hs
  | properties p =>
    constructor
    · exact fun h => ⟨lt_zero_eq_false_iff.1 h.viscosity, lt_zero_eq_false_iff.1 h.resistivity⟩
    · exact fun h => ⟨lt_zero_eq_false_iff.2 h.1, lt_zero_eq_false_iff.2 h.2⟩
  | initial i =>
    have heps : (i.case_ != .coalescence || (le 0.0 i.eps && lt i.eps 1.0)) = true ↔
        (i.case_ = .coalescence → 0.0 ≤ i.eps ∧ i.eps < 1.0) := by
      rw [Bool.or_eq_true, Bool.and_eq_true, le_eq_true_iff, lt_eq_true_iff, bne_iff_ne, ← imp_iff_not_or]
    constructor
    · exact fun h => ⟨le_zero_eq_false_iff.1 h.lam, heps.1 h.eps⟩
    · exact fun h => ⟨le_zero_eq_false_iff.2 h.1, heps.2 h.2⟩
  | numerics n => exact le_zero_eq_false_iff
  | solver s =>
    show (lt 0.0 s.newton.alpha && le s.newton.alpha 1.0) = true ↔ _
    rw [Bool.and_eq_true, lt_eq_true_iff, le_eq_true_iff]
    exact Iff.rfl

theorem inRange_iff : s.InRange ↔ s.InRangeOrNaN ∧ ∀ x ∈ s.guarded, x.isNaN = false := by
  cases s with
  | options o => simp [InRange, InRangeOrNaN, guarded]
  | grid g => simp [InRange, InRangeOrNaN, guarded]
  | properties p =>
    have hviscosity := and_isNaN_iff (x := p.viscosity) fun h : 0.0 ≤ p.viscosity => (Float.isNaN_eq_false_of_le h).2
    have hresistivity := and_isNaN_iff fun h : 0.0 ≤ p.resistivity => (Float.isNaN_eq_false_of_le h).2
    rw [guarded, List.forall_mem_cons, List.forall_mem_singleton]
    exact (and_congr hviscosity hresistivity).trans and_and_and_comm
  | initial i =>
    have hlam := and_isNaN_iff fun h : 0.0 < i.lam => (Float.isNaN_eq_false_of_le (Float.le_of_lt h)).2
    rw [guarded, List.forall_mem_singleton]
    exact (and_congr_left' hlam).trans and_right_comm
  | numerics n =>
    rw [guarded, List.forall_mem_singleton]
    exact and_isNaN_iff fun h => (Float.isNaN_eq_false_of_le (Float.le_of_lt h)).2
  | solver s => simp [InRange, InRangeOrNaN, guarded]

theorem settled_eq_self (hs : s.name ≠ .grid) : s.settled = s := by
  cases s with
  | grid g => exact absurd rfl hs
  | _ => rfl

/-- **What the range checks let through.**  A section, other than a grid, is the reading of some value just if its
settings are in their ranges, but for a viscosity, a resistivity, a width of the sheet or a size of step that is a NaN.
So a section that is read is in range just if none of these is a NaN. -/
theorem exists_ofValue_iff (hs : s.name ≠ .grid) :
    ((∃ name v, ofValue name v = .ok s) ↔ s.InRangeOrNaN) ∧
      (s.InRange ↔ s.InRangeOrNaN ∧ ∀ x ∈ s.guarded, x.isNaN = false) := by
  refine ⟨?_, inRange_iff⟩
  rw [← checked_iff_inRangeOrNaN hs]
  constructor
  · rintro ⟨name, v, h⟩
    exact (name_and_checked_of_ofValue h).2
  · intro h
    refine ⟨s.name, .map s.toEntries, ?_⟩
    rw [ofValue_of_rearranged h (.refl _), settled_eq_self hs]

/-- The settings of a time integration whose size of step is a NaN. -/
def unorderedStep : Section Float := numerics ⟨.implicit, .rk2, RealText.nan, 1.0, 100000⟩

theorem not_inRange_unorderedStep : ¬ unorderedStep.InRange := by
  show ¬ (0.0 : Float) < 0.0 / 0.0
  decide

theorem exists_ofValue_iff_unorderedStep :
    unorderedStep.name ≠ .grid ∧ (∃ name v, ofValue name v = .ok unorderedStep) ∧ ¬ unorderedStep.InRange := by
  have hname : unorderedStep.name ≠ .grid := by decide
  have hnan : (RealText.nan : Float).isNaN = true := by decide
  exact ⟨hname, (exists_ofValue_iff hname).1.2 (.inr hnan), not_inRange_unorderedStep⟩

/-- A size of step that is a NaN is read, and is not positive. -/
theorem not_forall_inRange_of_ofValue : ¬ ∀ name (v : Value Float) s, ofValue name v = .ok s → s.InRange := by
  intro h
  have hread : ofValue .numerics (.map [entry "dt" (.real RealText.nan)]) = .ok unorderedStep := rfl
  exact not_inRange_unorderedStep (h _ _ _ hread)

end Settings.Section

end Magnetofluid
