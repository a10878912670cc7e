import Mathlib
import Magnetofluid.Proofs.Model.Direct

/-!
# The current of a flux

A recovery of the current solves the system with its essential rows replaced by the prescribed values, and nothing else
has an influence on it: neither the guess off the essential nodes nor what was recovered before.

* `Operators.currents`: fluxes and prescribed values with their currents, a linear relation.
* `Operators.existsUnique_mem_currents`: there is one current for each flux and all prescribed values.
* `Model.recovery_solves`: the recovery returns it, linear in flux and prescribed values, and to recover again changes
  nothing.
-/

namespace Magnetofluid

open Matrix

/-- A linear relation in which everything has one partner is a linear map. -/
theorem exists_linearMap_of_existsUnique {V W : Type} [AddCommGroup V] [Module ℝ V] [AddCommGroup W] [Module ℝ W]
    (R : Submodule ℝ (V × W)) (hR : ∀ v, ∃! w, (v, w) ∈ R) : ∃ L : V →ₗ[ℝ] W, ∀ v w, (v, w) ∈ R ↔ w = L v := by
  choose f hf hunique using hR
  refine ⟨{ toFun := f, map_add' := fun u v => ?_, map_smul' := fun c v => ?_ }, fun v w => ⟨hunique v w, ?_⟩⟩
  · exact (hunique _ _ (R.add_mem (hf u) (hf v))).symm
  · exact (hunique _ _ (R.smul_mem c (hf v))).symm
  · rintro rfl
    exact hf v

/-- The current of a flux, with the prescribed values of another field if one is given. -/
noncomputable def CurrentRecovery.recoverFor {n : ℕ} (r : CurrentRecovery ℝ n) (psi j : Vec ℝ n)
    (boundary : Option (Vec ℝ n)) : EStateM (Failure ℝ) (Krylov.Report ℝ) (Vec ℝ n) :=
  match boundary with
  | none => r.recover psi j
  | some b => r.recoverWith psi j b

def Essential.dataOf {n : ℕ} (ess : Essential n) (x : Vec ℝ n) : { i // i ∈ ess } → ℝ := fun i => x.get i

theorem Essential.dataOf_surjective {n : ℕ} (ess : Essential n) : Function.Surjective ess.dataOf := by
  intro data
  refine ⟨.ofFn fun i => if hi : i ∈ ess then data ⟨i, hi⟩ else 0, funext fun i => ?_⟩
  exact (congrFun (Vec.values_ofFn _) i.val).trans (dif_pos i.2)

namespace Operators

variable {n : ℕ} (ops : Operators ℝ n)

/-- Fluxes with values on the essential nodes, each with its currents. -/
noncomputable def currents : Submodule ℝ (((Fin n → ℝ) × ({ i // i ∈ ops.ess } → ℝ)) × (Fin n → ℝ)) where
  carrier := { p | (∀ i : { i // i ∈ ops.ess }, p.2 i = p.1.2 i) ∧
    ∀ i ∉ ops.ess, (ops.mass.toMatrix *ᵥ p.2 + ops.jump.toMatrix *ᵥ p.1.1) i = 0 }
  zero_mem' := by simp
  add_mem' := by
    rintro p q ⟨hp, hp'⟩ ⟨hq, hq'⟩
    refine ⟨fun i => congrArg₂ (· + ·) (hp i) (hq i), fun i hi => ?_⟩
    have hsum := congrArg₂ (· + ·) (hp' i hi) (hq' i hi)
    simp only [Prod.snd_add, Prod.fst_add, Matrix.mulVec_add, Pi.add_apply, add_zero] at hsum ⊢
    linarith
  smul_mem' := by
    rintro c p ⟨hp, hp'⟩
    refine ⟨fun i => congrArg (c * ·) (hp i), fun i hi => ?_⟩
    have hscaled := congrArg (c * ·) (hp' i hi)
    simp only [Prod.smul_snd, Prod.smul_fst, Matrix.mulVec_smul, Pi.add_apply, Pi.smul_apply, smul_eq_mul,
      mul_zero] at hscaled ⊢
    linarith

variable {ops}

theorem mem_currents_iff {boundary psi j : Vec ℝ n} :
    ((psi.values, ops.ess.dataOf boundary), j.values) ∈ ops.currents ↔ ops.IsCurrent boundary psi j := by
  refine and_congr Subtype.forall (forall₂_congr fun i _ => ?_)
  rw [Pi.add_apply, add_eq_zero_iff_eq_neg]

/-- The rows of the current as the system had them before the elimination. -/
theorem isCurrent_iff_get {boundary psi j : Vec ℝ n} : ops.IsCurrent boundary psi j ↔
    (∀ i ∈ ops.ess, j.get i = boundary.get i) ∧
      ∀ i ∉ ops.ess, (ops.mass.mulVec j + ops.jump.mulVec psi).get i = 0 := by
  refine and_congr Iff.rfl (forall₂_congr fun i _ => ?_)
  show _ ↔ (ops.mass.mulVec j + ops.jump.mulVec psi).values i = 0
  rw [Vec.values_add, Sparse.values_mulVec, Sparse.values_mulVec, Pi.add_apply, add_eq_zero_iff_eq_neg]

/-- There is one current for each flux and all prescribed values. -/
theorem existsUnique_mem_currents (hmass : ops.ess.Definite ops.mass.toMatrix)
    (p : (Fin n → ℝ) × ({ i // i ∈ ops.ess } → ℝ)) : ∃! v, (p, v) ∈ ops.currents := by
  obtain ⟨psi, data⟩ := p
  obtain ⟨psi, rfl⟩ := Vec.values_surjective psi
  obtain ⟨boundary, rfl⟩ := ops.ess.dataOf_surjective data
  obtain ⟨j, _, -, hj⟩ := Krylov.direct_exact hmass.eliminate_injective
    (CurrentRecovery.rhs ⟨ops.mass, ops.jump, ops.ess, Krylov.direct (ops.mass.eliminate ops.ess)⟩ psi boundary)
    boundary .fresh
  rw [isCurrent_iff] at hj
  refine ⟨j.values, mem_currents_iff.2 hj, fun v hv => ?_⟩
  obtain ⟨j', rfl⟩ := Vec.values_surjective v
  exact congrArg Vec.values ((mem_currents_iff.1 hv).unique hmass hj fun _ _ => rfl)

end Operators

namespace CurrentRecovery

variable {n : ℕ} {ops : Operators ℝ n} {solve : Krylov.LinearSolve ℝ n}

theorem exists_recoverFor (hsolve : Krylov.Exact (ops.mass.eliminate ops.ess) solve) (psi j : Vec ℝ n)
    (boundary : Option (Vec ℝ n)) (report : Krylov.Report ℝ) : ∃ j' report',
      (recoverFor ⟨ops.mass, ops.jump, ops.ess, solve⟩ psi j boundary).run report = .ok j' report' ∧
        ops.IsCurrent (boundary.getD j) psi j' := by
  cases boundary with
  | none => exact exists_recover hsolve psi j report
  | some b =>
    obtain ⟨j', report', hj, hcurrent⟩ := exists_recover hsolve psi (Vec.overwriteOn ops.ess b j) report
    exact ⟨j', report', hj, Operators.isCurrent_overwriteOn_iff.1 hcurrent⟩

end CurrentRecovery

namespace Model

variable {m : Mesh ℝ} {ess : Essential m.nodes} {viscosity resistivity : ℝ} {model : Model ℝ m.nodes}

/-- **The recovery of the current solves the constrained system, and nothing else has an influence.**  Its answer is the
one field with the prescribed values on the essential nodes that obeys the other rows of the system as it was before the
elimination.  It depends on flux and prescribed values alone, and linearly, and a recovery from it returns it again. -/
theorem recovery_solves (h : m.Proper) (hops : model.toOperators = .ofMesh m ess viscosity resistivity)
    (hmass : Krylov.Exact model.massSystem model.massSolve) :
    ∃ L : (Fin m.nodes → ℝ) × ({ i // i ∈ ess } → ℝ) →ₗ[ℝ] (Fin m.nodes → ℝ),
      ∀ (psi j : Vec ℝ m.nodes) (boundary : Option (Vec ℝ m.nodes)) (report : Krylov.Report ℝ), ∃ j' report',
        (model.recovery.recoverFor psi j boundary).run report = .ok j' report' ∧
          (∀ v : Vec ℝ m.nodes, v = j' ↔ (∀ i ∈ ess, v.get i = (boundary.getD j).get i) ∧
            ∀ i ∉ ess, ((Form.mass m).mulVec v +
              (Form.diffusion m 1 - Form.boundaryFlux m).mulVec psi).get i = 0) ∧
          j'.values = L (psi.values, ess.dataOf (boundary.getD j)) ∧
          ∀ again, ∃ report'', (model.recovery.recoverFor psi j' boundary).run again = .ok j' report'' := by
  have hdefinite := Operators.mass_definite hops h
  have hsolve : Krylov.Exact (model.mass.eliminate model.ess) model.massSolve := Operators.massSystem_eq hops ▸ hmass
  obtain ⟨L, hL⟩ := exists_linearMap_of_existsUnique _ (Operators.existsUnique_mem_currents hdefinite)
  have hmatrix : model.mass = Form.mass m := congrArg Operators.mass hops
  have hjump : model.jump = Form.diffusion m 1 - Form.boundaryFlux m := congrArg Operators.jump hops
  obtain rfl : model.ess = ess := Operators.ess_eq hops
  refine ⟨L, fun psi j boundary report => ?_⟩
  obtain ⟨j', report', hj, hcurrent⟩ := CurrentRecovery.exists_recoverFor hsolve psi j boundary report
  refine ⟨j', report', hj, fun v => ?_, (hL _ _).1 (Operators.mem_currents_iff.2 hcurrent), fun again => ?_⟩
  · have hcurrent_iff : model.IsCurrent (boundary.getD j) psi v ↔ _ := Operators.isCurrent_iff_get
    rw [hmatrix, hjump] at hcurrent_iff
    rw [← hcurrent_iff]
    exact ⟨fun hv => hv ▸ hcurrent, fun hv => hv.unique hdefinite hcurrent fun _ _ => rfl⟩
  · obtain ⟨j'', report'', hj', hcurrent'⟩ :=
      CurrentRecovery.exists_recoverFor hsolve psi j' boundary again
    -- the answer has the prescribed values itself
    have hprescribed : ∀ i ∈ model.ess, (boundary.getD j).values i = (boundary.getD j').values i := by
      cases boundary with
      | none => exact fun i hi => (hcurrent.1 i hi).symm
      | some b => exact fun _ _ => rfl
    obtain rfl := hcurrent.unique hdefinite hcurrent' hprescribed
    exact ⟨report'', hj'⟩

/-- A ramp with the prescribed values of a vortex, from a guess that has others. -/
theorem recovery_solves_square : ∃ j' report',
    (square.recovery.recoverFor ramp ramp (some vortex)).run .fresh = .ok j' report' ∧
      (∀ i ∈ square.ess, j'.get i = vortex.get i) ∧
      ∀ again, ∃ report'', (square.recovery.recoverFor ramp j' (some vortex)).run again = .ok j' report'' := by
  have hops : square.toOperators = .ofMesh Mesh.unitSquare (.boundary _) 1 1 := rfl
  obtain ⟨L, hL⟩ := recovery_solves Mesh.unitSquare_proper hops square_exactSolves.mass
  obtain ⟨j', report', hj, hunique, -, hagain⟩ := hL ramp ramp (some vortex) .fresh
  exact ⟨j', report', hj, ((hunique j').1 rfl).1, hagain⟩

end Model

end Magnetofluid
