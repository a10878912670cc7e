import Mathlib
import Magnetofluid.Proofs.Form.Stencil
import Magnetofluid.Proofs.Model.Direct

/-!
# Sign of the stream function

A vorticity of one sign has a stream function of the other sign.  The stiffness matrix has no positive entry off the
diagonal and its form is positive where some node is essential, and the mass matrix has no negative entry.

* `Form.mass_form_nonneg`, `Model.potentialLoad_nonpos`: the load of a vorticity without negative values.
* `Model.potential_nonpos`: its stream function, from any guess.
-/

namespace Magnetofluid

open Matrix

theorem Form.mass_form_nonneg {m : Mesh ℝ} (h : m.Proper) {x y : Fin m.nodes → ℝ} (hx : 0 ≤ x) (hy : 0 ≤ y) :
    0 ≤ x ⬝ᵥ (mass m).toMatrix *ᵥ y := by
  have hsum : ∀ {z : Fin m.nodes → ℝ} (t : Fin m.triangles), 0 ≤ z → 0 ≤ cornerSum z t :=
    fun t hz => Finset.sum_nonneg fun a _ => hz _
  rw [mass_form]
  refine Finset.sum_nonneg fun t _ => mul_nonneg (div_nonneg (m.element_area_pos h t).le (by norm_num)) ?_
  exact add_nonneg (mul_nonneg (hsum t hx) (hsum t hy)) (Finset.sum_nonneg fun a _ => mul_nonneg (hx _) (hy _))

namespace Model

variable {m : Mesh ℝ} {ess : Essential m.nodes} {viscosity resistivity : ℝ} {model : Model ℝ m.nodes}

theorem potentialLoad_nonpos (h : m.Proper) (hops : model.toOperators = .ofMesh m ess viscosity resistivity)
    {w : Vec ℝ m.nodes} (hw : ∀ i ∉ ess, 0 ≤ w.get i) : (model.potentialLoad w).values ≤ 0 := by
  have hess := Operators.ess_eq hops
  have hsystem : model.massSystem = (Form.mass m).eliminate ess := congrArg Operators.massSystem hops
  have hinner : 0 ≤ ess.inner w.values := by
    intro i
    by_cases hi : i ∈ ess
    · exact (Essential.inner_of_mem hi).ge
    · exact (hw i hi).trans_eq (Essential.inner_of_not_mem hi).symm
  intro i
  unfold potentialLoad
  rw [Vec.values_zeroOn, hess, hsystem]
  by_cases hi : i ∈ ess
  · exact (Essential.inner_of_mem hi).le
  · have hrow := Form.mass_form_nonneg h (Pi.single_nonneg.2 zero_le_one : 0 ≤ (Pi.single i 1 : Fin m.nodes → ℝ)) hinner
    rw [single_one_dotProduct, ← Sparse.eliminate_mulVec_of_not_mem _ _ _ hi] at hrow
    rw [Essential.inner_of_not_mem hi, Vec.values_neg, Sparse.values_mulVec]
    exact neg_nonpos.2 hrow

theorem nonpos_of_potential (h : m.Proper) (hops : model.toOperators = .ofMesh m ess viscosity resistivity)
    (hess : ∃ k, k ∈ ess) {w phi : Vec ℝ m.nodes} (hw : ∀ i ∉ ess, 0 ≤ w.get i)
    (hphi : model.stiffnessSystem.mulVec phi = model.potentialLoad w) : phi.values ≤ 0 := by
  have hsystem : model.stiffnessSystem = (Form.diffusion m 1).eliminate ess := congrArg Operators.stiffnessSystem hops
  have hzero : ess.ZeroOn phi.values := by
    have hzero := potential_zeroOn (Operators.stiffnessSystem_eq hops) hphi
    rwa [Operators.ess_eq hops] at hzero
  refine (Form.stiffness_positive h hess).nonpos_of_mulVec_nonpos
    (fun i j hij => (Form.stiffness_fivePoint h).nonpos i j hij) hzero fun i hi => ?_
  have hrow := potentialLoad_nonpos h hops hw i
  rwa [← hphi, Sparse.values_mulVec, hsystem, Sparse.eliminate_mulVec_of_zeroOn _ _ hzero hi] at hrow

/-- **The discrete maximum principle.**  Each row of the stiffness matrix has the sum zero, and joins its node, with the
opposite sign, to the four neighbours at most.  So on every mesh, and whatever nodes are essential, a vorticity without
negative values off them has a stream function without positive values, which vanishes on them. -/
theorem potential_nonpos (h : m.Proper) (hops : model.toOperators = .ofMesh m ess viscosity resistivity) :
    Form.IsFivePoint (g := m.toGrid) model.stiffness ∧
      (∀ i, (Finset.univ.filter (m.Adjacent i)).card ≤ 4) ∧
      ((∃ k, k ∈ ess) → (∀ solve, model.IsStiffnessSolve solve → Krylov.Exact model.stiffnessSystem solve) →
        ∀ (mem : Memory ℝ m.nodes) (x : State ℝ m.nodes), mem.solvable = true →
          mem.multigrid = model.multigridSolve.isSome → (∀ i ∉ ess, 0 ≤ x.w.get i) →
            ∃ phi, (model.potential x).run mem = .ok phi mem ∧ (∀ i, phi.get i ≤ 0) ∧ ∀ i ∈ ess, phi.get i = 0) := by
  have hstencil : model.stiffness = Form.diffusion m 1 := congrArg Operators.stiffness hops
  refine ⟨hstencil ▸ Form.stiffness_fivePoint h, Grid.card_adjacent_le,
    fun hess hstiffness mem x hsolvable hmultigrid hw => ?_⟩
  obtain ⟨phi, hphi⟩ := exists_potential hstiffness hsolvable hmultigrid x
  obtain ⟨hsolution, -⟩ := potential_ok (fun solve hsolve => (hstiffness solve hsolve).sound) hphi
  have hzero := potential_zeroOn (Operators.stiffnessSystem_eq hops) hsolution
  rw [Operators.ess_eq hops] at hzero
  exact ⟨phi, hphi, nonpos_of_potential h hops hess hw hsolution, hzero⟩

/-- A vortex in the unit square. -/
theorem potential_nonpos_square : ∃ phi,
    (square.potential ⟨ramp, ramp, vortex⟩).run (.fresh square) = .ok phi (.fresh square) ∧ (∀ i, phi.get i ≤ 0) ∧
      ∀ i ∈ square.ess, phi.get i = 0 := by
  have hvortex : ∀ i ∉ Essential.boundary Mesh.unitSquare, 0 ≤ vortex.get i := by
    intro i _
    show 0 ≤ vortex.values i
    unfold vortex
    rw [Vec.values_ofFn]
    split_ifs
    · exact le_rfl
    · exact zero_le_one
  have hops : square.toOperators = .ofMesh Mesh.unitSquare (.boundary _) 1 1 := rfl
  obtain ⟨-, -, hsign⟩ := potential_nonpos Mesh.unitSquare_proper hops
  exact hsign (Essential.boundary_nonempty _) square_exactSolves.stiffness (.fresh square) ⟨ramp, ramp, vortex⟩ rfl rfl
    hvortex

end Model

end Magnetofluid
