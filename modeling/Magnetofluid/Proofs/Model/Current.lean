import Mathlib
import Magnetofluid.Proofs.Form.Bracket
import Magnetofluid.Proofs.Form.Jump
import Magnetofluid.Proofs.Model.Direct

/-!
# The current as a jump

The jump operator of a model takes a flux to the jumps of its normal derivative, each of them weighted with half of the
length of the edge.  An affine flux has none, and carries no current where none is prescribed.

* `Operators.rhs_of_jump_eq_zero`, `Operators.recover_of_jump_eq_zero`: a flux without jumps carries no current.
* `Operators.jump_normal_derivative`: the jump operator at all nodes, and at affine fluxes.
-/

namespace Magnetofluid

open Matrix

namespace Operators

variable {m : Mesh ℝ} {ess : Essential m.nodes} {viscosity resistivity : ℝ} {ops : Operators ℝ m.nodes}

theorem isCurrent_zeros {psi boundary : Vec ℝ m.nodes} (hpsi : ops.jump.mulVec psi = Vec.zeros m.nodes)
    (hboundary : ∀ i ∈ ops.ess, boundary.get i = 0) : ops.IsCurrent boundary psi (Vec.zeros m.nodes) := by
  have hjump : ops.jump.toMatrix *ᵥ psi.values = 0 := by rw [← Sparse.values_mulVec, hpsi, Vec.values_zeros]
  refine ⟨fun i hi => ?_, fun i _ => ?_⟩
  · rw [Vec.values_zeros]
    exact (hboundary i hi).symm
  · rw [Vec.values_zeros, Matrix.mulVec_zero, hjump]
    exact neg_zero.symm

theorem rhs_of_jump_eq_zero (solve : Krylov.LinearSolve ℝ m.nodes) {psi j : Vec ℝ m.nodes}
    (hpsi : ops.jump.mulVec psi = Vec.zeros m.nodes) (hj : ∀ i ∈ ops.ess, j.get i = 0) :
    CurrentRecovery.rhs ⟨ops.mass, ops.jump, ops.ess, solve⟩ psi j = Vec.zeros m.nodes := by
  rw [← (isCurrent_iff ops solve j psi (Vec.zeros m.nodes)).2 (isCurrent_zeros hpsi hj)]
  refine Vec.values_injective ?_
  rw [Sparse.values_mulVec, Vec.values_zeros, Matrix.mulVec_zero]

theorem recover_of_jump_eq_zero (hops : ops = .ofMesh m ess viscosity resistivity) (h : m.Proper)
    {solve : Krylov.LinearSolve ℝ m.nodes} (hsolve : Krylov.Exact ops.massSystem solve) {psi j : Vec ℝ m.nodes}
    (hpsi : ops.jump.mulVec psi = Vec.zeros m.nodes) (hj : ∀ i ∈ ops.ess, j.get i = 0) (report : Krylov.Report ℝ) :
    ∃ report', (CurrentRecovery.recover ⟨ops.mass, ops.jump, ops.ess, solve⟩ psi j).run report =
      .ok (Vec.zeros m.nodes) report' := by
  rw [massSystem_eq hops] at hsolve
  obtain ⟨y, report', hy, hcurrent⟩ := CurrentRecovery.exists_recover hsolve psi j report
  obtain rfl := hcurrent.unique (mass_definite hops h) (isCurrent_zeros hpsi hj) fun _ _ => rfl
  exact ⟨report', hy⟩

/-- **The jump operator takes a field to the jumps of its normal derivative.**  At each node these are summed over the
edges of two triangles that end there, and half of each edge belongs to the node.  An affine field has no jumps; as a
flux it carries no current where none is prescribed. -/
theorem jump_normal_derivative (hx : 0 < m.lx) (hy : 0 < m.ly) (hops : ops = .ofMesh m ess viscosity resistivity) :
    ops.jump = Form.diffusion m 1 - Form.boundaryFlux m ∧
      (∀ t z, ¬ z.IsDiag → t ∈ m.owners z → ∃! n, m.IsOutward t z n) ∧
      (∀ normal, m.HasNormals normal → ∀ (u : Vec ℝ m.nodes) i, (ops.jump.mulVec u).get i =
        ∑ z ∈ m.shared 2 with i ∈ z,
          m.length z / 2 * ∑ t ∈ m.owners z, ((m.gradient u).get t).dot (normal t z)) ∧
      ∀ psi, m.IsAffine psi → ops.jump.mulVec psi = Vec.zeros m.nodes ∧
        ∀ solve, ∀ j : Vec ℝ m.nodes, (∀ i ∈ ops.ess, j.get i = 0) →
          CurrentRecovery.rhs ⟨ops.mass, ops.jump, ops.ess, solve⟩ psi j = Vec.zeros m.nodes ∧
            (Krylov.Exact ops.massSystem solve → ∀ report, ∃ report',
              (CurrentRecovery.recover ⟨ops.mass, ops.jump, ops.ess, solve⟩ psi j).run report =
                .ok (Vec.zeros m.nodes) report') := by
  have hjump : ops.jump = Form.diffusion m 1 - Form.boundaryFlux m := by
    rw [hops]
    rfl
  refine ⟨hjump, fun t z hz ht => Mesh.existsUnique_isOutward hx hy hz ht, fun normal hnormal u i => ?_,
    fun psi hpsi => ?_⟩
  · rw [hjump]
    exact Form.jump_apply hx hy hnormal u i
  · have hzero : ops.jump.mulVec psi = Vec.zeros m.nodes := by
      rw [hjump]
      exact Form.jump_affine hx hy hpsi
    exact ⟨hzero, fun solve j hj => ⟨rhs_of_jump_eq_zero solve hzero hj, fun hsolve report =>
      recover_of_jump_eq_zero hops (Mesh.proper_of_pos hx hy) hsolve hzero hj report⟩⟩

end Operators

theorem Form.incline_isAffine : Mesh.unitSquare.IsAffine Form.incline := by
  refine ⟨0, 1, 0, fun k => ?_⟩
  simp [Form.incline]

namespace Operators

theorem jump_normal_derivative_incline :
    (∃ normal, Mesh.unitSquare.HasNormals normal ∧
        (Model.square.jump.mulVec Form.hill).get (Mesh.unitSquare.node 1 1) =
          ∑ z ∈ Mesh.unitSquare.shared 2 with Mesh.unitSquare.node 1 1 ∈ z, Mesh.unitSquare.length z / 2 *
            ∑ t ∈ Mesh.unitSquare.owners z, ((Mesh.unitSquare.gradient Form.hill).get t).dot (normal t z)) ∧
      Model.square.jump.mulVec Form.incline = Vec.zeros _ ∧
      ∃ report, (Model.square.recovery.recover Form.incline (Vec.zeros _)).run .fresh = .ok (Vec.zeros _) report := by
  have hx : 0 < Mesh.unitSquare.lx := by simp [Mesh.unitSquare]
  have hy : 0 < Mesh.unitSquare.ly := by simp [Mesh.unitSquare]
  have hops : Model.square.toOperators = .ofMesh Mesh.unitSquare (.boundary _) 1 1 := rfl
  obtain ⟨-, -, hjump, haffine⟩ := jump_normal_derivative hx hy hops
  obtain ⟨normal, hnormal⟩ := Mesh.exists_hasNormals hx hy
  obtain ⟨hzero, hcurrent⟩ := haffine _ Form.incline_isAffine
  refine ⟨⟨normal, hnormal, hjump normal hnormal Form.hill _⟩, hzero, ?_⟩
  exact (hcurrent _ _ fun i _ => congrFun Vec.values_zeros i).2 Model.square_exactSolves.mass .fresh

end Operators

end Magnetofluid
