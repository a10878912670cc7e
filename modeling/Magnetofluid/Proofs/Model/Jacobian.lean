import Mathlib
import Magnetofluid.Proofs.Form.Bracket
import Magnetofluid.Proofs.Krylov.Preconditioner
import Magnetofluid.Proofs.Model.Gradient

/-!
# The linearisation of a step is never singular

The linear systems of Newton's method where all nodes of the boundary are essential.

* `Step.diagonalBlock`, `Step.toMatrix_blockOf_gradient`: the diagonal blocks of the linearisation.
* `Form.diagonalBlock_positive`: their forms are positive at fields that vanish on the essential nodes.  Convection does
  not enter them, because the bracket is skew.
* `Step.gradient_injective`: then the linearisation determines its argument.
* `Model.gradient_nonsingular`: so it is at every state of a model, for every size of the step.
-/

namespace Magnetofluid

open Matrix

variable {n : ℕ}

/-! ### Places of a state -/

namespace State

theorem place_injective {b c : Block} {i j : Fin n} (h : place b i = place c j) : b = c ∧ i = j := by
  have hval : b.position * n + i.val = c.position * n + j.val := congrArg Fin.val h
  have hi := i.isLt
  have hj := j.isLt
  cases b <;> cases c <;> simp only [Block.position, reduceCtorEq, false_and, true_and] at hval ⊢ <;> omega

theorem exists_place (k : Fin (3 * n)) : ∃ b i, k = place b i := by
  have hk := k.isLt
  by_cases h1 : k.val < n
  · exact ⟨.potential, ⟨k, h1⟩, Fin.ext (by simp [place, Block.position])⟩
  by_cases h2 : k.val < 2 * n
  · exact ⟨.flux, ⟨k - n, by omega⟩, Fin.ext (by simp [place, Block.position]; omega)⟩
  · exact ⟨.vorticity, ⟨k - 2 * n, by omega⟩, Fin.ext (by simp [place, Block.position]; omega)⟩

end State

/-! ### Blocks of a matrix on states -/

theorem StepPreconditioner.toMatrix_blockOf (J : Sparse ℝ (3 * n) (3 * n)) (target source : Block) :
    (blockOf J target source).toMatrix = J.toMatrix.submatrix (State.place target) (State.place source) := by
  refine Sparse.toMatrix_submatrix J _ fun k j => ?_
  have hj := j.isLt
  constructor
  · intro h
    split at h
    · refine Fin.ext ?_
      have hval : k.val - source.position * n = j.val := congrArg Fin.val (Option.some.inj h)
      simp only [State.place]
      omega
    · cases h
  · rintro rfl
    have hle : source.position * n ≤ (State.place source j).val := Nat.le_add_right _ _
    have hsub : (State.place source j).val - source.position * n = j.val := Nat.add_sub_cancel_left _ _
    rw [dif_pos ⟨hle, by omega⟩]
    exact congrArg some (Fin.ext hsub)

namespace Step

theorem entry_rowIn (b c : Block) (row : SparseRow ℝ n) (j : Fin n) :
    (rowIn b row).entry (State.place c j) = if b = c then row.entry j else 0 := by
  induction row with
  | nil => exact (ite_self _).symm
  | cons p row ih =>
    refine (SparseRow.entry_cons _ _ _).trans ?_
    rw [show SparseRow.entry (List.map _ row) _ = _ from ih, SparseRow.entry_cons]
    by_cases hbc : b = c
    · subst hbc
      have hplace : State.place b p.1 = State.place b j ↔ p.1 = j :=
        ⟨fun h => (State.place_injective h).2, fun h => h ▸ rfl⟩
      simp only [hplace, if_true]
    · have hplace : State.place b p.1 ≠ State.place c j := fun h => hbc (State.place_injective h).1
      simp only [hplace, hbc, if_false, add_zero]

variable (s : Step ℝ n) (ops : Operators ℝ n) (flow : Sparse ℝ n n)

noncomputable def transport (D : Option (Sparse ℝ n n)) : Sparse ℝ n n :=
  let perStep := ops.massSystem.scale (1 / s.dt.toScalar)
  match D with
  | none => perStep + flow
  | some D => perStep + flow + D

/-- The diagonal blocks of the linearisation, before its essential rows are replaced. -/
noncomputable def diagonalBlock : Block → Sparse ℝ n n
  | .potential => ops.stiffnessSystem
  | .flux => s.transport ops flow ops.resistive
  | .vorticity => s.transport ops flow ops.viscous

theorem gradient_eq : s.gradient ops flow =
    (blockMatrix (s.diagonalBlock ops flow .potential) ops.massSystem (s.diagonalBlock ops flow .flux)
      (s.diagonalBlock ops flow .vorticity)).replaceRows (essential ops.ess) 1 := by
  unfold gradient diagonalBlock transport
  cases ops.resistive <;> cases ops.viscous <;> rfl

theorem toMatrix_blockOf_gradient (b : Block) :
    (StepPreconditioner.blockOf (s.gradient ops flow) b b).toMatrix =
      ((s.diagonalBlock ops flow b).replaceRows ops.ess 1).toMatrix := by
  ext i j
  rw [StepPreconditioner.toMatrix_blockOf, Matrix.submatrix_apply, gradient_eq, Sparse.toMatrix_replaceRows,
    Sparse.toMatrix_replaceRows]
  have hplace : State.place b i = State.place b j ↔ i = j :=
    ⟨fun h => (State.place_injective h).2, fun h => h ▸ rfl⟩
  simp only [place_mem_essential, hplace]
  by_cases hi : i ∈ ops.ess
  · rw [if_pos hi, if_pos hi]
  · rw [if_neg hi, if_neg hi, Sparse.toMatrix_apply, get_rows_blockMatrix]
    cases b with
    | potential =>
      rw [SparseRow.entry_append, entry_rowIn, entry_rowIn, if_pos rfl, if_neg (by decide), add_zero]
      rfl
    | flux =>
      rw [entry_rowIn, if_pos rfl]
      rfl
    | vorticity =>
      rw [entry_rowIn, if_pos rfl]
      rfl

/-- The linearisation acts on each block by its diagonal block, but for what the vorticity adds to the constraint. -/
theorem gradient_mulVec_diagonal (v : Vec ℝ (3 * n)) (b : Block)
    (hw : b = .potential → (State.ofVec v).w = Vec.zeros n) (i : Fin n) :
    ((s.gradient ops flow).mulVec v).values (State.place b i) =
      (((s.diagonalBlock ops flow b).replaceRows ops.ess 1).mulVec ((State.ofVec v).block b)).values i := by
  by_cases hi : i ∈ ops.ess
  · rw [gradient_mulVec_of_mem s ops flow v b hi, Sparse.replaceRows_mulVec_of_mem _ _ _ _ hi, one_mul,
      State.values_place]
  · rw [Sparse.replaceRows_mulVec_of_not_mem _ _ _ _ hi]
    cases b with
    | potential =>
      rw [gradient_mulVec_potential s ops flow v hi, hw rfl, Vec.values_add, Sparse.values_mulVec ops.massSystem,
        Vec.values_zeros, Matrix.mulVec_zero, add_zero]
      rfl
    | flux =>
      rw [gradient_eq, Sparse.replaceRows_mulVec_of_not_mem _ _ _ _ (mt place_mem_essential.1 hi),
        blockMatrix_mulVec_flux]
      rfl
    | vorticity =>
      rw [gradient_eq, Sparse.replaceRows_mulVec_of_not_mem _ _ _ _ (mt place_mem_essential.1 hi),
        blockMatrix_mulVec_vorticity]
      rfl

variable {s ops flow}

/-- Where the diagonal blocks have positive forms, the linearisation determines its argument: first the vorticity and
the flux, then the stream function. -/
theorem gradient_injective (hpos : ∀ b, ops.ess.Positive (s.diagonalBlock ops flow b).toMatrix) :
    Function.Injective ((s.gradient ops flow).toMatrix *ᵥ ·) := by
  refine Sparse.injective_of_mulVec_eq_zero fun v hv => ?_
  have hblock : ∀ b, (b = .potential → (State.ofVec v).w = Vec.zeros n) → ((State.ofVec v).block b).values = 0 := by
    intro b hw
    refine (hpos b).replaceRows_injective one_ne_zero (funext fun i => ?_)
    show (_ *ᵥ _) i = (_ *ᵥ _) i
    rw [← Sparse.values_mulVec, ← gradient_mulVec_diagonal s ops flow v b hw i, hv, Matrix.mulVec_zero]
    rfl
  have hw : (State.ofVec v).w = Vec.zeros n :=
    Vec.values_injective ((hblock .vorticity nofun).trans Vec.values_zeros.symm)
  funext k
  obtain ⟨b, i, rfl⟩ := State.exists_place k
  rw [State.values_place, hblock b fun _ => hw]
  rfl

theorem gradient_diagonal_pos (hpos : ∀ b, ops.ess.Positive (s.diagonalBlock ops flow b).toMatrix)
    (k : Fin (3 * n)) : 0 < (s.gradient ops flow).entry k k := by
  obtain ⟨b, i, rfl⟩ := State.exists_place k
  have hblock := (hpos b).replaceRows_diagonal_pos one_pos i
  rwa [← toMatrix_blockOf_gradient, StepPreconditioner.toMatrix_blockOf] at hblock

end Step

/-! ### The linearisation on a mesh -/

namespace Form

variable {m : Mesh ℝ} {ess : Essential m.nodes} {viscosity resistivity : ℝ} {s : Step ℝ m.nodes}

theorem transport_form (h : m.Proper) (flow : Sparse ℝ m.nodes m.nodes) (c : ℝ) (z : Fin m.nodes → ℝ) :
    z ⬝ᵥ (s.transport (.ofMesh m ess viscosity resistivity) flow (Operators.diffusion? m c)).toMatrix *ᵥ z =
      1 / s.dt.toScalar * (z ⬝ᵥ ((mass m).eliminate ess).toMatrix *ᵥ z) + z ⬝ᵥ flow.toMatrix *ᵥ z +
        c * (z ⬝ᵥ (diffusion m 1).toMatrix *ᵥ z) := by
  unfold Step.transport Operators.diffusion?
  by_cases hc : c = 0
  · simp [hc, Operators.ofMesh, Matrix.add_mulVec, Matrix.smul_mulVec]
  · simp [hc, Operators.ofMesh, Matrix.add_mulVec, Matrix.smul_mulVec, diffusion_mulVec h c]

/-- Convection along the level lines of any field leaves the forms of mass and diffusion alone, inside walls. -/
theorem transport_positive (h : m.Proper) (hess : ∀ k, m.OnBoundary k → k ∈ ess) (hdt : 0 < s.dt.toScalar) {c : ℝ}
    (hc : 0 ≤ c) (u : Vec ℝ m.nodes) :
    ess.Positive (s.transport (.ofMesh m ess viscosity resistivity) (bracket m u)
      (Operators.diffusion? m c)).toMatrix := by
  refine (mass_positive h ess).eliminate.mono (one_div_pos.2 hdt) fun z hz => ?_
  have hconvection : z ⬝ᵥ (bracket m u).toMatrix *ᵥ z = 0 :=
    self_eq_neg.1 (bracket_skew h u (fun k hk => hz k (hess k hk)) z)
  rw [transport_form h, hconvection, add_zero]
  exact le_add_of_nonneg_right (mul_nonneg hc (stiffness_nonneg h z))

theorem diagonalBlock_positive (h : m.Proper) (hess : ∀ k, m.OnBoundary k → k ∈ ess) (hviscosity : 0 ≤ viscosity)
    (hresistivity : 0 ≤ resistivity) (hdt : 0 < s.dt.toScalar) (u : Vec ℝ m.nodes) (b : Block) :
    ess.Positive (s.diagonalBlock (.ofMesh m ess viscosity resistivity) (bracket m u) b).toMatrix := by
  cases b with
  | potential =>
    have hcorner := hess _ (m.node_zero_row_onBoundary 0)
    exact (stiffness_positive h ⟨_, hcorner⟩).eliminate
  | flux => exact transport_positive h hess hdt hresistivity u
  | vorticity => exact transport_positive h hess hdt hviscosity u

end Form

namespace Model

theorem exists_gradient {model : Model ℝ n} {mem : Memory ℝ n} {step : Step ℝ n} {boundary : Vec ℝ n}
    (hstep : mem.step.step = some step) (hboundary : mem.prescribed = some boundary) (x : State ℝ n) :
    ∃ mem', (model.gradient x).run mem = .ok (step.gradient model.toOperators (model.bracket x.phi)) mem' := by
  refine ⟨{ mem with step.flow := some (model.bracket x.phi) }, ?_⟩
  unfold gradient
  refine run_bind_eq_ok.2 ⟨(step, boundary), mem, readyStep_eq_ok.2 ⟨hstep, hboundary, rfl⟩, ?_⟩
  simp only [run_modify_bind, Number.usable_real]
  rfl

variable {m : Mesh ℝ} {ess : Essential m.nodes} {viscosity resistivity : ℝ} {model : Model ℝ m.nodes}
  {mem : Memory ℝ m.nodes}

/-- **The linearisation of a step is never singular inside walls.**  If all nodes of the boundary are essential, the
linearisation at any state can be inverted, as can each of its diagonal blocks, and its diagonal is positive; so
division by the diagonal can always be set up as its preconditioner. -/
theorem gradient_nonsingular (h : m.Proper) (hess : ∀ k, m.OnBoundary k → k ∈ ess) (hviscosity : 0 ≤ viscosity)
    (hresistivity : 0 ≤ resistivity) (hops : model.toOperators = .ofMesh m ess viscosity resistivity)
    {step : Step ℝ m.nodes} (hstep : mem.step.step = some step) (hdt : 0 < step.dt.toScalar)
    {boundary : Vec ℝ m.nodes} (hboundary : mem.prescribed = some boundary) (x : State ℝ m.nodes) :
    ∃ J mem', (model.gradient x).run mem = .ok J mem' ∧ IsUnit J.toMatrix ∧
      (∀ b, IsUnit (StepPreconditioner.blockOf J b b).toMatrix) ∧ (∀ k, 0 < J.entry k k) ∧
      StepPreconditioner.jacobi.build J = .ok (.jacobi (.ofFn fun k => 1 / J.entry k k)) := by
  obtain ⟨mem', hJ⟩ := exists_gradient hstep hboundary x
  rw [hops] at hJ
  let ops : Operators ℝ m.nodes := .ofMesh m ess viscosity resistivity
  have hpos : ∀ b, ops.ess.Positive (step.diagonalBlock ops (Form.bracket m x.phi) b).toMatrix :=
    Form.diagonalBlock_positive h hess hviscosity hresistivity hdt x.phi
  have hinjective := Step.gradient_injective hpos
  have hdiagonal := Step.gradient_diagonal_pos hpos
  refine ⟨_, mem', hJ, mulVec_injective_iff_isUnit.1 hinjective, fun b => ?_, hdiagonal,
    Krylov.Preconditioner.build_jacobi fun k => (hdiagonal k).ne'⟩
  rw [Step.toMatrix_blockOf_gradient]
  exact (hpos b).isUnit_replaceRows one_ne_zero

/-- The memory of a model that is to take a step of size one from rest. -/
noncomputable def stepping : Memory ℝ Mesh.unitSquare.nodes :=
  { Memory.fresh square with step := { StepMemory.fresh .model with step := some ⟨.int 1, State.zeros _⟩ } }

theorem gradient_nonsingular_square :
    ∃ J mem', (square.gradient ⟨vortex, ramp, ramp⟩).run stepping = .ok J mem' ∧ IsUnit J.toMatrix ∧
      (∀ b, IsUnit (StepPreconditioner.blockOf J b b).toMatrix) ∧ (∀ k, 0 < J.entry k k) ∧
      StepPreconditioner.jacobi.build J = .ok (.jacobi (.ofFn fun k => 1 / J.entry k k)) := by
  have hess : ∀ k, Mesh.unitSquare.OnBoundary k → k ∈ Essential.boundary Mesh.unitSquare :=
    fun k => (Essential.boundary_isBoundary _ k).2
  have hops : square.toOperators = .ofMesh Mesh.unitSquare (.boundary _) 1 1 := rfl
  have hstep : stepping.step.step = some ⟨.int 1, State.zeros _⟩ := rfl
  have hdt : (0 : ℝ) < (Number.int 1).toScalar := by simp [Number.toScalar]
  exact gradient_nonsingular Mesh.unitSquare_proper hess zero_le_one zero_le_one hops hstep hdt rfl _

end Model

end Magnetofluid
