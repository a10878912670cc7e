import Mathlib
import Magnetofluid.Proofs.Model.Direct

/-!
# Newton's method for the step

What Newton's method keeps of a state on the way to the end of a step.  The linearisation has rows of the identity for
essential entries and states the constraint as it is, so that no step of the method, damped or not, moves an essential
entry or leaves the constraint.

* `Step.gradient_mulVec_of_mem`, `Step.gradient_mulVec_potential`: these rows of the linearisation.
* `Model.implicitRate_ok`: the state at the end of a step agrees on the essential nodes with that at its start and
  obeys the constraint, whatever residual the iteration ended with.
-/

namespace Magnetofluid

variable {n : ℕ}

/-! ### Entries of blocks -/

namespace State

/-- The entries of a vector of blocks are those of its blocks. -/
theorem get_stack_place {α : Type} (x : State α n) (b : Block) (i : Fin n) :
    (Vec.stack x.phi x.psi x.w).get (place b i) = (x.block b).get i := by
  have h := State.ofVec_toVec x
  cases b with
  | potential =>
    rw [show x.block .potential = (ofVec x.toVec).phi by rw [h]; rfl]
    simp [ofVec, toVec]
  | flux =>
    rw [show x.block .flux = (ofVec x.toVec).psi by rw [h]; rfl]
    simp [ofVec, toVec]
  | vorticity =>
    rw [show x.block .vorticity = (ofVec x.toVec).w by rw [h]; rfl]
    simp [ofVec, toVec]

theorem values_toVec (x : State ℝ n) (b : Block) (i : Fin n) : x.toVec.values (place b i) = (x.block b).values i :=
  get_stack_place x b i

theorem values_place (v : Vec ℝ (3 * n)) (b : Block) (i : Fin n) :
    v.values (place b i) = ((ofVec v).block b).values i := by
  rw [← values_toVec, toVec_ofVec]

theorem values_ofVec_subScaled (v : Vec ℝ (3 * n)) (c : ℝ) (step : Vec ℝ (3 * n)) (b : Block) :
    ((ofVec (Vec.subScaled v c step)).block b).values =
      ((ofVec v).block b).values - c • ((ofVec step).block b).values := by
  funext i
  rw [← values_place, Vec.values_subScaled, Pi.sub_apply, Pi.smul_apply, values_place, values_place]
  rfl

end State

namespace Step

theorem place_mem_essential {ess : Essential n} {b : Block} {i : Fin n} :
    State.place b i ∈ essential ess ↔ i ∈ ess := by
  have h := State.get_stack_place (⟨ess.marked, ess.marked, ess.marked⟩ : State Bool n) b i
  show (Vec.stack ess.marked ess.marked ess.marked).get (State.place b i) = true ↔ ess.marked.get i = true
  rw [h]
  cases b <;> rfl

theorem dot_rowIn (b : Block) (row : SparseRow ℝ n) (v : Vec ℝ (3 * n)) :
    (rowIn b row).dot v = row.dot ((State.ofVec v).block b) := by
  unfold rowIn SparseRow.dot
  rw [List.foldl_map]
  congr 1
  funext s p
  obtain ⟨c, a⟩ := p
  exact congrArg (s + a * ·) (State.values_place v b c)

section BlockMatrix

variable (potential coupling flux vorticity : Sparse ℝ n n) (v : Vec ℝ (3 * n)) (i : Fin n)

theorem get_rows_blockMatrix (b : Block) :
    (blockMatrix potential coupling flux vorticity).rows.get (State.place b i) =
      match b with
      | .potential => rowIn .potential (potential.rows.get i) ++ rowIn .vorticity (coupling.rows.get i)
      | .flux => rowIn .flux (flux.rows.get i)
      | .vorticity => rowIn .vorticity (vorticity.rows.get i) := by
  refine (State.get_stack_place ⟨_, _, _⟩ b i).trans ?_
  cases b <;> simp [State.block]

theorem blockMatrix_mulVec_potential :
    ((blockMatrix potential coupling flux vorticity).mulVec v).values (State.place .potential i) =
      (potential.mulVec (State.ofVec v).phi + coupling.mulVec (State.ofVec v).w).values i := by
  refine (Sparse.get_mulVec _ v _).trans ?_
  rw [get_rows_blockMatrix, SparseRow.dot_append, dot_rowIn, dot_rowIn, Vec.values_add, Pi.add_apply]
  exact congrArg₂ (· + ·) (Sparse.get_mulVec _ _ i).symm (Sparse.get_mulVec _ _ i).symm

theorem blockMatrix_mulVec_flux :
    ((blockMatrix potential coupling flux vorticity).mulVec v).values (State.place .flux i) =
      (flux.mulVec (State.ofVec v).psi).values i := by
  refine (Sparse.get_mulVec _ v _).trans ?_
  rw [get_rows_blockMatrix, dot_rowIn]
  exact (Sparse.get_mulVec _ _ i).symm

theorem blockMatrix_mulVec_vorticity :
    ((blockMatrix potential coupling flux vorticity).mulVec v).values (State.place .vorticity i) =
      (vorticity.mulVec (State.ofVec v).w).values i := by
  refine (Sparse.get_mulVec _ v _).trans ?_
  rw [get_rows_blockMatrix, dot_rowIn]
  exact (Sparse.get_mulVec _ _ i).symm

end BlockMatrix

section Gradient

variable (s : Step ℝ n) (ops : Operators ℝ n) (flow : Sparse ℝ n n) (v : Vec ℝ (3 * n)) {i : Fin n}

theorem gradient_mulVec_of_mem (b : Block) (hi : i ∈ ops.ess) :
    ((s.gradient ops flow).mulVec v).values (State.place b i) = v.values (State.place b i) := by
  unfold gradient
  rw [Sparse.replaceRows_mulVec_of_mem _ _ _ _ (place_mem_essential.2 hi), one_mul]

theorem gradient_mulVec_potential (hi : i ∉ ops.ess) :
    ((s.gradient ops flow).mulVec v).values (State.place .potential i) =
      (ops.stiffnessSystem.mulVec (State.ofVec v).phi + ops.massSystem.mulVec (State.ofVec v).w).values i := by
  unfold gradient
  rw [Sparse.replaceRows_mulVec_of_not_mem _ _ _ _ (mt place_mem_essential.1 hi), blockMatrix_mulVec_potential]

end Gradient

end Step

namespace Model

variable {model : Model ℝ n} {mem mem' : Memory ℝ n}

theorem gradient_ok {x : State ℝ n} {J : Sparse ℝ (3 * n) (3 * n)} (h : (model.gradient x).run mem = .ok J mem') :
    ∃ step : Step ℝ n, J = step.gradient model.toOperators (model.bracket x.phi) ∧ mem'.current = mem.current := by
  unfold gradient at h
  obtain ⟨⟨step, boundary⟩, u, hready, hrest⟩ := run_bind_eq_ok.1 h
  obtain ⟨-, -, rfl⟩ := readyStep_eq_ok.1 hready
  simp only [run_modify_bind, Number.usable_real] at hrest
  obtain ⟨rfl, rfl⟩ := run_pure_eq_ok.1 hrest
  exact ⟨step, rfl, rfl⟩

/-- A vector of blocks agrees with a state on the essential nodes and obeys the constraint. -/
structure Holds (model : Model ℝ n) (x : State ℝ n) (v : Vec ℝ (3 * n)) : Prop where
  essential : ∀ b, ∀ i ∈ model.ess, v.values (State.place b i) = (x.block b).values i
  constraint : model.Constrained (State.ofVec v)

theorem residual_zeroOn (s : Step ℝ n) (ops : Operators ℝ n) (forcing : Option (Vec ℝ n)) (flow field : Sparse ℝ n n)
    (j : Vec ℝ n) (x : State ℝ n) (b : Block) :
    ops.ess.ZeroOn ((s.residual ops forcing flow field j x).block b).values := by
  have hzero : ∀ y : Vec ℝ n, ops.ess.ZeroOn (Vec.zeroOn ops.ess y).values := by
    intro y
    rw [Vec.values_zeroOn]
    exact Essential.zeroOn_inner _ _
  cases b with
  | potential => exact hzero _
  | flux => exact hzero _
  | vorticity => exact hzero _

/-- A step against the residual, of any size, keeps the essential entries and the constraint. -/
theorem Holds.step {x : State ℝ n} {v step : Vec ℝ (3 * n)} (hv : model.Holds x v) {s s' : Step ℝ n}
    {forcing : Option (Vec ℝ n)} {flow field flow' : Sparse ℝ n n} {j : Vec ℝ n}
    (hstep : (s'.gradient model.toOperators flow').mulVec step =
      (s.residual model.toOperators forcing flow field j (State.ofVec v)).toVec) (alpha : ℝ) :
    model.Holds x (Vec.subScaled v alpha step) := by
  have hessential : ∀ b, ∀ i ∈ model.ess, step.values (State.place b i) = 0 := by
    intro b i hi
    rw [← s'.gradient_mulVec_of_mem model.toOperators flow' step b hi, hstep, State.values_toVec]
    exact residual_zeroOn _ _ _ _ _ _ _ b i hi
  have hconstraint : model.Constrained (State.ofVec step) := by
    intro i hi
    rw [← s'.gradient_mulVec_potential model.toOperators flow' step hi, hstep, State.values_toVec]
    show (Vec.zeroOn model.ess _).values i = 0
    rw [Vec.values_zeroOn, Essential.inner_of_not_mem hi]
    exact hv.constraint i hi
  refine ⟨fun b i hi => ?_, fun i hi => ?_⟩
  · rw [Vec.values_subScaled, Pi.sub_apply, Pi.smul_apply, hessential b i hi, smul_zero, sub_zero, hv.essential b i hi]
  · exact hv.constraint.sub_smul hconstraint (State.values_ofVec_subScaled v alpha step .potential)
      (State.values_ofVec_subScaled v alpha step .vorticity) i hi

theorem system_residual_ok {v r : Vec ℝ (3 * n)} (h : (model.system.residual v).run mem = .ok r mem') :
    ∃ y, (model.residual (State.ofVec v)).run mem = .ok y mem' ∧ y.toVec = r := by
  obtain ⟨y, _, hy, hr⟩ := run_bind_eq_ok.1 h
  obtain ⟨rfl, rfl⟩ := run_pure_eq_ok.1 hr
  exact ⟨y, hy, rfl⟩

/-- The state at the end of an implicit step agrees on the essential nodes with that at its start and obeys the
constraint, whatever residual the iteration ended with. -/
theorem implicitRate_ok {dt : Number ℝ} {x k : State ℝ n} (hsolves : model.SoundSolves)
    (hsystem : model.massSystem = model.mass.eliminate model.ess) (hx : model.Constrained x)
    (h : (model.implicitRate dt x).run mem = .ok k mem') :
    0 < dt.toScalar ∧ ∃ y, k = stepRate dt x y ∧ (∀ b, ∀ i ∈ model.ess, (y.block b).values i = (x.block b).values i) ∧
      model.Constrained y ∧ mem'.current = mem.current := by
  obtain ⟨hdt, y, hsolveStep, -, rfl⟩ := implicitRate_eq_ok.1 h
  obtain ⟨st, hsolve, rfl, rfl⟩ := solveStep_eq_ok.1 hsolveStep
  have hstart : model.Holds x x.toVec := by
    refine ⟨fun b i _ => State.values_toVec x b i, ?_⟩
    rw [State.ofVec_toVec]
    exact hx
  have hend : model.Holds x st.x ∧ st.inner.current = mem.current := by
    refine Newton.solve_keeps (P := fun v s => model.Holds x v ∧ s.current = mem.current) hsolves.linear ?_ ?_ ?_
      ⟨hstart, rfl⟩ hsolve
    · intro v s r s' hv hr
      obtain ⟨y, hy, -⟩ := system_residual_ok hr
      obtain ⟨_, _, -, -, -, -, hcurrent, -⟩ := residual_ok hsolves.mass hsystem hy
      exact ⟨hv.1, hcurrent.trans hv.2⟩
    · intro build hbuild v J s C s' hv hC
      obtain rfl := Option.some.inj hbuild
      rw [run_modify_bind] at hC
      obtain ⟨-, rfl⟩ := run_ofExcept_eq_ok.1 hC
      exact hv
    · intro v s r s' J s'' step alpha hv hr hJ hstep _
      obtain ⟨y, hy, rfl⟩ := system_residual_ok hr
      obtain ⟨s₁, boundary, -, -, -, rfl, hcurrent, -⟩ := residual_ok hsolves.mass hsystem hy
      obtain ⟨s₂, rfl, hcurrent'⟩ := gradient_ok hJ
      exact ⟨hv.1.step hstep alpha, hcurrent'.trans (hcurrent.trans hv.2)⟩
  refine ⟨hdt, State.ofVec st.x, rfl, fun b i hi => ?_, hend.1.constraint, hend.2⟩
  rw [← State.values_place]
  exact hend.1.essential b i hi

end Model

end Magnetofluid
