import Mathlib
import Magnetofluid.Proofs.Linear.Factorization
import Magnetofluid.Proofs.Model.Remainder

/-!
# The block triangular preconditioner is the inverse

The linearisation couples its blocks in one place only, from the vorticity to the constraint, also after its essential
rows are replaced.  So backward substitution through exact factors of its diagonal blocks undoes it.

* `StepPreconditioner.block_mulVec`: a product, block by block.
* `StepPreconditioner.Triangular.apply_mulVec`, `StepPreconditioner.exists_build_block_iff`: the preconditioner of a
  matrix that is coupled in that place only.
* `Step.triangular_gradient`, `Step.sorted_gradient`: the linearisation is such a matrix.
* `Model.block_inverse`: so its preconditioner undoes it, on both sides.
-/

namespace Magnetofluid

open Matrix

variable {n : ℕ}

instance : Fintype Block where
  elems := {.potential, .flux, .vorticity}
  complete b := by cases b <;> decide

theorem Block.sum_eq {M : Type} [AddCommMonoid M] (f : Block → M) :
    ∑ b, f b = f .potential + f .flux + f .vorticity := by
  show ∑ b ∈ {.potential, .flux, .vorticity}, f b = _
  rw [Finset.sum_insert (by decide), Finset.sum_insert (by decide), Finset.sum_singleton, add_assoc]

/-- A sum over the entries of all blocks. -/
theorem State.sum_place (f : Fin (3 * n) → ℝ) : ∑ k, f k = ∑ b, ∑ i, f (place b i) := by
  have hbijective : Function.Bijective fun p : Block × Fin n => place p.1 p.2 := by
    refine ⟨fun p q h => Prod.ext_iff.2 (place_injective h), fun k => ?_⟩
    obtain ⟨b, i, rfl⟩ := exists_place k
    exact ⟨(b, i), rfl⟩
  rw [← hbijective.sum_comp, Fintype.sum_prod_type]

namespace StepPreconditioner

variable (J : Sparse ℝ (3 * n) (3 * n)) (v : Vec ℝ (3 * n))

/-- Each block of a product takes up all blocks of the argument. -/
theorem block_mulVec (b : Block) :
    ((State.ofVec (J.mulVec v)).block b).values =
      ∑ c, (blockOf J b c).toMatrix *ᵥ ((State.ofVec v).block c).values := by
  funext i
  rw [← State.values_place, Sparse.values_mulVec, mulVec_apply_eq_sum, State.sum_place, Finset.sum_apply]
  refine Finset.sum_congr rfl fun c _ => ?_
  rw [toMatrix_blockOf, mulVec_apply_eq_sum]
  exact Finset.sum_congr rfl fun j _ => congrArg (J.toMatrix _ _ * ·) (State.values_place v c j)

/-- No block is coupled to another one, but the constraint to the vorticity. -/
def Triangular (J : Sparse ℝ (3 * n) (3 * n)) : Prop :=
  ∀ b c, b ≠ c → (b, c) ≠ (.potential, .vorticity) → (blockOf J b c).toMatrix = 0

theorem sorted_blockOf {J : Sparse ℝ (3 * n) (3 * n)} (h : J.Sorted) (target source : Block) :
    (blockOf J target source).Sorted := by
  refine h.submatrix _ fun k k' j j' hj hj' hlt => ?_
  split at hj
  · split at hj'
    · obtain rfl := Option.some.inj hj
      obtain rfl := Option.some.inj hj'
      simp only [Fin.lt_def] at hlt ⊢
      omega
    · cases hj'
  · cases hj

theorem blockTriangular_eq_ok {J : Sparse ℝ (3 * n) (3 * n)} {P : Krylov.Preconditioner ℝ (3 * n)} :
    blockTriangular J = .ok P ↔ ∃ potential flux vorticity,
      Factorization.ofMatrix? (blockOf J .potential .potential) = some potential ∧
      Factorization.ofMatrix? (blockOf J .flux .flux) = some flux ∧
      Factorization.ofMatrix? (blockOf J .vorticity .vorticity) = some vorticity ∧
      P = .map fun r =>
        (substitute potential flux vorticity (blockOf J .potential .vorticity) (State.ofVec r)).toVec := by
  have hfactors : ∀ (f? : Option (Factorization ℝ n)) (f : Factorization ℝ n),
      (f?.elim (.error .singular) .ok : Except (Failure ℝ) _) = .ok f ↔ f? = some f := by
    intro f? f
    cases f? with
    | none => simp
    | some g => simp
  unfold blockTriangular
  simp only [except_bind_eq_ok, hfactors]
  constructor
  · rintro ⟨potential, hpotential, flux, hflux, vorticity, hvorticity, hP⟩
    exact ⟨potential, flux, vorticity, hpotential, hflux, hvorticity, (Except.ok.inj hP).symm⟩
  · rintro ⟨potential, flux, vorticity, hpotential, hflux, hvorticity, rfl⟩
    exact ⟨potential, hpotential, flux, hflux, vorticity, hvorticity, rfl⟩

namespace Triangular

variable {J} {P : Krylov.Preconditioner ℝ (3 * n)}

/-- Flux and vorticity meet their own blocks only. -/
theorem block_mulVec_diagonal (h : Triangular J) {b : Block} (hb : b ≠ .potential) :
    (State.ofVec (J.mulVec v)).block b = (blockOf J b b).mulVec ((State.ofVec v).block b) := by
  have hzero : ∀ c ∈ Finset.univ, c ≠ b → (blockOf J b c).toMatrix *ᵥ ((State.ofVec v).block c).values = 0 := by
    intro c _ hc
    rw [h b c hc.symm fun hcoupling => hb (congrArg Prod.fst hcoupling), zero_mulVec]
  refine Vec.values_injective ((block_mulVec J v b).trans ?_)
  rw [Finset.sum_eq_single b hzero fun hb => absurd (Finset.mem_univ b) hb, Sparse.values_mulVec]

theorem potential_mulVec (h : Triangular J) :
    (State.ofVec (J.mulVec v)).phi = (blockOf J .potential .potential).mulVec (State.ofVec v).phi +
      (blockOf J .potential .vorticity).mulVec (State.ofVec v).w := by
  refine Vec.values_injective ((block_mulVec J v .potential).trans ?_)
  rw [Block.sum_eq, h .potential .flux (by decide) (by decide), zero_mulVec, add_zero, Vec.values_add,
    Sparse.values_mulVec, Sparse.values_mulVec]
  rfl

/-- Vorticity and flux come first; the stream function then loses what the vorticity adds to the constraint. -/
theorem apply_mulVec (h : Triangular J) (hsorted : J.Sorted) (hP : block.build J = .ok P) (v : Vec ℝ (3 * n)) :
    P.apply (J.mulVec v) = v := by
  obtain ⟨potential, flux, vorticity, hpotential, hflux, hvorticity, rfl⟩ := blockTriangular_eq_ok.1 hP
  have hdiagonal : ∀ b f, b ≠ .potential → Factorization.ofMatrix? (blockOf J b b) = some f →
      f.solve ((State.ofVec (J.mulVec v)).block b) = (State.ofVec v).block b := by
    intro b f hb hf
    rw [h.block_mulVec_diagonal v hb, Factorization.solve_mulVec (sorted_blockOf hsorted b b) hf]
  have hw : vorticity.solve (State.ofVec (J.mulVec v)).w = (State.ofVec v).w :=
    hdiagonal .vorticity vorticity (by decide) hvorticity
  have hpsi : flux.solve (State.ofVec (J.mulVec v)).psi = (State.ofVec v).psi :=
    hdiagonal .flux flux (by decide) hflux
  have hphi : potential.solve ((State.ofVec (J.mulVec v)).phi -
      (blockOf J .potential .vorticity).mulVec (State.ofVec v).w) = (State.ofVec v).phi := by
    have hload : (State.ofVec (J.mulVec v)).phi - (blockOf J .potential .vorticity).mulVec (State.ofVec v).w =
        (blockOf J .potential .potential).mulVec (State.ofVec v).phi := by
      refine Vec.values_injective ?_
      rw [h.potential_mulVec, Vec.values_sub, Vec.values_add, add_sub_cancel_right]
    rw [hload, Factorization.solve_mulVec (sorted_blockOf hsorted _ _) hpotential]
  unfold Krylov.Preconditioner.apply substitute
  dsimp only
  rw [hw, hpsi, hphi]
  exact State.toVec_ofVec v

theorem mulVec_apply (h : Triangular J) (hsorted : J.Sorted) (hP : block.build J = .ok P) (v : Vec ℝ (3 * n)) :
    J.mulVec (P.apply v) = v :=
  (Sparse.mulVec_of_leftInverse (h.apply_mulVec hsorted hP)).2 v

end Triangular

/-- The preconditioner can be set up exactly when no diagonal block is singular. -/
theorem exists_build_block_iff {J : Sparse ℝ (3 * n) (3 * n)} (hsorted : J.Sorted) :
    (∃ P, block.build J = .ok P) ↔ ∀ b, IsUnit (blockOf J b b).toMatrix := by
  have hfactors : ∀ b, (∃ f, Factorization.ofMatrix? (blockOf J b b) = some f) ↔ IsUnit (blockOf J b b).toMatrix :=
    fun b => Factorization.exists_ofMatrix?_iff (sorted_blockOf hsorted b b)
  constructor
  · rintro ⟨P, hP⟩ b
    obtain ⟨potential, flux, vorticity, hpotential, hflux, hvorticity, -⟩ := blockTriangular_eq_ok.1 hP
    refine (hfactors b).1 ?_
    cases b with
    | potential => exact ⟨potential, hpotential⟩
    | flux => exact ⟨flux, hflux⟩
    | vorticity => exact ⟨vorticity, hvorticity⟩
  · intro hunit
    obtain ⟨potential, hpotential⟩ := (hfactors .potential).2 (hunit .potential)
    obtain ⟨flux, hflux⟩ := (hfactors .flux).2 (hunit .flux)
    obtain ⟨vorticity, hvorticity⟩ := (hfactors .vorticity).2 (hunit .vorticity)
    exact ⟨_, blockTriangular_eq_ok.2 ⟨potential, flux, vorticity, hpotential, hflux, hvorticity, rfl⟩⟩

end StepPreconditioner

/-! ### The linearisation -/

namespace Step

variable (s : Step ℝ n) (ops : Operators ℝ n) (flow : Sparse ℝ n n)

/-- The rows that replace the essential ones meet their own block only, as all others do but those of the constraint. -/
theorem triangular_gradient : StepPreconditioner.Triangular (s.gradient ops flow) := by
  intro b c hne hcoupling
  ext i j
  have hplace : State.place b i ≠ State.place c j := fun h => hne (State.place_injective h).1
  rw [StepPreconditioner.toMatrix_blockOf, submatrix_apply, gradient_eq, Sparse.toMatrix_replaceRows, if_neg hplace,
    Sparse.toMatrix_apply, get_rows_blockMatrix]
  refine (congrArg (ite _ 0) ?_).trans (ite_self 0)
  cases b with
  | potential =>
    have hvorticity : Block.vorticity ≠ c := fun h => hcoupling (h ▸ rfl)
    rw [SparseRow.entry_append, entry_rowIn, entry_rowIn, if_neg hne, if_neg hvorticity, add_zero]
  | flux => rw [entry_rowIn, if_neg hne]
  | vorticity => rw [entry_rowIn, if_neg hne]

theorem sorted_rowIn (b : Block) {row : SparseRow ℝ n} (h : row.Sorted) : (rowIn b row).Sorted :=
  List.pairwise_map.2 (List.Pairwise.imp (fun hlt => Nat.add_lt_add_left hlt _) h)

theorem sorted_gradient (hmass : ops.massSystem.Sorted) (hstiffness : ops.stiffnessSystem.Sorted) :
    (s.gradient ops flow).Sorted := by
  have hdiagonal : ∀ b, (s.diagonalBlock ops flow b).Sorted := by
    have htransport : ∀ D, (s.transport ops flow D).Sorted := by
      intro D
      cases D with
      | none => exact (hmass.scale _).add _
      | some D => exact ((hmass.scale _).add _).add _
    intro b
    cases b with
    | potential => exact hstiffness
    | flux => exact htransport _
    | vorticity => exact htransport _
  rw [gradient_eq]
  refine Sparse.Sorted.replaceRows (fun k => ?_) _ _
  obtain ⟨b, i, rfl⟩ := State.exists_place k
  rw [get_rows_blockMatrix]
  cases b with
  | potential =>
    refine List.pairwise_append.2
      ⟨sorted_rowIn .potential (hdiagonal .potential i), sorted_rowIn .vorticity (hmass i), ?_⟩
    intro p hp q hq
    obtain ⟨p, -, rfl⟩ := List.mem_map.1 hp
    obtain ⟨q, -, rfl⟩ := List.mem_map.1 hq
    have hp := p.1.isLt
    simp only [State.place, Block.position, Fin.lt_def]
    omega
  | flux => exact sorted_rowIn .flux (hdiagonal .flux i)
  | vorticity => exact sorted_rowIn .vorticity (hdiagonal .vorticity i)

end Step

namespace Model

variable {m : Mesh ℝ} {ess : Essential m.nodes} {viscosity resistivity : ℝ} {model : Model ℝ m.nodes}
  {mem : Memory ℝ m.nodes}

/-- **The block triangular preconditioner is the inverse of the linearisation.**  At every state and for every set of
essential nodes the linearisation couples its blocks from the vorticity to the constraint only, and its essential rows
are rows of the identity.  Its preconditioner can be set up exactly when no diagonal block is singular, and then undoes
it on both sides. -/
theorem block_inverse (hops : model.toOperators = .ofMesh m ess viscosity resistivity) {step : Step ℝ m.nodes}
    (hstep : mem.step.step = some step) {boundary : Vec ℝ m.nodes} (hboundary : mem.prescribed = some boundary)
    (x : State ℝ m.nodes) :
    ∃ J mem', (model.gradient x).run mem = .ok J mem' ∧
      (∀ b c, b ≠ c → (b, c) ≠ (.potential, .vorticity) → (StepPreconditioner.blockOf J b c).toMatrix = 0) ∧
      (∀ b, ∀ i ∈ ess, ∀ k, J.entry (State.place b i) k = if State.place b i = k then 1 else 0) ∧
      ((∃ P, StepPreconditioner.block.build J = .ok P) ↔
        ∀ b, IsUnit (StepPreconditioner.blockOf J b b).toMatrix) ∧
      ∀ P, StepPreconditioner.block.build J = .ok P → ∀ v, P.apply (J.mulVec v) = v ∧ J.mulVec (P.apply v) = v := by
  obtain ⟨mem', hJ⟩ := exists_gradient hstep hboundary x
  rw [hops] at hJ
  let ops : Operators ℝ m.nodes := .ofMesh m ess viscosity resistivity
  have htriangular := step.triangular_gradient ops (ops.bracket x.phi)
  have hmass : ops.massSystem.Sorted := (Sparse.sorted_ofTriplets _).eliminate ess
  have hstiffness : ops.stiffnessSystem.Sorted := (Sparse.sorted_ofTriplets _).eliminate ess
  have hsorted := step.sorted_gradient ops (ops.bracket x.phi) hmass hstiffness
  exact ⟨_, mem', hJ, htriangular, fun b i hi k => step.entry_gradient_of_mem _ _ b hi k,
    StepPreconditioner.exists_build_block_iff hsorted,
    fun P hP v => ⟨htriangular.apply_mulVec hsorted hP v, htriangular.mulVec_apply hsorted hP v⟩⟩

theorem block_inverse_square :
    ∃ J mem' P, (square.gradient ⟨vortex, ramp, ramp⟩).run stepping = .ok J mem' ∧
      StepPreconditioner.block.build J = .ok P ∧ ∀ v, P.apply (J.mulVec v) = v ∧ J.mulVec (P.apply v) = v := by
  have hops : square.toOperators = .ofMesh Mesh.unitSquare (.boundary _) 1 1 := rfl
  have hstep : stepping.step.step = some ⟨.int 1, State.zeros _⟩ := rfl
  obtain ⟨J, mem', hJ, -, -, hbuild, hinverse⟩ := block_inverse hops hstep rfl ⟨vortex, ramp, ramp⟩
  have hunit : ∀ b, IsUnit (StepPreconditioner.blockOf J b b).toMatrix := by
    obtain ⟨u, hu⟩ := @exists_gradient _ square _ _ _ hstep rfl ⟨vortex, ramp, ramp⟩
    obtain ⟨rfl, -⟩ := EStateM.Result.ok.inj (hJ.symm.trans hu)
    have hess : ∀ k, Mesh.unitSquare.OnBoundary k → k ∈ Essential.boundary Mesh.unitSquare :=
      fun k => (Essential.boundary_isBoundary _ k).2
    have hdt : (0 : ℝ) < (Number.int 1).toScalar := by simp [Number.toScalar]
    intro b
    rw [Step.toMatrix_blockOf_gradient]
    exact (Form.diagonalBlock_positive Mesh.unitSquare_proper hess zero_le_one zero_le_one hdt vortex
      b).isUnit_replaceRows one_ne_zero
  obtain ⟨P, hP⟩ := hbuild.2 hunit
  exact ⟨J, mem', P, hJ, hP, hinverse P hP⟩

end Model

end Magnetofluid
