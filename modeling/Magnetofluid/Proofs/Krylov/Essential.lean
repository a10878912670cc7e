import Mathlib
import Magnetofluid.Proofs.Krylov.Tolerance
import Magnetofluid.Proofs.Linear.Elimination

/-!
# Conjugate gradients and essential data

An eliminated system says of an essential position that the solution has the value of the right-hand side there.  An
iterate that has these values keeps them: residual and search direction vanish on the essential positions and stay so,
whatever the step lengths, and so it does not matter where the iteration stops.

* `ConjugateGradient.fixed_step`, `ConjugateGradient.iterate_fixed`: one round, and all rounds with every way to end.
* `Preconditioner.keepsZeroOn_of_build`: the preconditioners that treat each entry by itself.
* `Session.solve_fixed`: a solve of a session, for all settings of tolerances and limit.
-/

namespace Magnetofluid.Krylov

variable {n : ℕ}

/-- A map of vectors takes those that vanish on the essential positions to such vectors. -/
def KeepsZeroOn (ess : Essential n) (f : Vec ℝ n → Vec ℝ n) : Prop :=
  ∀ r, ess.ZeroOn r.values → ess.ZeroOn (f r).values

/-- The answers of a solve have the values that right-hand side and guess have in common on the essential positions. -/
def KeepsData (ess : Essential n) (solve : LinearSolve ℝ n) : Prop :=
  ∀ b x r y r', (∀ i ∈ ess, x.values i = b.values i) → (solve b x).run r = .ok y r' → ∀ i ∈ ess, y.values i = b.values i

/-! ### Rounds -/

namespace ConjugateGradient

/-- The iterate has the values of the right-hand side on the essential positions; residual and last search direction
vanish there. -/
structure Fixed (ess : Essential n) (b : Vec ℝ n) (s : State ℝ n) : Prop where
  iterate : ∀ i ∈ ess, s.x.values i = b.values i
  residual : ess.ZeroOn s.r.values
  direction : ∀ p rho, s.last = some (p, rho) → ess.ZeroOn p.values

variable {A : Sparse ℝ n n} {ess : Essential n} {P : Vec ℝ n → Vec ℝ n} {b : Vec ℝ n} {s : State ℝ n}

noncomputable def direction (P : Vec ℝ n → Vec ℝ n) (s : State ℝ n) : Vec ℝ n :=
  match s.last with
  | none => P s.r
  | some (p, rho) => Vec.scale (Vec.dot s.r (P s.r) / rho) p + P s.r

theorem zeroOn_direction (hP : KeepsZeroOn ess P) (hs : Fixed ess b s) : ess.ZeroOn (direction P s).values := by
  have hz : ess.ZeroOn (P s.r).values := hP s.r hs.residual
  unfold direction
  cases hlast : s.last with
  | none => exact hz
  | some last =>
    obtain ⟨p, rho⟩ := last
    intro i hi
    have hp : p.values i = 0 := hs.direction p rho hlast i hi
    simp [hp, hz i hi]

theorem step_eq : ∃ alpha, step A P s =
    ⟨Vec.addScaled s.x alpha (direction P s), Vec.subScaled s.r alpha (A.mulVec (direction P s)),
      some (direction P s, Vec.dot s.r (P s.r))⟩ := by
  unfold step direction
  cases s.last with
  | none => exact ⟨_, rfl⟩
  | some last => exact ⟨_, rfl⟩

/-- A round for an eliminated matrix fixes the iterate where it is fixed already, whatever its step length. -/
theorem fixed_step (hP : KeepsZeroOn ess P) (hs : Fixed ess b s) : Fixed ess b (step (A.eliminate ess) P s) := by
  obtain ⟨alpha, hstep⟩ := step_eq (A := A.eliminate ess) (P := P) (s := s)
  have hp : ess.ZeroOn (direction P s).values := zeroOn_direction hP hs
  rw [hstep]
  constructor
  · intro i hi
    simp [hp i hi, hs.iterate i hi]
  · intro i hi
    have hq : ((A.eliminate ess).toMatrix.mulVec (direction P s).values) i = 0 := by
      rw [Sparse.eliminate_mulVec_of_mem A ess _ hi, hp i hi]
    simp [hq, hs.residual i hi]
  · rintro p rho ⟨⟩
    exact hp

theorem iterate_fixed (hP : KeepsZeroOn ess P) {tolerance : ℝ} {exhausted : Bool} {rounds done : ℕ}
    (hs : Fixed ess b s) :
    ∀ i ∈ ess, (iterate (A.eliminate ess) P tolerance exhausted rounds done s).solution.values i = b.values i := by
  -- on the rounds left: each way to end returns the iterate of a state that is fixed
  induction rounds generalizing done s with
  | zero => exact hs.iterate
  | succ rounds ih =>
    unfold iterate
    split
    · exact hs.iterate
    · exact ih (fixed_step hP hs)

/-- A solve whose guess has the values of the right-hand side on the essential positions returns a vector that has. -/
theorem solve_fixed (hP : KeepsZeroOn ess P) {rtol atol : ℝ} {maxIter : ℤ} {x₀ : Vec ℝ n}
    (hx : ∀ i ∈ ess, x₀.values i = b.values i) :
    ∀ i ∈ ess, (solve (A.eliminate ess) P rtol atol maxIter b x₀).solution.values i = b.values i := by
  simp only [solve, initial_residual]
  split
  · exact fun _ _ => rfl
  · refine iterate_fixed hP ⟨hx, fun i hi => ?_, fun p rho hlast => ?_⟩
    · simp [Sparse.eliminate_mulVec_of_mem A ess _ hi, hx i hi]
    · cases hlast

end ConjugateGradient

/-! ### Solver contexts -/

/-- The kinds of preconditioners that treat each entry by itself. -/
def Kind.Entrywise (kind : Kind) : Prop := kind = .unset ∨ kind = .none ∨ kind = .jacobi

theorem Preconditioner.keepsZeroOn_of_build {B : Sparse ℝ n n} {ess : Essential n} {kind : Kind}
    {P : Preconditioner ℝ n} (hkind : kind.Entrywise) (h : build B kind = .ok P) : KeepsZeroOn ess P.apply := by
  rcases hkind with rfl | rfl | rfl
  · obtain rfl := Except.ok.inj h
    exact fun r hr => hr
  · obtain rfl := Except.ok.inj h
    exact fun r hr => hr
  · unfold build ofDiagonal at h
    simp only at h
    split at h
    · cases h
    · obtain rfl := Except.ok.inj h
      intro r hr i hi
      have hri : r.get i = 0 := hr i hi
      unfold apply
      rw [Vec.values_ofFn, hri, mul_zero]

/-- The values of a guess on the essential positions are those of the right-hand side, also if the guess is zero. -/
def Settings.Consistent (settings : Settings ℝ) (ess : Essential n) (b x : Vec ℝ n) : Prop :=
  if settings.iterative then ∀ i ∈ ess, x.values i = b.values i else ess.ZeroOn b.values

theorem Settings.attempt_fixed {settings : Settings ℝ} {A : Sparse ℝ n n} {ess : Essential n} {P : Preconditioner ℝ n}
    {b x : Vec ℝ n} {result : Attempt ℝ n} (hmethod : settings.method = .cg) (hP : KeepsZeroOn ess P.apply)
    (hx : settings.Consistent ess b x) (h : settings.attempt (A.eliminate ess) P b x = .ok result) :
    ∀ i ∈ ess, result.solution.values i = b.values i := by
  have hguess : ∀ i ∈ ess, (if settings.iterative then x else Vec.zeros n).values i = b.values i := by
    unfold Consistent at hx
    split
    next hiterative =>
      rw [if_pos hiterative] at hx
      exact hx
    next hiterative =>
      rw [if_neg hiterative] at hx
      intro i hi
      rw [Vec.values_zeros, hx i hi]
      rfl
  unfold attempt at h
  simp only [hmethod] at h
  obtain ⟨atol, -, h⟩ := except_bind_eq_ok.1 h
  by_cases hneg : Scalar.lt atol 0 = true
  · rw [if_pos hneg] at h
    cases h
  rw [if_neg hneg] at h
  obtain ⟨rtol, -, h⟩ := except_bind_eq_ok.1 h
  by_cases hzero : Scalar.isZero (Vec.norm b) = true
  · rw [if_pos hzero] at h
    obtain rfl := Except.ok.inj h
    exact fun _ _ => rfl
  rw [if_neg hzero] at h
  obtain ⟨limit, -, h⟩ := except_bind_eq_ok.1 h
  obtain rfl := Except.ok.inj h
  exact ConjugateGradient.solve_fixed hP hguess

theorem AnyPreconditioner.ofSize?_mk (P : Preconditioner ℝ n) : ofSize? n ⟨n, P⟩ = some P := by
  simp [ofSize?]

/-- Conjugate gradients for a matrix with essential positions eliminated, without preconditioner or with one that treats
each entry by itself, as they are made.  Nothing is said of tolerances and limit, and there may have been solves. -/
structure Solver.Fixes (A : Sparse ℝ n n) (ess : Essential n) (s : Solver ℝ) : Prop where
  method : s.settings.method = .cg
  kind : s.settings.preconditioner.Entrywise
  made : make ⟨n, n, A.eliminate ess⟩ s.settings = .ok { s with report := .fresh }

namespace Solver.Fixes

variable {A : Sparse ℝ n n} {ess : Essential n} {s t : Solver ℝ}

theorem of_make {settings : Settings ℝ} (hmethod : settings.method = .cg) (hkind : settings.preconditioner.Entrywise)
    (h : make ⟨n, n, A.eliminate ess⟩ settings = .ok s) : s.Fixes A ess := by
  obtain ⟨P, -, hs⟩ := except_bind_eq_ok.1 h
  obtain rfl := Except.ok.inj hs
  exact ⟨hmethod, hkind, h⟩

theorem withReport (hs : s.Fixes A ess) (report : Report ℝ) : { s with report }.Fixes A ess :=
  ⟨hs.method, hs.kind, hs.made⟩

theorem system (hs : s.Fixes A ess) : ∃ P, s.system? n = .ok (A.eliminate ess, P) ∧ KeepsZeroOn ess P.apply := by
  obtain ⟨Q, hQ, hmade⟩ := except_bind_eq_ok.1 hs.made
  have hmatrix : s.matrix = some ⟨n, n, A.eliminate ess⟩ := (congrArg matrix (Except.ok.inj hmade)).symm
  have hpreconditioner : s.preconditioner = some Q := (congrArg preconditioner (Except.ok.inj hmade)).symm
  unfold preconditionerOf at hQ
  simp only [AnyMatrix.square?_mk] at hQ
  obtain ⟨P, hP, hQ⟩ := except_bind_eq_ok.1 hQ
  obtain rfl := Except.ok.inj hQ
  refine ⟨P, ?_, Preconditioner.keepsZeroOn_of_build hs.kind hP⟩
  unfold system?
  simp only [hmatrix, hpreconditioner, Option.getD_some, AnyMatrix.square?_mk, AnyPreconditioner.ofSize?_mk]

theorem solve {b x y : Vec ℝ n} (hs : s.Fixes A ess) (hx : s.settings.Consistent ess b x)
    (h : (solve b x).run s = .ok y t) : ∀ i ∈ ess, y.values i = b.values i := by
  obtain ⟨-, B, P, result, hsystem, hattempt, -, rfl⟩ := solve_ok h
  obtain ⟨Q, hsystem', hQ⟩ := hs.system
  obtain ⟨rfl, rfl⟩ := Prod.mk.inj (Except.ok.inj (hsystem'.symm.trans hsystem))
  exact Settings.attempt_fixed hs.method hQ hx hattempt

/-- In iterative mode the solves of such a context keep the values that right-hand side and guess have in common. -/
theorem keepsData (hs : s.Fixes A ess) (hiterative : s.settings.iterative = true) :
    KeepsData ess (s.toLinearSolve n) := by
  intro b x r y r' hx h
  have hconsistent : s.settings.Consistent ess b x := (if_pos hiterative).mpr hx
  replace h : s.toLinearSolve n b x r = .ok y r' := h
  unfold toLinearSolve at h
  split at h
  next hsolve =>
    cases h
    exact (hs.withReport r).solve hconsistent hsolve
  next => cases h

end Solver.Fixes

/-- A solve of a session returns a vector with the values of the right-hand side on the essential positions. -/
theorem Session.solve_fixed {A : Sparse ℝ n n} {ess : Essential n} {s t : Session ℝ} {b x : Vec ℝ n}
    {start : Option (Array ℝ)} {u : Unit} (hs : s.solver.Fixes A ess) (hstart : start.getD s.x = x.toArray)
    (hx : s.solver.settings.Consistent ess b x) (h : (solve b.toArray start).run s = .ok u t) :
    ∃ y : Vec ℝ n, t.x = y.toArray ∧ ∀ i ∈ ess, y.values i = b.values i := by
  obtain ⟨y, hy, htx⟩ := solve_eq_ok hstart h
  refine ⟨y, htx, hs.solve ?_ hy⟩
  unfold Settings.Consistent Solver.guessOf at *
  split
  next hiterative =>
    rw [if_pos hiterative] at hx
    exact hx
  next hiterative =>
    rw [if_neg hiterative] at hx
    exact hx

/-! ### Two unknowns -/

def firstOfTwo : Essential 2 := ⟨#v[true, false]⟩

theorem coupled_eliminate : (coupled.eliminate firstOfTwo).toMatrix = !![1, 0; 0, 2] := by
  ext i j
  rw [Sparse.toMatrix_eliminate]
  fin_cases i <;> fin_cases j
  · rfl
  · rfl
  · rfl
  · show SparseRow.entry [(0, 1), (1, 2.0)] (1 : Fin 2) = (2 : ℝ)
    norm_num [SparseRow.entry_cons]

theorem coupled_eliminate_mulVec (a b : ℝ) : (coupled.eliminate firstOfTwo).mulVec #v[a, b] = #v[a, 2 * b] := by
  apply Vec.values_injective
  rw [Sparse.values_mulVec, coupled_eliminate]
  funext i
  fin_cases i
  · simp [Matrix.mulVec, dotProduct, Fin.sum_univ_two, Vec.values_apply]
  · simp [Matrix.mulVec, dotProduct, Fin.sum_univ_two, Vec.values_apply]

theorem norm_right_ne_zero : ¬ Scalar.isZero (Vec.norm (#v[5, 4] : Vec ℝ 2)) = true := by
  rw [norm_pair, Scalar.isZero_real]
  norm_num

/-- One round finds the second unknown. -/
theorem ConjugateGradient.step_coupled :
    step (coupled.eliminate firstOfTwo) id ⟨#v[5, 0], #v[0, 4], none⟩ = ⟨#v[5, 2], #v[0, 0], some (#v[0, 4], 16)⟩ := by
  simp only [step, id, coupled_eliminate_mulVec, dot_pair]
  congr
  · ext i hi
    interval_cases i <;> norm_num
  · ext i hi
    interval_cases i <;> norm_num
  · norm_num

theorem ConjugateGradient.solve_coupled :
    solve (coupled.eliminate firstOfTwo) id 0 1 2 #v[5, 4] #v[5, 0] = ⟨#v[5, 2], 1, true⟩ := by
  have hresidual : (if Vec.isZero (#v[5, 0] : Vec ℝ 2) then #v[5, 4]
      else #v[5, 4] - (coupled.eliminate firstOfTwo).mulVec #v[5, 0]) = #v[0, 4] := by
    rw [initial_residual, coupled_eliminate_mulVec, pair_sub]
    norm_num
  have hlarge : ¬ Scalar.lt (Vec.norm (#v[0, 4] : Vec ℝ 2)) 1 = true := by
    rw [norm_pair, show (0 * 0 + 4 * 4 : ℝ) = 4 ^ 2 by norm_num, Real.sqrt_sq (by norm_num), Scalar.lt_real]
    norm_num
  have hsmall : Scalar.lt (Vec.norm (#v[0, 0] : Vec ℝ 2)) 1 = true := by
    rw [norm_pair, Scalar.lt_real]
    norm_num
  simp only [solve, if_neg norm_right_ne_zero, hresidual, Scalar.max_real, zero_mul, max_eq_left (zero_le_one' ℝ)]
  show iterate _ _ 1 _ 2 0 _ = _
  rw [iterate, if_neg hlarge, step_coupled, iterate, if_pos hsmall]

namespace Solver

/-- Conjugate gradients for the two unknowns, allowed two rounds. -/
noncomputable def twoRounds : Solver ℝ where
  settings := ⟨.cg, .none, .ok 0, .ok 1, .ok (some 2), true, "two"⟩
  matrix := some ⟨2, 2, coupled.eliminate firstOfTwo⟩
  preconditioner := some ⟨2, .identity⟩
  report := .fresh

theorem make_twoRounds : make ⟨2, 2, coupled.eliminate firstOfTwo⟩ twoRounds.settings = .ok twoRounds := by
  unfold make preconditionerOf
  simp only [AnyMatrix.square?_mk]
  rfl

theorem twoRounds_system : twoRounds.system? 2 = .ok (coupled.eliminate firstOfTwo, .identity) := by
  unfold system? twoRounds
  simp only [AnyMatrix.square?_mk, Option.getD_some, AnyPreconditioner.ofSize?_mk]

theorem twoRounds_attempt : twoRounds.settings.attempt (coupled.eliminate firstOfTwo) .identity #v[5, 4] #v[5, 0] =
    .ok ⟨#v[5, 2], 1, true⟩ := by
  have hneg : ¬ Scalar.lt (1 : ℝ) 0 = true := by
    rw [Scalar.lt_real]
    norm_num
  have hsolve : ConjugateGradient.solve _ Preconditioner.identity.apply _ _ _ _ _ = _ := ConjugateGradient.solve_coupled
  simp only [Settings.attempt, twoRounds, bind, Except.bind, Option.getD_some, if_neg hneg,
    if_neg norm_right_ne_zero, if_true, hsolve]
  rfl

end Solver

end Magnetofluid.Krylov
