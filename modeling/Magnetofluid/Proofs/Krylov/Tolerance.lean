import Mathlib
import Magnetofluid.Proofs.Exact.Text
import Magnetofluid.Proofs.Krylov.Context
import Magnetofluid.Proofs.Linear.Sparse

/-!
# Solves that meet their tolerance

What it means that an iterative solve says that it has converged: the residual of what it returns is within the larger of
the absolute tolerance and the relative one.  Neither iteration computes that residual where it stops.  Conjugate
gradients carry it along by a recurrence, which is exact over the reals; minimal residuals compute it between cycles.

* `ConjugateGradient.solve_met`, `MinimalResidual.solve_met`: each iteration, for any preconditioner.
* `Session.solve_within_tolerance`: a solve of a session ends within the tolerance or leaves the vector as it was.  The
  exception is an iteration of conjugate gradients that is allowed no rounds, which takes its guess for the solution.
-/

namespace Magnetofluid

variable {n : ℕ}

namespace Krylov

/-- The residual that a solve starts from, which is not computed for a guess of zeros. -/
theorem initial_residual (A : Sparse ℝ n n) (b x₀ : Vec ℝ n) :
    (if x₀.isZero then b else b - A.mulVec x₀) = b - A.mulVec x₀ := by
  split
  next h =>
    apply Vec.values_injective
    have hzero : x₀.values = 0 := by
      funext i
      unfold Vec.isZero at h
      simpa [Vec.values_apply] using (Vector.all_eq_true.1 h) i i.isLt
    simp [hzero]
  · rfl

/-! ### Conjugate gradients -/

namespace ConjugateGradient

variable {A : Sparse ℝ n n} {P : Vec ℝ n → Vec ℝ n} {b : Vec ℝ n}

/-- The recurrence carries the residual of the iterate along, whatever the search direction and the step length. -/
theorem step_residual {s : State ℝ n} (hs : s.r = b - A.mulVec s.x) :
    (step A P s).r = b - A.mulVec (step A P s).x := by
  apply Vec.values_injective
  simp only [step, hs, Vec.values_sub, Vec.values_subScaled, Vec.values_addScaled, Sparse.values_mulVec,
    Matrix.mulVec_add, Matrix.mulVec_smul]
  abel

theorem iterate_met {tolerance : ℝ} {rounds done : ℕ} {s : State ℝ n} (hs : s.r = b - A.mulVec s.x)
    (h : (iterate A P tolerance false rounds done s).converged = true) :
    Vec.norm (b - A.mulVec (iterate A P tolerance false rounds done s).solution) < tolerance := by
  -- on the rounds left: only a round that finds `s.r` small says that it has converged, and `s.r` is the residual
  induction rounds generalizing done s with
  | zero => exact absurd h Bool.false_ne_true
  | succ rounds ih =>
    unfold iterate at h ⊢
    split at h
    next hlt =>
      rw [if_pos hlt, ← hs]
      exact of_decide_eq_true hlt
    next hlt =>
      rw [if_neg hlt]
      exact ih (step_residual hs) h

theorem solve_met {rtol atol : ℝ} {maxIter : ℤ} {x₀ : Vec ℝ n} (hb : Vec.norm b ≠ 0) (hlimit : maxIter ≠ 0)
    (h : (solve A P rtol atol maxIter b x₀).converged = true) :
    Vec.norm (b - A.mulVec (solve A P rtol atol maxIter b x₀).solution) ≤ max atol (rtol * Vec.norm b) := by
  have hsize : ¬ Scalar.isZero (Vec.norm b) = true := by simpa using hb
  simp only [solve, if_neg hsize, initial_residual, decide_eq_false hlimit, Scalar.max_real] at h ⊢
  exact (iterate_met rfl h).le

/-- No round is the only reason to take the guess for the solution without looking at its residual. -/
theorem solve_noRounds {rtol atol : ℝ} {x₀ : Vec ℝ n} (hb : Vec.norm b ≠ 0) :
    solve A P rtol atol 0 b x₀ = ⟨x₀, 0, true⟩ := by
  have hsize : ¬ Scalar.isZero (Vec.norm b) = true := by simpa using hb
  unfold solve
  rw [if_neg hsize]
  rfl

end ConjugateGradient

/-! ### Minimal residuals -/

namespace MinimalResidual

theorem Problem.iterate_met {p : Problem ℝ n} {cycles : ℕ} {s : State ℝ n} (h : (p.iterate cycles s).converged = true) :
    Vec.norm (p.rhs - p.matrix.mulVec (p.iterate cycles s).solution) ≤ p.tolerance := by
  induction cycles generalizing s with
  | zero => exact absurd h Bool.false_ne_true
  | succ cycles ih =>
    unfold iterate at h ⊢
    simp only at h ⊢
    split at h
    next hle =>
      rw [if_pos hle]
      exact of_decide_eq_true hle
    next hle =>
      rw [if_neg hle]
      split at h
      next => exact absurd h Bool.false_ne_true
      next hbreakdown =>
        rw [if_neg hbreakdown]
        exact ih h

theorem solve_met {A : Sparse ℝ n n} {P : Vec ℝ n → Vec ℝ n} {rtol atol : ℝ} {restart : ℕ} {maxIter : ℤ}
    {b x₀ : Vec ℝ n} (hb : Vec.norm b ≠ 0) (h : (solve A P rtol atol restart maxIter b x₀).converged = true) :
    Vec.norm (b - A.mulVec (solve A P rtol atol restart maxIter b x₀).solution) ≤ max atol (rtol * Vec.norm b) := by
  have hsize : ¬ Scalar.isZero (Vec.norm b) = true := by simpa using hb
  simp only [solve, if_neg hsize, initial_residual, Scalar.max_real] at h ⊢
  split at h
  next hlt =>
    rw [if_pos hlt]
    exact (of_decide_eq_true hlt).le
  next hlt =>
    rw [if_neg hlt]
    exact Problem.iterate_met h

end MinimalResidual

/-! ### Solver contexts -/

/-- An attempt that says it has converged is within the tolerance, unless it is one of conjugate gradients that was allowed
no rounds. -/
theorem Settings.attempt_met {settings : Settings ℝ} {A : Sparse ℝ n n} {P : Preconditioner ℝ n} {b x : Vec ℝ n}
    {rtol atol : ℝ} {limit : ℤ} {result : Attempt ℝ n} (hrtol : settings.rtol = .ok rtol)
    (hatol : settings.atol = .ok atol) (hlimit : settings.maxIter = .ok (some limit))
    (h : settings.attempt A P b x = .ok result) (hconverged : result.converged = true) :
    Vec.norm (b - A.mulVec result.solution) ≤ max atol (rtol * Vec.norm b) ∨
      settings.method = .cg ∧ limit = 0 ∧ result.solution = if settings.iterative then x else Vec.zeros n := by
  simp only [attempt, hrtol, hatol, hlimit, bind, Except.bind, Option.getD_some] at h
  generalize (if settings.iterative = true then x else Vec.zeros n) = guess at h ⊢
  by_cases hneg : Scalar.lt atol 0 = true
  · rw [if_pos hneg] at h
    cases h
  rw [if_neg hneg] at h
  have hnonneg : 0 ≤ atol := by simpa using hneg
  by_cases hzero : Scalar.isZero (Vec.norm b) = true
  -- a right side of zeros is answered by zeros, and the tolerance may be zero as well
  · rw [if_pos hzero] at h
    obtain rfl := Except.ok.inj h
    obtain rfl := Vec.eq_zeros_of_norm_eq_zero (of_decide_eq_true hzero)
    left
    have hresidual : (Vec.zeros n - A.mulVec (Vec.zeros n) : Vec ℝ n) = Vec.zeros n := by
      apply Vec.values_injective
      simp
    rw [hresidual, Vec.norm_zeros]
    exact le_max_of_le_left hnonneg
  rw [if_neg hzero] at h
  have hb : Vec.norm b ≠ 0 := by simpa using hzero
  cases hmethod : settings.method with
  | cg =>
    rw [hmethod] at h
    obtain rfl := Except.ok.inj h
    by_cases hrounds : limit = 0
    · subst hrounds
      right
      rw [ConjugateGradient.solve_noRounds hb]
      exact ⟨rfl, rfl, rfl⟩
    · exact .inl (ConjugateGradient.solve_met hb hrounds hconverged)
  | gmres =>
    rw [hmethod] at h
    by_cases hrounds : limit ≤ 0
    · simp only [if_pos hrounds] at h
      cases h
    · simp only [if_neg hrounds] at h
      obtain rfl := Except.ok.inj h
      exact .inl (MinimalResidual.solve_met hb hconverged)

/-- Conjugate gradients that are allowed no rounds accept any guess. -/
theorem Settings.attempt_noRounds {settings : Settings ℝ} {A : Sparse ℝ n n} {P : Preconditioner ℝ n} {b x : Vec ℝ n}
    {rtol atol : ℝ} (hmethod : settings.method = .cg) (hrtol : settings.rtol = .ok rtol)
    (hatol : settings.atol = .ok atol) (hlimit : settings.maxIter = .ok (some 0)) (hiterative : settings.iterative = true)
    (hnonneg : 0 ≤ atol) (hb : Vec.norm b ≠ 0) : settings.attempt A P b x = .ok ⟨x, 0, true⟩ := by
  have hneg : ¬ Scalar.lt atol 0 = true := by simpa using hnonneg
  have hsize : ¬ Scalar.isZero (Vec.norm b) = true := by simpa using hb
  simp only [attempt, hrtol, hatol, hlimit, bind, Except.bind, Option.getD_some, if_neg hneg, if_neg hsize,
    if_pos hiterative, hmethod, ConjugateGradient.solve_noRounds hb]
  rfl

theorem Solver.system?_matrix {s : Solver ℝ} {A B : Sparse ℝ n n} {P : Preconditioner ℝ n}
    (hmatrix : s.matrix = some ⟨n, n, A⟩) (h : s.system? n = .ok (B, P)) : B = A := by
  unfold system? at h
  simp only [hmatrix, AnyMatrix.square?_mk] at h
  split at h
  next hB _ =>
    cases h
    exact (Option.some.inj hB).symm
  · cases h

/-- A solve that ends without a failure has met its tolerance, and its report says so; one that fails leaves the vector it
was to start from.  Conjugate gradients that are allowed no rounds end without a failure wherever they start. -/
theorem Session.solve_within_tolerance {s : Session ℝ} {A : Sparse ℝ n n} {rtol atol : ℝ} {limit : ℤ} (b x : Vec ℝ n)
    {start : Option (Array ℝ)} (hmatrix : s.solver.matrix = some ⟨n, n, A⟩)
    (hrtol : s.solver.settings.rtol = .ok rtol) (hatol : s.solver.settings.atol = .ok atol)
    (hlimit : s.solver.settings.maxIter = .ok (some limit)) (hx : start.getD s.x = x.toArray) :
    (∀ t, (solve b.toArray start).run s = .ok () t → t.solver.report.converged = true ∧ ∃ y : Vec ℝ n, t.x = y.toArray ∧
      (Vec.norm (b - A.mulVec y) ≤ max atol (rtol * Vec.norm b) ∨
        s.solver.settings.method = .cg ∧ limit = 0 ∧ y = s.solver.guessOf x)) ∧
    ∀ e t, (solve b.toArray start).run s = .error e t → t.x = x.toArray := by
  refine ⟨fun t h => ?_, fun e t h => (solve_eq_error h).trans hx⟩
  obtain ⟨y, hy, htx⟩ := solve_eq_ok hx h
  obtain ⟨hreport, B, P, result, hsystem, hattempt, hconverged, rfl⟩ := Solver.solve_ok hy
  obtain rfl : B = A := Solver.system?_matrix hmatrix hsystem
  refine ⟨hreport, result.solution, htx, ?_⟩
  rcases Settings.attempt_met hrtol hatol hlimit hattempt hconverged with hmet | ⟨hcg, hrounds, hguess⟩
  · exact .inl hmet
  · refine .inr ⟨hcg, hrounds, hguess.trans ?_⟩
    unfold Solver.guessOf
    split <;> rfl

/-! ### Two unknowns -/

noncomputable def coupled : Sparse ℝ 2 2 := ⟨#v[[(0, 2.0), (1, 1)], [(0, 1), (1, 2.0)]]⟩

theorem coupled_toMatrix : coupled.toMatrix = !![2, 1; 1, 2] := by
  ext i j
  rw [Sparse.toMatrix_apply]
  fin_cases i <;> fin_cases j
  · show SparseRow.entry [(0, 2.0), (1, 1)] (0 : Fin 2) = (2 : ℝ)
    norm_num [SparseRow.entry_cons]
  · show SparseRow.entry [(0, 2.0), (1, 1)] (1 : Fin 2) = (1 : ℝ)
    norm_num [SparseRow.entry_cons]
  · show SparseRow.entry [(0, 1), (1, 2.0)] (0 : Fin 2) = (1 : ℝ)
    norm_num [SparseRow.entry_cons]
  · show SparseRow.entry [(0, 1), (1, 2.0)] (1 : Fin 2) = (2 : ℝ)
    norm_num [SparseRow.entry_cons]

theorem coupled_mulVec (a b : ℝ) : coupled.mulVec #v[a, b] = #v[2 * a + b, a + 2 * b] := by
  apply Vec.values_injective
  rw [Sparse.values_mulVec, coupled_toMatrix]
  funext i
  fin_cases i
  · simp [Matrix.mulVec, dotProduct, Fin.sum_univ_two, Vec.values_apply]
  · simp [Matrix.mulVec, dotProduct, Fin.sum_univ_two, Vec.values_apply]

theorem pair_sub (a b c d : ℝ) : (#v[a, b] - #v[c, d] : Vec ℝ 2) = #v[a - c, b - d] := by
  ext i hi
  match i with
  | 0 => simp
  | 1 => simp

theorem dot_pair (a b c d : ℝ) : Vec.dot (#v[a, b] : Vec ℝ 2) #v[c, d] = a * c + b * d := by
  rw [Vec.dot_eq, dotProduct, Fin.sum_univ_two]
  rfl

theorem norm_pair (a b : ℝ) : Vec.norm (#v[a, b] : Vec ℝ 2) = √(a * a + b * b) := by
  unfold Vec.norm
  rw [dot_pair, Scalar.sqrt_real]

/-- Conjugate gradients for the two unknowns, until half of the right-hand side is left. -/
noncomputable def Solver.ofCoupled (limit : ℤ) : Solver ℝ where
  settings := ⟨.cg, .none, .ok 0.5, .ok 0, .ok (some limit), true, "two"⟩
  matrix := some ⟨2, 2, coupled⟩
  preconditioner := some ⟨2, .identity⟩
  report := .fresh

theorem Solver.ofCoupled_system (limit : ℤ) : (ofCoupled limit).system? 2 = .ok (coupled, .identity) := by
  unfold system? ofCoupled
  simp only [AnyMatrix.square?_mk]
  rfl

/-- A residual with equal entries is an eigenvector, so that one round finds both unknowns. -/
theorem ConjugateGradient.step_equal :
    step coupled id ⟨#v[2, 2], #v[-3, -3], none⟩ = ⟨#v[1, 1], #v[0, 0], some (#v[-3, -3], 18)⟩ := by
  simp only [step, id, coupled_mulVec, dot_pair]
  congr
  · ext i hi
    interval_cases i <;> norm_num
  · ext i hi
    interval_cases i <;> norm_num
  · norm_num

theorem norm_three : Vec.norm (#v[3, 3] : Vec ℝ 2) = √18 := by
  rw [norm_pair]
  norm_num

theorem norm_three_ne_zero : ¬ Scalar.isZero (Vec.norm (#v[3, 3] : Vec ℝ 2)) = true := by
  rw [norm_three, Scalar.isZero_real]
  norm_num

theorem ConjugateGradient.solve_equal (rounds : ℕ) :
    solve coupled id 0.5 0 (rounds + 1 : ℕ) #v[3, 3] #v[2, 2] = ⟨#v[1, 1], 1, decide (0 < rounds)⟩ := by
  have hresidual : (if Vec.isZero (#v[2, 2] : Vec ℝ 2) then #v[3, 3] else #v[3, 3] - coupled.mulVec #v[2, 2]) =
      #v[-3, -3] := by
    rw [initial_residual, coupled_mulVec, pair_sub]
    norm_num
  have hlarge : ¬ Scalar.lt (Vec.norm (#v[-3, -3] : Vec ℝ 2)) (0.5 * √18) = true := by
    rw [norm_pair, Scalar.lt_real, show (-3 * -3 + -3 * -3 : ℝ) = 18 by norm_num, decide_eq_true_eq]
    linarith [Real.sqrt_nonneg 18]
  have hsmall : Scalar.lt (Vec.norm (#v[0, 0] : Vec ℝ 2)) (0.5 * √18) = true := by
    rw [norm_pair, Scalar.lt_real]
    norm_num
  have hbound : max 0 (0.5 * √18) = 0.5 * √18 := max_eq_right (by positivity)
  have hlimit : ((rounds + 1 : ℕ) : ℤ) ≠ 0 := by omega
  simp only [solve, if_neg norm_three_ne_zero, hresidual, Scalar.max_real, decide_eq_false hlimit, Int.toNat_natCast]
  rw [norm_three, hbound, iterate, if_neg hlarge, step_equal]
  cases rounds with
  | zero => rfl
  | succ rounds =>
    rw [iterate, if_pos hsmall]
    simp

theorem Solver.attempt_equal (rounds : ℕ) :
    (ofCoupled (rounds + 1 : ℕ)).settings.attempt coupled .identity #v[3, 3] #v[2, 2] =
      .ok ⟨#v[1, 1], 1, decide (0 < rounds)⟩ := by
  have hneg : ¬ Scalar.lt (0 : ℝ) 0 = true := by simp
  have hsolve : ConjugateGradient.solve _ Preconditioner.identity.apply _ _ _ _ _ = _ :=
    ConjugateGradient.solve_equal rounds
  simp only [Settings.attempt, ofCoupled, bind, Except.bind, Option.getD_some, if_neg hneg, if_neg norm_three_ne_zero,
    if_true, hsolve]
  rfl

/-- A guess that is off the solution: with two rounds allowed, the first one finds the solution and the second one
notices; with one allowed, nothing does, and the vector stays. -/
theorem Session.solve_within_tolerance_coupled :
    max 0 (0.5 * Vec.norm #v[3, 3]) < Vec.norm (#v[3, 3] - coupled.mulVec (#v[2, 2] : Vec ℝ 2)) ∧
    (∃ t : Session ℝ, (solve (#v[3, 3] : Vec ℝ 2).toArray none).run ⟨.ofCoupled 2, #[2, 2]⟩ = .ok () t ∧
      t.solver.report.iterations = 1 ∧ t.solver.report.converged = true ∧ ∃ y : Vec ℝ 2, t.x = y.toArray ∧
        Vec.norm (#v[3, 3] - coupled.mulVec y) ≤ max 0 (0.5 * Vec.norm #v[3, 3])) ∧
    ∃ e t, (solve (#v[3, 3] : Vec ℝ 2).toArray none).run ⟨.ofCoupled 1, #[2, 2]⟩ = .error e t ∧
      t.x = (#v[2, 2] : Vec ℝ 2).toArray := by
  have hx : (none : Option (Array ℝ)).getD #[2, 2] = (#v[2, 2] : Vec ℝ 2).toArray := rfl
  refine ⟨?_, ?_, ?_⟩
  · rw [norm_three, coupled_mulVec, pair_sub, norm_pair, max_lt_iff]
    norm_num
  · have hrun := solve_run (s := ⟨.ofCoupled 2, #[2, 2]⟩) hx
      (Solver.solve_run (Solver.ofCoupled_system 2) (Solver.attempt_equal 1) rfl)
    obtain ⟨hok, -⟩ := solve_within_tolerance (s := ⟨.ofCoupled 2, #[2, 2]⟩) #v[3, 3] #v[2, 2] rfl rfl rfl rfl hx
    obtain ⟨hconverged, y, hy, hmet | ⟨-, hrounds, -⟩⟩ := hok _ hrun
    · exact ⟨_, hrun, rfl, hconverged, y, hy, hmet⟩
    · exact absurd hrounds two_ne_zero
  · have hrun := solve_run_error (s := ⟨.ofCoupled 1, #[2, 2]⟩) hx
      (Solver.solve_run_exhausted (Solver.ofCoupled_system 1) (Solver.attempt_equal 0) rfl)
    obtain ⟨-, herror⟩ := solve_within_tolerance (s := ⟨.ofCoupled 1, #[2, 2]⟩) #v[3, 3] #v[2, 2] rfl rfl rfl rfl hx
    exact ⟨_, _, hrun, herror _ _ hrun⟩

/-! ### No rounds -/

/-- Conjugate gradients for the equation `x = b` in one unknown, with a relative tolerance of one. -/
noncomputable def Solver.unit (limit : ℤ) : Solver ℝ where
  settings := ⟨.cg, .none, .ok 1, .ok 0, .ok (some limit), true, "unit"⟩
  matrix := some ⟨1, 1, .ofDiagonal #v[1]⟩
  preconditioner := some ⟨1, .identity⟩
  report := .fresh

theorem unit_system (limit : ℤ) : (Solver.unit limit).system? 1 = .ok (.ofDiagonal #v[1], .identity) := by
  unfold Solver.system? Solver.unit
  simp only [AnyMatrix.square?_mk]
  rfl

theorem unit_mulVec (x : Vec ℝ 1) : (Sparse.ofDiagonal #v[1]).mulVec x = x := by
  apply Vec.values_injective
  funext i
  obtain rfl : i = 0 := Subsingleton.elim _ _
  show ((Sparse.ofDiagonal #v[1]).mulVec x).get 0 = x.values 0
  rw [Sparse.get_mulVec]
  show SparseRow.dot [(0, 1)] x = x.values 0
  rw [SparseRow.dot_singleton, one_mul]

theorem norm_single (a : ℝ) : Vec.norm (#v[a] : Vec ℝ 1) = |a| := by
  unfold Vec.norm
  rw [Vec.dot_eq, Scalar.sqrt_real, dotProduct, Fin.sum_univ_one]
  exact Real.sqrt_mul_self_eq_abs a

theorem single_sub (a b : ℝ) : (#v[a] - #v[b] : Vec ℝ 1) = #v[a - b] := by
  ext i hi
  obtain rfl : i = 0 := by omega
  simp

/-- Allowed no rounds, the solver takes three for the solution of `x = 1`. -/
theorem Session.solve_noRounds_unmet :
    ∃ t : Session ℝ, (solve (#v[1] : Vec ℝ 1).toArray none).run ⟨.unit 0, #[3]⟩ = .ok () t ∧
      t.x = (#v[3] : Vec ℝ 1).toArray ∧
        max 0 (1 * Vec.norm #v[1]) < Vec.norm (#v[1] - (Sparse.ofDiagonal #v[1]).mulVec (#v[3] : Vec ℝ 1)) := by
  have hb : Vec.norm (#v[1] : Vec ℝ 1) ≠ 0 := by
    rw [norm_single]
    norm_num
  have hattempt : (Solver.unit 0).settings.attempt (.ofDiagonal #v[1]) .identity #v[1] #v[3] = .ok ⟨#v[3], 0, true⟩ :=
    Settings.attempt_noRounds rfl rfl rfl rfl rfl le_rfl hb
  have hx : (none : Option (Array ℝ)).getD #[3] = (#v[3] : Vec ℝ 1).toArray := rfl
  refine ⟨_, solve_run (s := ⟨.unit 0, #[3]⟩) hx (Solver.solve_run (unit_system 0) hattempt rfl), rfl, ?_⟩
  rw [unit_mulVec, single_sub, norm_single, norm_single]
  norm_num

end Krylov

end Magnetofluid
