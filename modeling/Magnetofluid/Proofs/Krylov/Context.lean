import Mathlib
import Magnetofluid.Krylov.Session
import Magnetofluid.Proofs.Krylov.Preconditioner
import Magnetofluid.Proofs.Linear.Vector
import Magnetofluid.Proofs.Outcome

/-!
# Actions on solver contexts

* `Solver.keeps_solve`, `Solver.keeps_solveAny`: a solve changes nothing of its context but the report.
* `Solver.solve_ok`: a solve returns the vector of an attempt that says it has converged.
* `Session.solve_eq_ok`, `Session.solve_eq_error`: what a solve does to the vector of a session.
-/

namespace Magnetofluid

variable {n : ℕ}

/-- A vector fills a vector of its length. -/
theorem AnyTensor.fill?_vector {α : Type} {m : ℕ} (h : n = m) (y : Vector α n) :
    AnyTensor.fill? m ⟨[n], y⟩ = some (y.cast h) := by
  subst h
  have hdrop : dropOnes 1 (⟨[n], y⟩ : AnyTensor α) = ⟨[n], y⟩ := by
    simp [dropOnes.eq_def]
  have hmap : Vector.mapM (fun a : α => some a) y = some y :=
    (Vector.mapM_pure (m := Option) id).trans (by simp)
  rw [fill?, hdrop]
  simp [stretch?, reaches, Tensor.stretch?]
  exact hmap

namespace Krylov

namespace Solver

section scalars

variable {K : Type} [Scalar K] {P : Solver K → Prop}

/-- A solve changes nothing but the report. -/
theorem keeps_solve (hP : ∀ s report, P s → P { s with report }) (b x : Vec K n) : Keeps P (solve b x) := by
  refine .get_bind fun s hs => ?_
  split
  · exact .throw_bind _ _
  · refine .bind (.set (hP s _ hs)) fun _ => .bind (.ofExcept _) fun _ => .bind (.ofExcept _) fun _ =>
      .bind (.set (hP s _ hs)) fun _ => ?_
    split
    · exact .pure _
    · exact .throw _

theorem solve_ok {s t : Solver K} {b x y : Vec K n} (h : (solve b x).run s = .ok y t) :
    t.report.converged = true ∧ ∃ A P result, s.system? n = .ok (A, P) ∧ s.settings.attempt A P b x = .ok result ∧
      result.converged = true ∧ result.solution = y := by
  unfold solve at h
  rw [run_get_bind] at h
  by_cases hnone : s.matrix.isNone = true
  · rw [if_pos hnone] at h
    exact absurd h nofun
  rw [if_neg hnone, run_set_bind] at h
  obtain ⟨⟨A, P⟩, _, hlook, h⟩ := run_bind_eq_ok.1 h
  obtain ⟨hsystem, rfl⟩ := run_ofExcept_eq_ok.1 hlook
  obtain ⟨result, _, hlook, h⟩ := run_bind_eq_ok.1 h
  obtain ⟨hattempt, rfl⟩ := run_ofExcept_eq_ok.1 hlook
  rw [run_set_bind] at h
  by_cases hconverged : result.converged = true
  · rw [if_pos hconverged] at h
    obtain ⟨rfl, rfl⟩ := run_pure_eq_ok.1 h
    exact ⟨hconverged, A, P, result, hsystem, hattempt, hconverged, rfl⟩
  · rw [if_neg hconverged] at h
    exact absurd h run_throw_ne_ok

omit [Scalar K] in
theorem isNone_matrix_of_system? {s : Solver K} {p : Sparse K n n × Preconditioner K n}
    (h : s.system? n = .ok p) : ¬ s.matrix.isNone = true := by
  intro hnone
  unfold system? at h
  rw [Option.isNone_iff_eq_none.1 hnone] at h
  cases h

/-- How a solve goes that ends with an attempt that says it has converged. -/
theorem solve_run {s : Solver K} {A : Sparse K n n} {P : Preconditioner K n} {b x : Vec K n} {result : Attempt K n}
    (hsystem : s.system? n = .ok (A, P)) (hattempt : s.settings.attempt A P b x = .ok result)
    (hconverged : result.converged = true) :
    (solve b x).run s = .ok result.solution
      { s with report := ⟨true, result.iterations, Vec.norm (b - A.mulVec result.solution)⟩ } := by
  unfold solve
  rw [run_get_bind, if_neg (isNone_matrix_of_system? hsystem), run_set_bind]
  refine run_bind_eq_ok.2 ⟨_, _, run_ofExcept_eq_ok.2 ⟨hsystem, rfl⟩, ?_⟩
  refine run_bind_eq_ok.2 ⟨_, _, run_ofExcept_eq_ok.2 ⟨hattempt, rfl⟩, ?_⟩
  rw [run_set_bind, if_pos hconverged, hconverged]
  rfl

/-- How a solve goes that ends with an attempt that has run out of rounds. -/
theorem solve_run_exhausted {s : Solver K} {A : Sparse K n n} {P : Preconditioner K n} {b x : Vec K n}
    {result : Attempt K n} (hsystem : s.system? n = .ok (A, P)) (hattempt : s.settings.attempt A P b x = .ok result)
    (hconverged : result.converged = false) :
    (solve b x).run s = .error (.notConverged s.settings.name result.iterations (-1))
      { s with report := ⟨false, result.iterations, Vec.norm (b - A.mulVec result.solution)⟩ } := by
  unfold solve
  rw [run_get_bind, if_neg (isNone_matrix_of_system? hsystem), run_set_bind]
  refine run_bind_eq_error.2 (.inr ⟨_, _, run_ofExcept_eq_ok.2 ⟨hsystem, rfl⟩, ?_⟩)
  refine run_bind_eq_error.2 (.inr ⟨_, _, run_ofExcept_eq_ok.2 ⟨hattempt, rfl⟩, ?_⟩)
  rw [run_set_bind, hconverged]
  rfl

end scalars

variable {K : Type} [RealText K]

def guessOf (s : Solver K) (x : Vec K n) : Vec K n := if s.settings.iterative then x else Vec.zeros n

theorem solveAny_toArray (s : Solver K) (b x : Vec K n) :
    (solveAny b.toArray x.toArray).run s = (Vector.toArray <$> solve b (s.guessOf x)).run s := by
  have hguess : (if s.settings.iterative then x.toArray else Array.replicate b.toArray.size 0) =
      (s.guessOf x).toArray := by
    unfold guessOf Vec.zeros
    split <;> simp
  unfold solveAny
  rw [run_get_bind, hguess]
  generalize s.guessOf x = guess
  obtain ⟨guess, rfl⟩ := guess
  simp only [Vec.ofArray?_toArray, AnyTensor.fill?_vector x.size_toArray.symm]
  rfl

/-- A solve for vectors of any length changes nothing but the report. -/
theorem keeps_solveAny {P : Solver K → Prop} (hP : ∀ s report, P s → P { s with report }) (b x : Array K) :
    Keeps P (solveAny b x) := by
  refine .bind .get fun s => ?_
  dsimp only
  split
  · refine .bind (keeps_solve hP _ _) fun y => ?_
    split
    · exact .pure _
    · exact .throw _
  · refine .get_bind fun s hs => ?_
    split
    · exact .throw_bind _ _
    · exact .bind (.modify fun t ht => hP t _ ht) fun _ => .throw _

end Solver

namespace Session

section action

variable {K α : Type} {act : EStateM (Failure K) (Solver K) α} {s t : Session K}

theorem onSolver_eq_ok {a : α} :
    (onSolver act).run s = .ok a t ↔ ∃ solver, act.run s.solver = .ok a solver ∧ t = { s with solver } := by
  show onSolver act s = _ ↔ _
  unfold onSolver
  cases act.run s.solver with
  | ok b solver => simp [eq_comm]
  | error e solver => simp

theorem onSolver_eq_error {e : Failure K} :
    (onSolver act).run s = .error e t ↔ ∃ solver, act.run s.solver = .error e solver ∧ t = { s with solver } := by
  show onSolver act s = _ ↔ _
  unfold onSolver
  cases act.run s.solver with
  | ok b solver => simp
  | error e solver => simp [eq_comm]

end action

variable {K : Type} [RealText K]

/-- A solve that succeeds puts the solution in the place of the vector. -/
theorem solve_eq_ok {s t : Session K} {b x : Vec K n} {start : Option (Array K)} {u : Unit}
    (hx : start.getD s.x = x.toArray) (h : (solve b.toArray start).run s = .ok u t) :
    ∃ y, (Solver.solve b (s.solver.guessOf x)).run s.solver = .ok y t.solver ∧ t.x = y.toArray := by
  unfold solve at h
  rw [run_modify_bind, run_get_bind, hx] at h
  obtain ⟨xs, _, hact, h⟩ := run_bind_eq_ok.1 h
  obtain ⟨solver, hsolver, rfl⟩ := onSolver_eq_ok.1 hact
  obtain rfl := run_modify_eq_ok.1 h
  rw [Solver.solveAny_toArray] at hsolver
  obtain ⟨y, hy, rfl⟩ := run_map_eq_ok.1 hsolver
  exact ⟨y, hy, rfl⟩

theorem solve_run {s : Session K} {b x y : Vec K n} {start : Option (Array K)} {solver : Solver K}
    (hx : start.getD s.x = x.toArray) (h : (Solver.solve b (s.solver.guessOf x)).run s.solver = .ok y solver) :
    (solve b.toArray start).run s = .ok () ⟨solver, y.toArray⟩ := by
  unfold solve
  rw [run_modify_bind, run_get_bind, hx]
  refine run_bind_eq_ok.2 ⟨y.toArray, _, onSolver_eq_ok.2 ⟨solver, ?_, rfl⟩, run_modify_eq_ok.2 rfl⟩
  rw [Solver.solveAny_toArray]
  exact run_map_eq_ok.2 ⟨y, h, rfl⟩

theorem solve_run_error {s : Session K} {b x : Vec K n} {start : Option (Array K)} {e : Failure K} {solver : Solver K}
    (hx : start.getD s.x = x.toArray) (h : (Solver.solve b (s.solver.guessOf x)).run s.solver = .error e solver) :
    (solve b.toArray start).run s = .error e ⟨solver, x.toArray⟩ := by
  unfold solve
  rw [run_modify_bind, run_get_bind, hx]
  refine run_bind_eq_error.2 (.inl (onSolver_eq_error.2 ⟨solver, ?_, rfl⟩))
  rw [Solver.solveAny_toArray, EStateM.run_map, h]
  rfl

/-- A solve that fails leaves the vector that it was to start from. -/
theorem solve_eq_error {s t : Session K} {b : Array K} {start : Option (Array K)} {e : Failure K}
    (h : (solve b start).run s = .error e t) : t.x = start.getD s.x := by
  unfold solve at h
  rw [run_modify_bind, run_get_bind] at h
  rcases run_bind_eq_error.1 h with h | ⟨_, _, -, h⟩
  · obtain ⟨solver, -, rfl⟩ := onSolver_eq_error.1 h
    rfl
  · exact absurd h run_modify_ne_error

end Session

end Krylov

end Magnetofluid
