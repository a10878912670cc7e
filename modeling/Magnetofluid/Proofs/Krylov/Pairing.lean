import Mathlib
import Magnetofluid.Proofs.Exact.Text
import Magnetofluid.Proofs.Krylov.Context
import Magnetofluid.Proofs.Linear.Sparse

/-!
# Matrix and preconditioner of a solver context

A context is paired if its preconditioner is the one built from the matrix it holds.  It is so when it is made, and
solving, emptying and a change of the matrix that succeeds keep it so.  A change of the matrix that fails does not: the
context then has the new matrix with the preconditioner it had before, until it is emptied or given another matrix.

* `Solver.setMatrix_cases`: what a change of the matrix does, in either case.
* `Solver.paired_iff_not_torn`: the pairing over all sequences of calls.
-/

namespace Magnetofluid.Krylov

inductive Call (K : Type)
  | setMatrix (A : AnyMatrix K)
  | solve (b x : Array K)
  | release

namespace Call

variable {K : Type} [RealText K]

/-- What a call does; whether it succeeds or fails, the caller goes on. -/
def act : Call K → EStateM (Failure K) (Solver K) Unit
  | setMatrix A => Solver.setMatrix A
  | solve b x => discard (Solver.solveAny b x)
  | release => modify Solver.release

def run (calls : List (Call K)) (s : Solver K) : Solver K := calls.foldl (fun s c => stateAfter c.act s) s

theorem run_concat (calls : List (Call K)) (c : Call K) (s : Solver K) :
    run (calls ++ [c]) s = stateAfter c.act (run calls s) := by
  unfold run
  rw [List.foldl_append]
  rfl

end Call

namespace Solver

variable {K : Type} [RealText K]

/-- The preconditioner is the one of the matrix. -/
def Paired (s : Solver K) : Prop :=
  ∀ A, s.matrix = some A → ∃ P, preconditionerOf A s.settings.preconditioner = .ok P ∧ s.preconditioner = some P

/-- The last change of the matrix failed, and the context has the new matrix with the preconditioner it had before. -/
def Torn (made : Solver K) (calls : List (Call K)) : Prop :=
  ∃ earlier B later e, calls = earlier ++ .setMatrix B :: later ∧ (∀ c ∈ later, ∃ b x, c = .solve b x) ∧
    (setMatrix B).run (Call.run earlier made) = .error e { Call.run earlier made with matrix := some B } ∧
    (Call.run calls made).matrix = some B ∧
    (Call.run calls made).preconditioner = (Call.run earlier made).preconditioner

/-! ### One call -/

section setMatrix

variable {A : AnyMatrix K} {s : Solver K}

theorem setMatrix_of_ok {P : AnyPreconditioner K} (h : preconditionerOf A s.settings.preconditioner = .ok P) :
    (setMatrix A).run s = .ok () { s with matrix := some A, preconditioner := some P } := by
  unfold setMatrix
  rw [run_modify_bind, run_get_bind]
  simp only [h]
  rfl

theorem setMatrix_of_error {e : Failure K} (h : preconditionerOf A s.settings.preconditioner = .error e) :
    (setMatrix A).run s = .error e { s with matrix := some A } := by
  unfold setMatrix
  rw [run_modify_bind, run_get_bind]
  simp only [h]
  rfl

/-- A change of the matrix builds the preconditioner and has it, or keeps the one of another matrix. -/
theorem setMatrix_cases (A : AnyMatrix K) (s : Solver K) :
    (∃ P, preconditionerOf A s.settings.preconditioner = .ok P ∧
      stateAfter (setMatrix A) s = { s with matrix := some A, preconditioner := some P }) ∨
    ∃ e, (setMatrix A).run s = .error e { s with matrix := some A } ∧
      stateAfter (setMatrix A) s = { s with matrix := some A } := by
  unfold stateAfter
  cases h : preconditionerOf A s.settings.preconditioner with
  | ok P => exact .inl ⟨P, rfl, by rw [setMatrix_of_ok h]⟩
  | error e => exact .inr ⟨e, setMatrix_of_error h, by rw [setMatrix_of_error h]⟩

end setMatrix

/-- A solve changes neither settings nor matrix nor preconditioner. -/
theorem stateAfter_solve (b x : Array K) (s : Solver K) :
    (stateAfter (Call.solve b x).act s).settings = s.settings ∧ (stateAfter (Call.solve b x).act s).matrix = s.matrix ∧
      (stateAfter (Call.solve b x).act s).preconditioner = s.preconditioner := by
  have h : Keeps (fun t => t.settings = s.settings ∧ t.matrix = s.matrix ∧ t.preconditioner = s.preconditioner)
      (Call.solve b x).act := .bind (keeps_solveAny (fun _ _ h => h) b x) fun _ => .pure _
  exact h s ⟨rfl, rfl, rfl⟩

theorem settings_act (c : Call K) (s : Solver K) : (stateAfter c.act s).settings = s.settings := by
  cases c with
  | setMatrix A =>
    show (stateAfter (setMatrix A) s).settings = _
    obtain ⟨P, -, hafter⟩ | ⟨e, -, hafter⟩ := setMatrix_cases A s
    · rw [hafter]
    · rw [hafter]
  | solve b x => exact (stateAfter_solve b x s).1
  | release => rfl

/-! ### All calls -/

theorem settings_run (calls : List (Call K)) (s : Solver K) : (Call.run calls s).settings = s.settings := by
  induction calls using List.reverseRecOn with
  | nil => rfl
  | append_singleton calls c ih => rw [Call.run_concat, settings_act, ih]

theorem make_paired {A : AnyMatrix K} {settings : Settings K} {made : Solver K} (h : make A settings = .ok made) :
    made.Paired := by
  obtain ⟨P, hP, hmade⟩ := except_bind_eq_ok.1 h
  obtain rfl := Except.ok.inj hmade
  rintro B hB
  obtain rfl := Option.some.inj hB
  exact ⟨P, hP, rfl⟩

theorem paired_or_torn {made : Solver K} (hmade : made.Paired) (calls : List (Call K)) :
    (Call.run calls made).Paired ∨ Torn made calls := by
  -- on the last call: a change of the matrix decides anew, and emptying pairs trivially, but a solve leaves a tear as it is
  induction calls using List.reverseRecOn with
  | nil => exact .inl hmade
  | append_singleton calls c ih =>
    cases c with
    | setMatrix B =>
      obtain ⟨P, hP, hafter⟩ | ⟨e, hrun, hafter⟩ := setMatrix_cases B (Call.run calls made)
      · left
        rw [Call.run_concat]
        unfold Call.act
        rw [hafter]
        rintro A hA
        obtain rfl := Option.some.inj hA
        exact ⟨P, hP, rfl⟩
      · right
        refine ⟨calls, B, [], e, rfl, nofun, hrun, ?_⟩
        rw [Call.run_concat]
        unfold Call.act
        rw [hafter]
        exact ⟨rfl, rfl⟩
    | solve b x =>
      obtain ⟨hsettings, hmatrix, hpreconditioner⟩ := stateAfter_solve b x (Call.run calls made)
      rw [← Call.run_concat] at hsettings hmatrix hpreconditioner
      rcases ih with hpaired | ⟨earlier, B, later, e, rfl, hlater, hrun, hB, hkept⟩
      · left
        intro A hA
        rw [hsettings, hpreconditioner]
        exact hpaired A (hmatrix ▸ hA)
      · right
        refine ⟨earlier, B, later ++ [.solve b x], e, by simp, ?_, hrun, hmatrix.trans hB, hpreconditioner.trans hkept⟩
        intro c hc
        rcases List.mem_append.1 hc with hc | hc
        · exact hlater c hc
        · exact ⟨b, x, List.mem_singleton.1 hc⟩
    | release =>
      left
      rw [Call.run_concat]
      exact nofun

theorem Torn.not_paired {made : Solver K} {calls : List (Call K)} (h : Torn made calls) :
    ¬ (Call.run calls made).Paired := by
  obtain ⟨earlier, B, later, e, rfl, -, hrun, hB, -⟩ := h
  intro hpaired
  obtain ⟨P, hP, -⟩ := hpaired B hB
  rw [settings_run, ← settings_run earlier] at hP
  rw [setMatrix_of_ok hP] at hrun
  cases hrun

/-- Over all sequences of calls, from the time a context is made: matrix and preconditioner belong together, unless the
last change of the matrix failed. -/
theorem paired_iff_not_torn {A : AnyMatrix K} {settings : Settings K} {made : Solver K}
    (h : make A settings = .ok made) (calls : List (Call K)) :
    (Call.run calls made).Paired ↔ ¬ Torn made calls := by
  constructor
  · exact fun hpaired htorn => htorn.not_paired hpaired
  · exact (paired_or_torn (make_paired h) calls).resolve_right

/-! ### One unknown -/

noncomputable def single (a : ℝ) : AnyMatrix ℝ := ⟨1, 1, .ofDiagonal #v[a]⟩

noncomputable def byDiagonal : Settings ℝ := ⟨.cg, .jacobi, .ok 1, .ok 0, .ok (some 1), true, "single"⟩

theorem entry_single (a : ℝ) (i : Fin 1) : (Sparse.ofDiagonal #v[a]).entry i i = a := by
  obtain rfl : i = 0 := Subsingleton.elim _ _
  show SparseRow.entry [(0, a)] 0 = a
  rw [SparseRow.entry_cons]
  simp

theorem make_single {a : ℝ} (ha : a ≠ 0) : ∃ P, make (single a) byDiagonal = .ok ⟨byDiagonal, some (single a), some P, .fresh⟩ :=
  ⟨_, make_jacobi (fun i => by rwa [entry_single]) rfl⟩

theorem preconditionerOf_single_zero : preconditionerOf (single 0) .jacobi = .error .zeroDiagonal := by
  unfold preconditionerOf single
  simp only [AnyMatrix.square?_mk, Preconditioner.build_jacobi_of_zero (entry_single 0 0)]
  rfl

theorem preconditionerOf_single {a : ℝ} (ha : a ≠ 0) : ∃ P, preconditionerOf (single a) .jacobi = .ok P := by
  obtain ⟨P, h⟩ := make_single ha
  obtain ⟨P, hP, -⟩ := except_bind_eq_ok.1 h
  exact ⟨P, hP⟩

theorem paired_iff_not_torn_single :
    ∃ made, make (single 2) byDiagonal = .ok made ∧ (Call.run [.setMatrix (single 0), .setMatrix (single 3)] made).Paired := by
  obtain ⟨P, hmade⟩ := make_single two_ne_zero
  refine ⟨_, hmade, (paired_iff_not_torn hmade _).2 ?_⟩
  rintro ⟨earlier, B, later, e, hcalls, hlater, hrun, -, -⟩
  -- the last change of the matrix is the one to the diagonal `3`, which does not fail
  match earlier with
  | [] =>
    obtain ⟨-, rfl⟩ := List.cons.inj hcalls
    obtain ⟨b, x, hsolve⟩ := hlater _ (List.mem_singleton_self _)
    cases hsolve
  | [c] =>
    obtain ⟨-, hrest⟩ := List.cons.inj hcalls
    obtain ⟨hB, -⟩ := List.cons.inj hrest
    obtain rfl := Call.setMatrix.inj hB
    obtain ⟨Q, hQ⟩ := preconditionerOf_single three_ne_zero
    rw [setMatrix_of_ok (by rw [settings_run]; exact hQ)] at hrun
    cases hrun
  | c :: c' :: earlier =>
    have hlength := congrArg List.length hcalls
    simp at hlength

/-- A diagonal with a zero is refused, and yet the context has its matrix. -/
theorem setMatrix_tears :
    ∃ made t, make (single 2) byDiagonal = .ok made ∧ (setMatrix (single 0)).run made = .error .zeroDiagonal t ∧
      made.Paired ∧ ¬ t.Paired ∧ t.matrix ≠ made.matrix ∧ t.preconditioner = made.preconditioner := by
  obtain ⟨P, hmade⟩ := make_single two_ne_zero
  refine ⟨_, _, hmade, setMatrix_of_error preconditionerOf_single_zero, make_paired hmade, ?_, ?_, rfl⟩
  · intro hpaired
    obtain ⟨Q, hQ, -⟩ := hpaired _ rfl
    cases preconditionerOf_single_zero.symm.trans hQ
  · intro hmatrix
    have hsquare := congrArg (AnyMatrix.square? 1) (Option.some.inj hmatrix)
    simp only [single, AnyMatrix.square?_mk] at hsquare
    have hentry := congrArg (fun A => A.entry 0 0) (Option.some.inj hsquare)
    simp only [entry_single] at hentry
    exact two_ne_zero hentry.symm

end Solver

end Magnetofluid.Krylov
