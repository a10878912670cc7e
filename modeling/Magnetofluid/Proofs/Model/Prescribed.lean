import Mathlib
import Magnetofluid.Model.Configuration
import Magnetofluid.Proofs.Krylov.Essential
import Magnetofluid.Proofs.Model.Evaluation
import Magnetofluid.Proofs.Simulation.Assembly

/-!
# Prescribed values under approximate solves

The solves of the mass matrix are approximate, and yet the current has the prescribed values exactly and the rates
vanish on the essential nodes exactly, if they are made by conjugate gradients with a preconditioner that treats each
node by itself.

* `ModelDescription.massSolve_of_toModel`: the solves of the mass matrix that a described model has.
* `Model.recoverCurrent_prescribed`, `Model.rate_prescribed`: current and rates on the essential nodes.
* `conjugateGradient_keeps_essential`: solver contexts and described models.
-/

namespace Magnetofluid

open Krylov

/-! ### The mass solver of a description -/

namespace Krylov

variable {n : ℕ} {A : AnyMatrix ℝ} {named : List (String × Value ℝ)} {s : Solver ℝ}

theorem Solver.make_of_ofNamed (h : ofNamed A named = .ok s) : make A s.settings = .ok { s with report := .fresh } := by
  obtain ⟨_, -, h⟩ := except_bind_eq_ok.1 h
  obtain ⟨settings, -, hmake⟩ := except_bind_eq_ok.1 h
  obtain ⟨P, hP, h⟩ := except_bind_eq_ok.1 hmake
  obtain rfl := Except.ok.inj h
  exact hmake

theorem Settings.iterative_of_ofNamed {settings : Settings ℝ} (h : ofNamed named = .ok settings) :
    settings.iterative = ((namedValue? named "iterative_mode").getD (.bool true)).isTrue := by
  unfold ofNamed at h
  split at h
  · cases h
  dsimp only at h
  split at h
  · obtain ⟨method, -, h⟩ := except_bind_eq_ok.1 h
    obtain rfl := Except.ok.inj h
    rfl
  · cases h

end Krylov

/-- The solves of a section of the settings start from the vector that they overwrite. -/
theorem SolverSettings.iterative_of_linearSolver {n : ℕ} {entries : List (Value ℝ × Value ℝ)} {A : Sparse ℝ n n}
    {sectionName label : String} {s : Solver ℝ} (h : linearSolver entries A sectionName label = .ok s) :
    s.settings.iterative = true ∧ Solver.make ⟨n, n, A⟩ s.settings = .ok { s with report := .fresh } := by
  unfold linearSolver at h
  obtain ⟨v, -, h⟩ := except_bind_eq_ok.1 h
  obtain ⟨named, -, h⟩ := except_bind_eq_ok.1 h
  by_cases hown : (named.any fun e => ["mat", "backend", "iterative_mode", "name"].contains e.1) = true
  · rw [if_pos hown] at h
    cases h
  rw [if_neg hown] at h
  obtain ⟨backend, -, h⟩ := except_bind_eq_ok.1 h
  refine ⟨?_, Solver.make_of_ofNamed h⟩
  obtain ⟨_, -, h⟩ := except_bind_eq_ok.1 h
  obtain ⟨settings, hsettings, h⟩ := except_bind_eq_ok.1 h
  obtain ⟨_, -, h⟩ := except_bind_eq_ok.1 h
  obtain rfl := Except.ok.inj h
  -- the section names no mode, so that the one that is appended counts
  have hnone : ∀ e ∈ named, e.1 ≠ "iterative_mode" := by
    intro e he hname
    refine hown (List.any_eq_true.2 ⟨e, he, ?_⟩)
    rw [hname]
    rfl
  have hfind : named.find? (fun e => !decide (e.1 = "backend") && decide (e.1 = "iterative_mode")) = none := by
    rw [List.find?_eq_none]
    intro e he
    simp [hnone e he]
  rw [Settings.iterative_of_ofNamed hsettings]
  unfold namedValue?
  simp [List.find?_filter, List.find?_append, hfind, Value.isTrue]

noncomputable def NamedModel.massSolver {n : ℕ} (named : NamedModel ℝ n) : Except (Failure ℝ) (Solver ℝ) :=
  SolverSettings.linearSolver named.solver named.model.massSystem "mass" "M_solver"

theorem ModelDescription.massSolve_of_toModel {d : ModelDescription ℝ} {m : Mesh ℝ} {named : NamedModel ℝ m.nodes}
    (h : d.toModel m = .ok named) : SolverSettings.fill d.solver = .ok named.solver ∧
      named.model.massSystem = named.model.mass.eliminate named.model.ess ∧
      ∃ solver, named.massSolver = .ok solver ∧ named.model.massSolve = solver.toLinearSolve m.nodes := by
  unfold toModel at h
  obtain ⟨viscosity, -, h⟩ := except_bind_eq_ok.1 h
  obtain ⟨resistivity, -, h⟩ := except_bind_eq_ok.1 h
  obtain ⟨solver, hfill, h⟩ := except_bind_eq_ok.1 h
  obtain ⟨essential, -, h⟩ := except_bind_eq_ok.1 h
  obtain ⟨ess, -, h⟩ := except_bind_eq_ok.1 h
  obtain ⟨massSolver, hmass, h⟩ := except_bind_eq_ok.1 h
  obtain ⟨stiffnessSolver, -, h⟩ := except_bind_eq_ok.1 h
  obtain ⟨multigridSolver, -, h⟩ := except_bind_eq_ok.1 h
  obtain ⟨⟨preconditioner, entries⟩, -, h⟩ := except_bind_eq_ok.1 h
  obtain ⟨newton, -, h⟩ := except_bind_eq_ok.1 h
  obtain rfl := Except.ok.inj h
  exact ⟨hfill, rfl, massSolver, hmass, rfl⟩

/-! ### Current and rates -/

namespace Model

variable {n : ℕ} {model : Model ℝ n} {mem mem' : Memory ℝ n}

theorem recoverCurrent_prescribed (hmass : KeepsData model.ess model.massSolve) {psi j : Vec ℝ n}
    (h : (model.recoverCurrent psi).run mem = .ok j mem') :
    mem'.current = j ∧ ∀ i ∈ model.ess, j.values i = mem.current.values i := by
  obtain ⟨-, r, hj, rfl⟩ := recoverCurrent_eq_ok.1 h
  -- right-hand side and guess have the prescribed values, the one by elimination
  have hrhs : ∀ i ∈ model.ess, (model.recovery.rhs psi mem.current).values i = mem.current.values i := by
    intro i hi
    unfold CurrentRecovery.rhs Sparse.eliminateRhs
    rw [Vec.values_overwriteOn]
    exact if_pos hi
  refine ⟨rfl, fun i hi => ?_⟩
  rw [hmass _ _ _ _ _ (fun i hi => (hrhs i hi).symm) hj i hi, hrhs i hi]

/-- A rate that is solved for from zeros vanishes on the essential nodes. -/
theorem solveRate_prescribed (hmass : KeepsData model.ess model.massSolve) {load k : Vec ℝ n}
    (h : (model.solveRate load).run mem = .ok k mem') :
    mem'.current = mem.current ∧ model.ess.ZeroOn k.values := by
  obtain ⟨-, r, hk, rfl⟩ := withMass_eq_ok.1 h
  have hload : ∀ i ∈ model.ess, (Vec.zeroOn model.ess load).values i = 0 := by
    rw [Vec.values_zeroOn]
    exact Essential.zeroOn_inner _ _
  refine ⟨rfl, fun i hi => ?_⟩
  rw [hmass _ _ _ _ _ (fun i hi => ?_) hk i hi, hload i hi]
  rw [hload i hi, Vec.values_zeros, Pi.zero_apply]

theorem rate_prescribed (hmass : KeepsData model.ess model.massSolve) {x k : State ℝ n}
    (h : (model.rate x).run mem = .ok k mem') :
    model.ess.ZeroOn k.psi.values ∧ model.ess.ZeroOn k.w.values ∧
      ∀ i ∈ model.ess, mem'.current.values i = mem.current.values i := by
  simp only [rate, run_get_bind, run_modify_bind, run_bind_eq_ok, run_pure_eq_ok] at h
  obtain ⟨j, _, hcurrent, psi, _, hflux, w, _, hvorticity, rfl, rfl⟩ := h
  obtain ⟨hj, hkept⟩ := recoverCurrent_prescribed hmass hcurrent
  obtain ⟨hcurrent₁, hpsi⟩ := solveRate_prescribed hmass hflux
  obtain ⟨hcurrent₂, hw⟩ := solveRate_prescribed hmass hvorticity
  refine ⟨hpsi, hw, ?_⟩
  rw [hcurrent₂, hcurrent₁, hj]
  exact hkept

section Answers

variable (hmass : ∀ b x r, ∃ y r', (model.massSolve b x).run r = .ok y r') (hsolvable : mem.solvable = true)
include hmass hsolvable

theorem exists_recoverCurrent (psi : Vec ℝ n) : ∃ j mem', (model.recoverCurrent psi).run mem = .ok j mem' := by
  obtain ⟨j, r, hj⟩ := hmass (model.recovery.rhs psi mem.current) mem.current mem.massReport
  exact ⟨_, _, recoverCurrent_eq_ok.2 ⟨hsolvable, r, hj, rfl⟩⟩

theorem exists_solveRate (load : Vec ℝ n) :
    ∃ k mem', (model.solveRate load).run mem = .ok k mem' ∧ mem'.solvable = true := by
  obtain ⟨k, r, hk⟩ := hmass (Vec.zeroOn model.ess load) (Vec.zeros n) mem.massReport
  exact ⟨_, _, withMass_eq_ok.2 ⟨hsolvable, r, hk, rfl⟩, hsolvable⟩

/-- Where each solve has an answer there is a rate. -/
theorem exists_rate_of_answers (x : State ℝ n) : ∃ k mem', (model.rate x).run mem = .ok k mem' := by
  have hbrackets : ({ mem with flow := some (model.bracket x.phi), field := some (model.bracket x.psi) } :
      Memory ℝ n).solvable = true := hsolvable
  obtain ⟨j, mem₁, hj⟩ := exists_recoverCurrent hmass hbrackets x.psi
  have hsolvable₁ : mem₁.solvable = true := by
    obtain ⟨hsolvable₁, r, -, rfl⟩ := recoverCurrent_eq_ok.1 hj
    exact hsolvable₁
  obtain ⟨psi, mem₂, hpsi, hsolvable₂⟩ :=
    exists_solveRate hmass hsolvable₁ (model.fluxLoad (model.bracket x.phi) mem₁.forcing x.psi)
  obtain ⟨w, mem₃, hw, -⟩ := exists_solveRate hmass hsolvable₂
    (model.vorticityLoad (model.bracket x.phi) (model.bracket x.psi) j x.w)
  refine ⟨⟨Vec.zeros n, psi, w⟩, mem₃, ?_⟩
  unfold rate
  rw [run_modify_bind, run_bind_of_eq_ok hj, run_get_bind, run_bind_of_eq_ok hpsi, run_bind_of_eq_ok hw]
  rfl

end Answers

end Model

/-- **Conjugate gradients keep essential data.**  Made for a matrix with essential positions eliminated, without
preconditioner or with division by the diagonal, with any tolerances and any limit, and after any solves: from a
right-hand side and a guess that agree on the essential positions, a solve that returns leaves the values of the
right-hand side there.  A described model whose mass matrix is solved in this way recovers currents with exactly the
prescribed values, and its rates vanish on the essential nodes. -/
theorem conjugateGradient_keeps_essential :
    (∀ {n : ℕ} (A : Sparse ℝ n n) (ess : Essential n) (settings : Krylov.Settings ℝ) (made : Solver ℝ)
      (report : Report ℝ) (b x : Vec ℝ n) (t : Krylov.Session ℝ), settings.method = .cg →
      settings.preconditioner.Entrywise → Solver.make ⟨n, n, A.eliminate ess⟩ settings = .ok made →
      settings.Consistent ess b x →
      (Krylov.Session.solve b.toArray none).run ⟨{ made with report }, x.toArray⟩ = .ok () t →
      ∃ y : Vec ℝ n, t.x = y.toArray ∧ ∀ i ∈ ess, y.values i = b.values i) ∧
    ∀ {m : Mesh ℝ} (d : ModelDescription ℝ) (named : NamedModel ℝ m.nodes) (solver : Solver ℝ)
      (mem mem' : Memory ℝ m.nodes), d.toModel m = .ok named → named.massSolver = .ok solver →
      solver.settings.method = .cg → solver.settings.preconditioner.Entrywise →
      (∀ psi j, (named.model.recoverCurrent psi).run mem = .ok j mem' →
        mem'.current = j ∧ ∀ i ∈ named.model.ess, j.values i = mem.current.values i) ∧
      ∀ x k, (named.model.rate x).run mem = .ok k mem' →
        named.model.ess.ZeroOn k.psi.values ∧ named.model.ess.ZeroOn k.w.values ∧
          ∀ i ∈ named.model.ess, mem'.current.values i = mem.current.values i := by
  constructor
  · intro n A ess settings made report b x t hmethod hkind hmade hx h
    have hfixes : made.Fixes A ess := .of_make hmethod hkind hmade
    have hsettings : made.settings = settings := by
      obtain ⟨P, -, hmade⟩ := except_bind_eq_ok.1 hmade
      exact (congrArg Solver.settings (Except.ok.inj hmade)).symm
    subst hsettings
    exact Krylov.Session.solve_fixed (hfixes.withReport report) rfl hx h
  · intro m d named solver mem mem' hnamed hsolver hmethod hkind
    obtain ⟨-, hsystem, solver', hsolver', hsolve⟩ := ModelDescription.massSolve_of_toModel hnamed
    obtain rfl := Except.ok.inj (hsolver'.symm.trans hsolver)
    obtain ⟨hiterative, hmade⟩ := SolverSettings.iterative_of_linearSolver hsolver
    rw [hsystem] at hmade
    have hmass : KeepsData named.model.ess named.model.massSolve := by
      rw [hsolve]
      exact Solver.Fixes.keepsData ⟨hmethod, hkind, hmade⟩ hiterative
    exact ⟨fun _ _ h => Model.recoverCurrent_prescribed hmass h, fun _ _ h => Model.rate_prescribed hmass h⟩

/-! ### A model without rounds -/

/-- Without rounds every attempt of conjugate gradients is accepted. -/
theorem Krylov.Solver.exists_solve_noRounds {n : ℕ} {s : Solver ℝ} {A : Sparse ℝ n n} {P : Preconditioner ℝ n}
    {rtol atol : ℝ} (hsystem : s.system? n = .ok (A, P)) (hmethod : s.settings.method = .cg)
    (hrtol : s.settings.rtol = .ok rtol) (hatol : s.settings.atol = .ok atol)
    (hlimit : s.settings.maxIter = .ok (some 0)) (hiterative : s.settings.iterative = true) (hnonneg : 0 ≤ atol)
    (b x : Vec ℝ n) (r : Report ℝ) :
    ∃ y r', (s.toLinearSolve n b x).run r = .ok y r' := by
  have hattempt : ∃ y, s.settings.attempt A P b x = .ok ⟨y, 0, true⟩ := by
    by_cases hb : Vec.norm b = 0
    · have hneg : ¬ Scalar.lt atol 0 = true := by simpa using hnonneg
      have hzero : Scalar.isZero (Vec.norm b) = true := by simpa using hb
      refine ⟨b, ?_⟩
      simp only [Settings.attempt, hrtol, hatol, bind, Except.bind, if_neg hneg, if_pos hzero]
      rfl
    · exact ⟨x, Settings.attempt_noRounds hmethod hrtol hatol hlimit hiterative hnonneg hb⟩
  obtain ⟨y, hattempt⟩ := hattempt
  show ∃ y r', s.toLinearSolve n b x r = .ok y r'
  unfold Solver.toLinearSolve
  rw [Solver.solve_run (s := { s with report := r }) hsystem hattempt rfl]
  exact ⟨_, _, rfl⟩

/-- A model on the unit square whose mass matrix is solved by conjugate gradients that are allowed no rounds. -/
noncomputable def hasty : ModelDescription ℝ where
  markers := .list [.int 1, .int 1, .int 1, .int 1]
  viscosity := .int 0
  resistivity := .int 1
  solver := .ofNames [("mass", .ofNames [("preconditioner", .text "none"), ("max_iter", .int 0)]),
    ("stiffness", .ofNames [("preconditioner", .text "none")])]

theorem exists_toModel_hasty : ∃ named, hasty.toModel Mesh.unitSquare = .ok named := by
  have hessential : hasty.essentialIndices Mesh.unitSquare = .ok [0, 1, 2, 3, 5, 6, 7, 8] :=
    except_bind_eq_ok.2 ⟨_, Simulation.indices_sides, rfl⟩
  have hok : (hasty.toModel Mesh.unitSquare).isOk = true := by
    unfold ModelDescription.toModel
    rw [hessential]
    rfl
  cases hmodel : hasty.toModel Mesh.unitSquare with
  | error e =>
    rw [hmodel] at hok
    cases hok
  | ok named => exact ⟨named, rfl⟩

theorem massSolver_hasty {named : NamedModel ℝ Mesh.unitSquare.nodes} (h : hasty.toModel Mesh.unitSquare = .ok named) :
    ∃ solver, named.massSolver = .ok solver ∧
      solver.settings = ⟨.cg, .none, .ok 1e-12, .ok 0.0, .ok (some 0), true, "M_solver"⟩ := by
  obtain ⟨hfill, -, solver, hsolver, -⟩ := ModelDescription.massSolve_of_toModel h
  have hsettings : (SolverSettings.fill hasty.solver >>= fun entries => Solver.settings <$>
      SolverSettings.linearSolver entries named.model.massSystem "mass" "M_solver") =
      .ok ⟨.cg, .none, .ok 1e-12, .ok 0.0, .ok (some 0), true, "M_solver"⟩ := rfl
  unfold NamedModel.massSolver at hsolver
  rw [hfill] at hsettings
  replace hsettings : Solver.settings <$>
      SolverSettings.linearSolver named.solver named.model.massSystem "mass" "M_solver" = _ := hsettings
  rw [hsolver] at hsettings
  exact ⟨solver, hsolver, Except.ok.inj hsettings⟩

/-- Two unknowns after one round, and a model whose solves are all cut short, with the current one on the boundary. -/
theorem conjugateGradient_keeps_essential_examples :
    (∃ t : Krylov.Session ℝ, (Krylov.Session.solve (#v[5, 4] : Vec ℝ 2).toArray none).run
        ⟨.twoRounds, (#v[5, 0] : Vec ℝ 2).toArray⟩ = .ok () t ∧
      ∃ y : Vec ℝ 2, t.x = y.toArray ∧ ∀ i ∈ firstOfTwo, y.values i = Vec.values #v[5, 4] i) ∧
    ∃ named mem j mem' k mem'', hasty.toModel Mesh.unitSquare = .ok named ∧ mem.current = Vec.fill _ 1 ∧
      (named.model.recoverCurrent Model.ramp).run mem = .ok j mem' ∧ (∀ i ∈ named.model.ess, j.values i = 1) ∧
      (named.model.rate ⟨Model.vortex, Model.ramp, Model.vortex⟩).run mem = .ok k mem'' ∧
      named.model.ess.ZeroOn k.psi.values ∧ named.model.ess.ZeroOn k.w.values := by
  obtain ⟨hcontext, hmodel⟩ := conjugateGradient_keeps_essential
  constructor
  · have hstart : (none : Option (Array ℝ)).getD (#v[5, 0] : Vec ℝ 2).toArray = (#v[5, 0] : Vec ℝ 2).toArray := rfl
    have hrun := Krylov.Session.solve_run (s := ⟨.twoRounds, _⟩) hstart
      (Solver.solve_run Solver.twoRounds_system Solver.twoRounds_attempt rfl)
    have hx : Solver.twoRounds.settings.Consistent firstOfTwo #v[5, 4] #v[5, 0] := by
      refine (if_pos rfl).mpr fun i hi => ?_
      match i with
      | 0 => rfl
      | 1 => exact absurd hi (by decide)
    exact ⟨_, hrun, hcontext coupled firstOfTwo _ _ .fresh _ _ _ rfl (.inr (.inl rfl)) Solver.make_twoRounds hx hrun⟩
  · obtain ⟨named, hnamed⟩ := exists_toModel_hasty
    obtain ⟨solver, hsolver, hsettings⟩ := massSolver_hasty hnamed
    obtain ⟨-, hsystem, solver', hsolver', hsolve⟩ := ModelDescription.massSolve_of_toModel hnamed
    obtain rfl := Except.ok.inj (hsolver'.symm.trans hsolver)
    have hmethod : solver'.settings.method = .cg := by rw [hsettings]
    have hkind : solver'.settings.preconditioner.Entrywise := by rw [hsettings]; exact .inr (.inl rfl)
    have hanswers : ∀ b x r, ∃ y r', (named.model.massSolve b x).run r = .ok y r' := by
      have hmade := (SolverSettings.iterative_of_linearSolver hsolver).2
      rw [hsystem] at hmade
      obtain ⟨P, hP, -⟩ := Solver.Fixes.system ⟨hmethod, hkind, hmade⟩
      have hatol : (0 : ℝ) ≤ 0.0 := by norm_num
      rw [hsolve]
      exact Solver.exists_solve_noRounds hP hmethod (by rw [hsettings]) (by rw [hsettings]) (by rw [hsettings])
        (by rw [hsettings]) hatol
    let mem : Memory ℝ Mesh.unitSquare.nodes := { Memory.fresh named.model with current := Vec.fill _ 1 }
    have hsolvable : mem.solvable = true := rfl
    obtain ⟨j, mem', hj⟩ := Model.exists_recoverCurrent hanswers hsolvable Model.ramp
    obtain ⟨k, mem'', hk⟩ := Model.exists_rate_of_answers hanswers hsolvable ⟨Model.vortex, Model.ramp, Model.vortex⟩
    obtain ⟨-, hprescribed⟩ := (hmodel hasty named solver' mem mem' hnamed hsolver hmethod hkind).1 _ _ hj
    obtain ⟨hpsi, hw, -⟩ := (hmodel hasty named solver' mem mem'' hnamed hsolver hmethod hkind).2 _ _ hk
    refine ⟨named, mem, j, mem', k, mem'', hnamed, rfl, hj, fun i hi => ?_, hk, hpsi, hw⟩
    rw [hprescribed i hi]
    exact congrFun (Vec.values_fill 1) i

end Magnetofluid
