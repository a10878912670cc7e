import Mathlib
import Magnetofluid.Proofs.Model.ImplicitStep
import Magnetofluid.Proofs.Model.Pair

/-!
# Sessions and their history

A session keeps the current, the step, brackets, guesses and the progress of solves from one call to the next.  None of
it counts for what a call answers, but for the forcing and the essential values of the current, and these only the
set-up changes.

* `Session.Evaluation`, `Session.after`: the calls that evaluate, and the session after any number of them.
* `Session.answerAt`: what a call answers at a vector, and what it leaves of the vector.
* `Session.SetUp.answerAt_after`: after any evaluations the calls answer what they answer in a session that has
  evaluated nothing.
-/

namespace Magnetofluid

open Matrix

/-- The systems that a model solves for currents, rates and stream functions are not singular. -/
structure Model.Nonsingular {n : ℕ} (model : Model ℝ n) : Prop where
  mass : Function.Injective (model.massSystem.toMatrix *ᵥ ·)
  stiffness : Function.Injective (model.stiffnessSystem.toMatrix *ᵥ ·)

theorem State.ofArray_toArray {n : ℕ} (x : State ℝ n) : ofArray n x.toVec.toArray = .ok x := by
  unfold ofArray
  rw [Vec.ofArray?_toArray]
  exact congrArg Except.ok (ofVec_toVec x)

namespace Session

variable {m : Mesh ℝ}

/-! ### Histories -/

/-- A call that evaluates, or that brings another vector or another step to be evaluated. -/
inductive Evaluation (m : Mesh ℝ)
  | replace (xs : Array ℝ)
  | write (x : State ℝ m.nodes)
  | explicitRate (output : Option (Array ℝ))
  | implicitRate (dt : Value ℝ) (output : Option (Array ℝ))
  | updatePotential
  | recoverCurrent
  | bracketFlow (phi : Array ℝ)
  | bracketField (psi : Array ℝ)
  | setStep (dt : Value ℝ) (start : Option (Array ℝ))
  | bracketStepFlow (phi : Array ℝ)
  | bracketStepField (psi : Array ℝ)
  | residual (x : Array ℝ) (output : Option (Array ℝ))
  | gradient (x : Array ℝ)

noncomputable def Evaluation.call : Evaluation m → Call m Unit
  | replace xs => Session.replace xs
  | write x => Session.write x
  | explicitRate output => discard (Session.explicitRate output)
  | implicitRate dt output => discard (Session.implicitRate dt output)
  | updatePotential => discard Session.updatePotential
  | recoverCurrent => discard Session.recoverCurrent
  | bracketFlow phi => discard (Session.bracketFlow phi)
  | bracketField psi => discard (Session.bracketField psi)
  | setStep dt start => Session.setStep dt start
  | bracketStepFlow phi => discard (Session.bracketStepFlow phi)
  | bracketStepField psi => discard (Session.bracketStepField psi)
  | residual x output => discard (Session.residual x output)
  | gradient x => discard (Session.gradient x)

noncomputable def after (history : List (Evaluation m)) (s : Session m) : Session m :=
  history.foldl (fun s e => stateAfter e.call s) s

/-- What a call answers at a vector in the place of the state, and what it leaves there. -/
noncomputable def answerAt {α : Type} (call : Call m α) (xs : Array ℝ) (s : Session m) :
    Except (Failure ℝ) (α × Array ℝ) :=
  answer (do
    replace xs
    let a ← call
    return (a, (← get).state)) s

/-- Two sessions of one model, `P` relates their states and `R` their memories. -/
structure Alike (named : NamedModel ℝ m.nodes) (P : Array ℝ → Array ℝ → Prop)
    (R : Memory ℝ m.nodes → Memory ℝ m.nodes → Prop) (s s' : Session m) : Prop where
  left : s.named = named
  right : s'.named = named
  state : P s.state s'.state
  memory : R s.memory s'.memory

/-- No state is told from another one. -/
abbrev AnyState : Array ℝ → Array ℝ → Prop := fun _ _ => True

/-- Two sessions of one model have the same in all that an evaluation reads of the memory. -/
abbrev Twins (named : NamedModel ℝ m.nodes) (P : Array ℝ → Array ℝ → Prop) : Session m → Session m → Prop :=
  Alike named P (Memory.Alike named.model.ess Step.Any)

variable {named : NamedModel ℝ m.nodes} {P P' : Array ℝ → Array ℝ → Prop}
  {R R' : Memory ℝ m.nodes → Memory ℝ m.nodes → Prop} {s₀ : Session m}

/-! ### What the calls keep -/

section Keeping

theorem keeps_evaluate {α : Type} {act : Model ℝ m.nodes → Action ℝ m.nodes α}
    (h : ∀ mem, Keeps (R mem) (act named.model)) : Keeps (Alike named P R s₀) (evaluate act) := by
  intro s hs
  have hmodel : s.model = named.model := congrArg _ hs.right
  unfold stateAfter
  cases hrun : (evaluate act).run s with
  | ok a t =>
    obtain ⟨memory, hact, rfl⟩ := evaluate_eq_ok.1 hrun
    rw [hmodel] at hact
    exact { hs with memory := (h _).of_run_ok hs.memory hact }
  | error e t =>
    obtain ⟨memory, hact, rfl⟩ := evaluate_eq_error.1 hrun
    rw [hmodel] at hact
    exact { hs with memory := (h _).of_run_error hs.memory hact }

theorem keeps_current : Keeps (Alike named P R s₀) current := .bind .get fun _ => .ofExcept _

theorem keeps_checkOutput (output : Option (Array ℝ)) : Keeps (Alike named P R s₀) (checkOutput output) := by
  cases output with
  | none => exact .pure _
  | some xs => exact .bind (.ofExcept _) fun _ => .pure _

theorem keeps_nodal (xs : Array ℝ) : Keeps (Alike named P R s₀) (nodal xs) := by
  unfold nodal
  split
  · exact .pure _
  · exact .throw _

variable (hmass : Krylov.Sound named.model.massSystem named.model.massSolve)
  (hsystem : named.model.massSystem = named.model.mass.eliminate named.model.ess)
include hmass hsystem

/-- Recovering the current leaves the state, the forcing and the essential values of the current. -/
theorem keeps_recoverCurrent : Keeps (Twins named P s₀) recoverCurrent :=
  .bind keeps_current fun x => keeps_evaluate fun _ => Model.keeps_recoverCurrent hmass hsystem x.psi

/-- No evaluation changes the forcing or the essential values of the current. -/
theorem keeps_call (e : Evaluation m) : Keeps (Twins named AnyState s₀) e.call := by
  have hready : Keeps (Twins named AnyState s₀) (discard (evaluate fun _ => Model.readyStep) : Call m Unit) :=
    .bind (keeps_evaluate fun _ => Model.keeps_readyStep) fun _ => .pure _
  have hwrite : ∀ x, Keeps (Twins named AnyState s₀) (write x) := fun x =>
    .modify fun s hs => { hs with state := trivial, memory := { hs.memory with step := trivial } }
  cases e with
  | replace xs => exact .modify fun s hs => { hs with state := trivial }
  | write x => exact hwrite x
  | explicitRate output =>
    refine .bind (.bind keeps_current fun x => .bind (keeps_checkOutput output) fun _ => ?_) fun _ => .pure _
    refine .bind (keeps_evaluate fun _ => Model.keeps_rate hmass hsystem x) fun k => ?_
    exact .bind (.modify fun s hs => { hs with }) fun _ => .pure _
  | implicitRate dt output =>
    refine .bind (.bind keeps_current fun x => .bind (.ofExcept _) fun size => ?_) fun _ => .pure _
    refine .bind (keeps_evaluate fun _ => Model.keeps_setStep size x) fun _ => ?_
    refine .bind (.modify fun s hs => { hs with }) fun _ => .bind (keeps_checkOutput output) fun _ => ?_
    refine .bind (keeps_evaluate fun _ => Model.keeps_implicitRate size x) fun k => ?_
    exact .bind (.modify fun s hs => { hs with }) fun _ => .pure _
  | updatePotential =>
    refine .bind (.bind keeps_current fun x => ?_) fun _ => .pure _
    exact .bind (keeps_evaluate fun _ => Model.keeps_potential x) fun phi => .bind (hwrite _) fun _ => .pure _
  | recoverCurrent => exact .bind (keeps_recoverCurrent hmass hsystem) fun _ => .pure _
  | bracketFlow phi =>
    refine .bind (.bind .get fun s => .bind (keeps_nodal phi) fun x => ?_) fun _ => .pure _
    exact .bind (.modify fun s hs => { hs with memory := { hs.memory with } }) fun _ => .pure _
  | bracketField psi =>
    refine .bind (.bind .get fun s => .bind (keeps_nodal psi) fun x => ?_) fun _ => .pure _
    exact .bind (.modify fun s hs => { hs with memory := { hs.memory with } }) fun _ => .pure _
  | setStep dt start =>
    refine .bind .get fun s => .bind (.ofExcept _) fun x => .bind (.ofExcept _) fun size => ?_
    exact .bind (keeps_evaluate fun _ => Model.keeps_setStep size x) fun _ => .modify fun s hs => { hs with }
  | bracketStepFlow phi =>
    refine .bind (.bind .get fun s => .bind (keeps_nodal phi) fun x => ?_) fun _ => .pure _
    exact .bind (.modify fun s hs => { hs with memory := { hs.memory with } }) fun _ => .pure _
  | bracketStepField psi =>
    refine .bind (.bind .get fun s => .bind (keeps_nodal psi) fun x => ?_) fun _ => .pure _
    exact .bind (.modify fun s hs => { hs with memory := { hs.memory with } }) fun _ => .pure _
  | residual x output =>
    refine .bind (.bind hready fun _ => .bind (.ofExcept _) fun y => ?_) fun _ => .pure _
    refine .bind (keeps_checkOutput output) fun _ => .bind (keeps_evaluate fun mem => ?_) fun _ =>
      .bind .get fun _ => .pure _
    exact Memory.Alike.keeps_of_retained fun _ => Model.keeps_residual y
  | gradient x =>
    refine .bind (.bind hready fun _ => .bind (.ofExcept _) fun y => keeps_evaluate fun mem => ?_) fun _ => .pure _
    exact Memory.Alike.keeps_of_retained fun _ => Model.keeps_gradient y

theorem keeps_after (history : List (Evaluation m)) {s : Session m} (hs : Twins named AnyState s₀ s) :
    Twins named AnyState s₀ (after history s) := by
  unfold after
  induction history generalizing s with
  | nil => exact hs
  | cons e history ih => exact ih (keeps_call hmass hsystem e s hs)

end Keeping

/-! ### One answer -/

theorem agree_evaluate {α : Type} {act act' : Model ℝ m.nodes → Action ℝ m.nodes α}
    (h : Agree R R' (act named.model) (act' named.model)) :
    Agree (Alike named P R) (Alike named P R') (evaluate act : Call m α) (evaluate act') := by
  intro s s' hs
  have hleft : s.model = named.model := congrArg _ hs.left
  have hright : s'.model = named.model := congrArg _ hs.right
  have hrun := h _ _ hs.memory
  show SameAnswer _ (evaluate act s) (evaluate act' s')
  unfold evaluate
  rw [hleft, hright]
  revert hrun
  generalize (act named.model).run s.memory = r
  generalize (act' named.model).run s'.memory = r'
  rintro (⟨hmemory⟩ | _)
  · exact .ok { hs with memory := hmemory }
  · exact .error

theorem current_run {s : Session m} {x : State ℝ m.nodes} (hx : State.ofArray m.nodes s.state = .ok x) :
    (current : Call m _).run s = .ok x s := run_ofExcept_eq_ok.2 ⟨hx, rfl⟩

theorem agree_current : Agree (Alike named Eq R) (Alike named Eq R) (current : Call m _) current := by
  refine .get_bind fun s s' hs => ?_
  rw [hs.state]
  exact .ofExcept _

theorem agree_replace {xs xs' : Array ℝ} (h : P' xs xs') :
    Agree (Alike named P R) (Alike named P' R) (replace xs : Call m _) (replace xs') :=
  .modify fun _ _ hs => { hs with state := h }

/-- An output vector that fits is not looked at. -/
theorem checkOutput_eq_pure {output : Option (Array ℝ)} (h : ∀ xs, output = some xs → xs.size = 3 * m.nodes) :
    (checkOutput output : Call m Unit) = pure ⟨⟩ := by
  cases output with
  | none => rfl
  | some xs =>
    have hfits : State.ofArray m.nodes xs = .ok (State.ofVec ⟨xs, h xs rfl⟩) := by
      unfold State.ofArray Vec.ofArray?
      rw [dif_pos (h xs rfl)]
    unfold checkOutput blocks
    dsimp only
    rw [hfits]
    rfl

section Solving

variable (hmass : Krylov.Exact named.model.massSystem named.model.massSolve) (hnonsingular : named.model.Nonsingular)
  {output output' : Option (Array ℝ)} (houtput : ∀ xs, output = some xs → xs.size = 3 * m.nodes)
  (houtput' : ∀ xs, output' = some xs → xs.size = 3 * m.nodes)

include hmass hnonsingular in
theorem agree_recoverCurrent : Agree (Twins named Eq) (Twins named Eq) (recoverCurrent : Call m _) recoverCurrent :=
  .bind agree_current fun x => agree_evaluate (Model.agree_recoverCurrent hmass hnonsingular.mass x.psi)

include hmass hnonsingular houtput houtput' in
theorem agree_explicitRate :
    Agree (Twins named Eq) (Twins named Eq) (explicitRate output : Call m _) (explicitRate output') := by
  refine .bind agree_current fun x => ?_
  rw [checkOutput_eq_pure houtput, checkOutput_eq_pure houtput']
  refine .bind (.pure _) fun _ => .bind (agree_evaluate (Model.agree_rate hmass hnonsingular.mass x)) fun k => ?_
  exact .bind (.modify fun s s' hs => { hs with }) fun _ => .pure _

include hmass hnonsingular houtput houtput' in
theorem agree_implicitRate (dt : Value ℝ) :
    Agree (Twins named Eq) (Alike named Eq (Memory.Alike named.model.ess Eq)) (implicitRate dt output : Call m _)
      (implicitRate dt output') := by
  refine .bind agree_current fun x => .bind (.ofExcept _) fun size => ?_
  refine .bind (agree_evaluate (Model.agree_setStep size x)) fun _ => ?_
  rw [checkOutput_eq_pure houtput, checkOutput_eq_pure houtput']
  -- the rate sets the step once more, so it does not matter that it was set
  refine .bind (S := Twins named Eq) (.modify fun _ _ hs => ?_) fun _ => .bind (.pure _) fun _ => ?_
  · exact { hs with memory := { hs.memory with step := trivial } }
  refine .bind (agree_evaluate (Model.agree_implicitRate hmass hnonsingular.mass size x)) fun k => ?_
  exact .bind (.modify fun s s' hs => { hs with }) fun _ => .pure _

end Solving

noncomputable def putPotential (x : State ℝ m.nodes) : Call m (Vec ℝ m.nodes) := do
  let phi ← evaluate fun model => model.potential x
  write { x with phi }
  return phi

section Potential

variable (hstiffness : ∀ solve, named.model.IsStiffnessSolve solve → Krylov.Exact named.model.stiffnessSystem solve)
  (hnonsingular : named.model.Nonsingular)
include hstiffness hnonsingular

theorem agree_putPotential (x x' : State ℝ m.nodes) (hpsi : x.psi = x'.psi) (hw : x.w = x'.w) :
    Agree (Twins named P) (Twins named Eq) (putPotential x : Call m _) (putPotential x') := by
  have hpotential : Agree (Memory.Alike named.model.ess Step.Any) (Memory.Alike named.model.ess Step.Any)
      (named.model.potential x) (named.model.potential x') :=
    Model.agree_potential hstiffness hnonsingular.stiffness hw
  refine .bind (agree_evaluate hpotential) fun phi => ?_
  unfold write
  rw [hpsi, hw]
  refine .bind (.modify fun _ _ hs => ?_) fun _ => .pure _
  exact { hs with state := rfl, memory := { hs.memory with step := trivial } }

theorem agree_updatePotential :
    Agree (Twins named Eq) (Twins named Eq) (updatePotential : Call m _) updatePotential :=
  .bind agree_current fun _ => agree_putPotential hstiffness hnonsingular _ _ rfl rfl

/-- The stream function that a state has does not count. -/
theorem agree_updatePotential_of_phi (x : State ℝ m.nodes) (phi : Vec ℝ m.nodes) :
    Agree (Twins named fun xs xs' => State.ofArray m.nodes xs = .ok x ∧ State.ofArray m.nodes xs' = .ok { x with phi })
      (Twins named Eq) (updatePotential : Call m _) updatePotential := by
  intro s s' hs
  unfold updatePotential
  rw [run_bind_of_eq_ok (current_run hs.state.1), run_bind_of_eq_ok (current_run hs.state.2)]
  exact agree_putPotential hstiffness hnonsingular x { x with phi } rfl rfl s s' hs

end Potential

/-- Calls that agree answer the same, and leave the same of the vector. -/
theorem answerAt_eq {α : Type} {call call' : Call m α} (h : Agree (Alike named P R) (Alike named Eq R') call call')
    {xs xs' : Array ℝ} (hxs : P xs xs') {s s' : Session m} (hs : Alike named AnyState R s s') :
    answerAt call xs s = answerAt call' xs' s' := by
  refine Agree.answer_eq (S := Alike named Eq R') (.bind (agree_replace hxs) fun _ => .bind h fun a => ?_) hs
  refine .get_bind fun t t' ht => ?_
  rw [ht.state]
  exact .pure _

/-! ### Calls that succeed -/

theorem answerAt_eq_ok {α : Type} {call : Call m α} {xs ys : Array ℝ} {s t : Session m} {a : α}
    (h : call.run { s with state := xs, startIsState := false } = .ok a t) (ht : t.state = ys) :
    answerAt call xs s = .ok (a, ys) := by
  subst ht
  refine answer_eq_ok.2 ⟨t, ?_⟩
  unfold replace
  rw [run_modify_bind, run_bind_of_eq_ok h, run_get_bind]
  rfl

section Succeeding

variable {s : Session m} {xs : Array ℝ} {x : State ℝ m.nodes} (hsolves : s.model.ExactSolves)
  (hsolvable : s.memory.solvable = true) (hx : State.ofArray m.nodes xs = .ok x)
include hsolves hsolvable hx

theorem exists_explicitRate {output : Option (Array ℝ)} (houtput : ∀ xs, output = some xs → xs.size = 3 * m.nodes) :
    ∃ k, answerAt (explicitRate output) xs s = .ok (k, xs) := by
  obtain ⟨k, mem, hk⟩ := Model.exists_rate hsolves.mass hsolvable x
  let t : Session m := { s with state := xs, startIsState := false, memory := mem, rate := k.toVec.toArray }
  refine ⟨k, answerAt_eq_ok (t := t) ?_ rfl⟩
  unfold explicitRate
  rw [run_bind_of_eq_ok (current_run hx), checkOutput_eq_pure houtput, run_pure_bind,
    run_bind_of_eq_ok (evaluate_eq_ok.2 ⟨mem, hk, rfl⟩), run_modify_bind]
  rfl

theorem exists_recoverCurrent : ∃ j, answerAt recoverCurrent xs s = .ok (j, xs) := by
  obtain ⟨j, r, hj, -⟩ :=
    hsolves.mass (s.model.recovery.rhs x.psi s.memory.current) s.memory.current s.memory.massReport
  let mem := { s.memory with massReport := r, current := j }
  have hrun : (s.model.recoverCurrent x.psi).run s.memory = .ok j mem :=
    Model.recoverCurrent_eq_ok.2 ⟨hsolvable, r, hj, rfl⟩
  refine ⟨j, answerAt_eq_ok (t := { s with state := xs, startIsState := false, memory := mem }) ?_ rfl⟩
  unfold recoverCurrent
  rw [run_bind_of_eq_ok (current_run hx)]
  exact evaluate_eq_ok.2 ⟨_, hrun, rfl⟩

theorem exists_updatePotential (hmultigrid : s.memory.multigrid = s.model.multigridSolve.isSome) :
    ∃ phi, answerAt updatePotential xs s = .ok (phi, ({ x with phi } : State ℝ m.nodes).toVec.toArray) := by
  obtain ⟨phi, hphi⟩ := Model.exists_potential hsolves.stiffness hsolvable hmultigrid x
  let t := stateAfter (write { x with phi }) { s with state := xs, startIsState := false }
  refine ⟨phi, answerAt_eq_ok (t := t) ?_ rfl⟩
  unfold updatePotential
  rw [run_bind_of_eq_ok (current_run hx), run_bind_of_eq_ok (evaluate_eq_ok.2 ⟨_, hphi, rfl⟩)]
  rfl

end Succeeding

/-! ### Independence of the history -/

/-- **Evaluations do not depend on history.**  Let solves be exact and no system singular.  After any number of
evaluations the calls answer at a vector, and leave of it, what they do in a session that has evaluated nothing and has
the same forcing and the same current on the essential nodes, with any output vectors that fit.  To recover the current
twice is to recover it once, and a recovered stream function does not depend on the one it takes the place of.  But for
the implicit step, which needs Newton's method to converge, the calls succeed. -/
theorem SetUp.answerAt_after {ess : Essential m.nodes} {viscosity resistivity : ℝ}
    (hops : named.model.toOperators = .ofMesh m ess viscosity resistivity) (hsolves : named.model.ExactSolves)
    (hnonsingular : named.model.Nonsingular) {begun fresh : Session m} (hbegun : SetUp named begun)
    (hfresh : SetUp named fresh) (hforcing : fresh.memory.forcing = begun.memory.forcing)
    (hcurrent : ∀ i ∈ ess, fresh.memory.current.values i = begun.memory.current.values i)
    (history : List (Evaluation m)) (xs : Array ℝ) {output output' : Option (Array ℝ)}
    (houtput : ∀ ys, output = some ys → ys.size = 3 * m.nodes)
    (houtput' : ∀ ys, output' = some ys → ys.size = 3 * m.nodes) :
    answerAt (explicitRate output) xs (after history begun) = answerAt (explicitRate output') xs fresh ∧
    (∀ dt, answerAt (implicitRate dt output) xs (after history begun) =
      answerAt (implicitRate dt output') xs fresh) ∧
    answerAt updatePotential xs (after history begun) = answerAt updatePotential xs fresh ∧
    answerAt recoverCurrent xs (after history begun) = answerAt recoverCurrent xs fresh ∧
    answerAt (do discard recoverCurrent; recoverCurrent) xs (after history begun) =
      answerAt recoverCurrent xs fresh ∧
    ∀ x, State.ofArray m.nodes xs = .ok x →
      (∃ k, answerAt (explicitRate output) xs (after history begun) = .ok (k, xs)) ∧
      (∃ j, answerAt recoverCurrent xs (after history begun) = .ok (j, xs)) ∧
      (∃ phi, answerAt updatePotential xs (after history begun) =
        .ok (phi, ({ x with phi } : State ℝ m.nodes).toVec.toArray)) ∧
      ∀ phi, answerAt updatePotential ({ x with phi } : State ℝ m.nodes).toVec.toArray (after history begun) =
        answerAt updatePotential xs fresh := by
  have hess := Operators.ess_eq hops
  have hsystem := Operators.massSystem_eq hops
  have hfitBegun := hbegun.fit
  have hfitFresh := hfresh.fit
  have hfreshBegun : Twins named AnyState fresh begun := by
    refine ⟨hfitFresh.named_eq, hfitBegun.named_eq, trivial, ?_, hforcing, trivial, ?_, ?_, ?_, ?_⟩
    · rw [hess]
      exact hcurrent
    · rw [hfitFresh.boundary, hfitBegun.boundary]
    · rw [hfitFresh.forcing, hfitBegun.forcing, hforcing]
    · rw [hfitFresh.solvable, hfitBegun.solvable]
    · rw [hfitFresh.multigrid, hfitBegun.multigrid]
  -- no evaluation has changed what evaluations read
  have hpair : Twins named AnyState fresh (after history begun) :=
    keeps_after hsolves.mass.sound hsystem history hfreshBegun
  have hrecover : Agree (Twins named Eq) (Twins named Eq) (recoverCurrent : Call m _)
      (do discard recoverCurrent; recoverCurrent) :=
    (agree_recoverCurrent hsolves.mass hnonsingular).twice fun _ => keeps_recoverCurrent hsolves.mass.sound hsystem
  have hrate : answerAt (explicitRate output) xs (after history begun) = answerAt (explicitRate output') xs fresh :=
    (answerAt_eq (agree_explicitRate hsolves.mass hnonsingular houtput' houtput) rfl hpair).symm
  have hstep : ∀ dt, answerAt (implicitRate dt output) xs (after history begun) =
      answerAt (implicitRate dt output') xs fresh := fun dt =>
    (answerAt_eq (agree_implicitRate hsolves.mass hnonsingular houtput' houtput dt) rfl hpair).symm
  have hpotential : answerAt updatePotential xs (after history begun) = answerAt updatePotential xs fresh :=
    (answerAt_eq (agree_updatePotential hsolves.stiffness hnonsingular) rfl hpair).symm
  have hcurrentOf : answerAt recoverCurrent xs (after history begun) = answerAt recoverCurrent xs fresh :=
    (answerAt_eq (agree_recoverCurrent hsolves.mass hnonsingular) rfl hpair).symm
  have htwice : answerAt (do discard recoverCurrent; recoverCurrent) xs (after history begun) =
      answerAt recoverCurrent xs fresh := (answerAt_eq hrecover rfl hpair).symm
  obtain rfl := hfitFresh.named_eq
  refine ⟨hrate, hstep, hpotential, hcurrentOf, htwice, fun x hx => ⟨?_, ?_, ?_, fun phi => ?_⟩⟩
  · rw [hrate]
    exact exists_explicitRate hsolves hfitFresh.solvable hx houtput'
  · rw [hcurrentOf]
    exact exists_recoverCurrent hsolves hfitFresh.solvable hx
  · rw [hpotential]
    exact exists_updatePotential hsolves hfitFresh.solvable hx hfitFresh.multigrid
  · have hphi := agree_updatePotential_of_phi (m := m) hsolves.stiffness hnonsingular x phi
    exact (answerAt_eq hphi ⟨hx, State.ofArray_toArray _⟩ hpair).symm

/-! ### Two sessions of the unit square -/

/-- A current that vanishes on the boundary of the unit square, and only there. -/
def bump (x y : ℝ) : ℝ := x * (1 - x) * (y * (1 - y))

theorem bump_point {k : Fin Mesh.unitSquare.nodes} (hk : Mesh.unitSquare.OnBoundary k) :
    bump (Mesh.unitSquare.point k).x (Mesh.unitSquare.point k).y = 0 := by
  have hx : (Mesh.unitSquare.point k).x = 0 + ((Mesh.unitSquare.column k : ℕ) : ℝ) * (1 / ((2 : ℕ) : ℝ)) := rfl
  have hy : (Mesh.unitSquare.point k).y = 0 + ((Mesh.unitSquare.row k : ℕ) : ℝ) * (1 / ((2 : ℕ) : ℝ)) := rfl
  unfold bump
  rw [hx, hy]
  rcases hk with hk | hk | hk | hk
  · rw [hk]
    norm_num
  · rw [hk]
    norm_num [Mesh.unitSquare]
  · rw [hk]
    norm_num
  · rw [hk]
    norm_num [Mesh.unitSquare]

theorem square_nonsingular : Model.square.Nonsingular where
  mass := (Form.mass_definite Mesh.unitSquare_proper _).eliminate_injective
  stiffness := (Form.stiffness_definite Mesh.unitSquare_proper (Essential.boundary_nonempty _)).eliminate_injective

/-- The unit square with a current that only the guess for another one could tell of. -/
noncomputable def bumpy : Session Mesh.unitSquare := stateAfter (setCurrent (.function bump)) (start square)

theorem answerAt_after_square :
    let s := after [.implicitRate (.real 1) none, .recoverCurrent, .bracketFlow #[], .gradient #[]] bumpy
    let xs := (State.toVec ⟨Model.ramp, Model.ramp, Model.vortex⟩).toArray
    answerAt (explicitRate (some used.toArray)) xs s = answerAt (explicitRate none) xs (start square) ∧
    answerAt (implicitRate (.real 2) (some used.toArray)) xs s =
      answerAt (implicitRate (.real 2) none) xs (start square) ∧
    answerAt updatePotential xs s = answerAt updatePotential xs (start square) ∧
    answerAt recoverCurrent xs s = answerAt recoverCurrent xs (start square) ∧
    (∃ k, answerAt (explicitRate (some used.toArray)) xs s = .ok (k, xs)) ∧
    answerAt updatePotential (State.toVec ⟨Model.vortex, Model.ramp, Model.vortex⟩).toArray s =
      answerAt updatePotential xs (start square) := by
  have hbegun : SetUp square bumpy := .setCurrent _ .start
  have houtput : ∀ ys, some used.toArray = some ys → ys.size = 3 * Mesh.unitSquare.nodes :=
    fun ys h => Option.some.inj h ▸ used.size_toArray
  have hnone : ∀ ys, (none : Option (Array ℝ)) = some ys → ys.size = 3 * Mesh.unitSquare.nodes := fun _ h => nomatch h
  have hcurrent : ∀ i ∈ Essential.boundary Mesh.unitSquare,
      (start square : Session Mesh.unitSquare).memory.current.values i = bumpy.memory.current.values i := by
    intro i hi
    have hbump : bumpy.memory.current =
        .ofFn fun k => bump (Mesh.unitSquare.point k).x (Mesh.unitSquare.point k).y := rfl
    have hstart : (start square : Session Mesh.unitSquare).memory.current = Vec.zeros _ := rfl
    rw [hbump, hstart, Vec.values_zeros, Vec.values_ofFn, bump_point ((Essential.boundary_isBoundary _ i).1 hi)]
    rfl
  obtain ⟨hrate, hstep, hpotential, hrecover, -, hrest⟩ := SetUp.answerAt_after rfl Model.square_exactSolves
    square_nonsingular hbegun .start rfl hcurrent
    [.implicitRate (.real 1) none, .recoverCurrent, .bracketFlow #[], .gradient #[]]
    (State.toVec ⟨Model.ramp, Model.ramp, Model.vortex⟩).toArray houtput hnone
  obtain ⟨hexists, -, -, hphi⟩ := hrest _ (State.ofArray_toArray _)
  exact ⟨hrate, hstep _, hpotential, hrecover, hexists, hphi Model.vortex⟩

end Session

end Magnetofluid
