import Mathlib
import Magnetofluid.Proofs.Exact.Text
import Magnetofluid.Proofs.Simulation.Evolution
import Magnetofluid.Simulation.Configuration

/-!
# How simulations begin

What a simulation that was made from the sections of a configuration begins with.

* `ModelDescription.toModel_ok`: the operators of a described model are those of its mesh.
* `Simulation.OfSystem`, `Simulation.keeps_openOutput`: what holds of model and state alone is kept when an output
  directory is made.
* `Simulation.ofSections_atRest`: a simulation begins without flow, with the operators of its mesh.
* `Simulation.sheet`: the sections of a configuration of which a simulation can be made.
-/

namespace Magnetofluid

theorem ModelDescription.toModel_ok {d : ModelDescription ℝ} {m : Mesh ℝ} {named : NamedModel ℝ m.nodes}
    (h : d.toModel m = .ok named) :
    ∃ essential ess viscosity resistivity, d.essentialIndices m = .ok essential ∧
      Essential.ofIndices? m.nodes essential = some ess ∧
      named.model.toOperators = .ofMesh m ess viscosity resistivity := by
  unfold toModel at h
  obtain ⟨viscosity, -, h⟩ := except_bind_eq_ok.1 h
  obtain ⟨resistivity, -, h⟩ := except_bind_eq_ok.1 h
  obtain ⟨solver, -, h⟩ := except_bind_eq_ok.1 h
  obtain ⟨essential, hessential, h⟩ := except_bind_eq_ok.1 h
  obtain ⟨ess, hess, h⟩ := except_bind_eq_ok.1 h
  obtain ⟨massSolver, -, h⟩ := except_bind_eq_ok.1 h
  obtain ⟨stiffnessSolver, -, h⟩ := except_bind_eq_ok.1 h
  obtain ⟨multigridSolver, -, h⟩ := except_bind_eq_ok.1 h
  obtain ⟨⟨preconditioner, entries⟩, -, h⟩ := except_bind_eq_ok.1 h
  obtain ⟨newton, -, h⟩ := except_bind_eq_ok.1 h
  obtain rfl := Except.ok.inj h
  cases hsome : Essential.ofIndices? m.nodes essential with
  | none =>
    rw [hsome] at hess
    cases hess
  | some ess' =>
    rw [hsome] at hess
    obtain rfl := Except.ok.inj hess
    exact ⟨essential, ess', viscosity, resistivity, hessential, hsome, rfl⟩

namespace Simulation

variable {m : Mesh ℝ} {sim : Simulation m} {s : RawSections ℝ} {workspace : Workspace ℝ}

/-- A simulation has the operators of its mesh and no flow. -/
structure AtRest (sim : Simulation m) : Prop where
  operators : ∃ ess viscosity resistivity, sim.model.toOperators = .ofMesh m ess viscosity resistivity
  phi : sim.state.phi = Vec.zeros m.nodes
  w : sim.state.w = Vec.zeros m.nodes

theorem onMesh_atRest (h : onMesh m s workspace = .ok sim) : AtRest sim := by
  unfold onMesh at h
  obtain ⟨named, hnamed, h⟩ := except_bind_eq_ok.1 h
  obtain ⟨c, -, h⟩ := except_bind_eq_ok.1 h
  obtain ⟨state, hstate, h⟩ := except_bind_eq_ok.1 h
  obtain ⟨psi, -, hstate⟩ := except_bind_eq_ok.1 hstate
  obtain rfl := Except.ok.inj hstate
  unfold modelOf at hnamed
  obtain ⟨markers, -, hnamed⟩ := except_bind_eq_ok.1 hnamed
  obtain ⟨viscosity, -, hnamed⟩ := except_bind_eq_ok.1 hnamed
  obtain ⟨resistivity, -, hnamed⟩ := except_bind_eq_ok.1 hnamed
  split at h
  · obtain ⟨-, ess, viscosity, resistivity, -, -, hops⟩ := ModelDescription.toModel_ok hnamed
    obtain rfl := Except.ok.inj h
    exact ⟨⟨ess, viscosity, resistivity, hops⟩, rfl, rfl⟩
  · cases h

/-! ### Actions besides the steps -/

/-- A property of a simulation is one of its model and its state alone. -/
def OfSystem (P : Simulation m → Prop) : Prop :=
  ∀ s t : Simulation m, t.model = s.model → t.evolution = s.evolution → P s → P t

section Actions

variable {P : Simulation m → Prop}

section Reading

variable {K : Type} [RealText K] {m : Mesh K} {P : Simulation m → Prop}

theorem setting_eq_ok {α : Type} {f : Schedule K → Setting K α} {sim sim' : Simulation m} {a : α} :
    (setting f).run sim = .ok a sim' ↔ f sim.schedule = .ok a ∧ sim = sim' := by
  unfold setting
  rw [run_get_bind, run_ofExcept_eq_ok]

theorem keeps_setting {α : Type} (f : Schedule K → Setting K α) : Keeps P (setting f) := .bind .get fun _ => .ofExcept _

theorem keeps_course : Keeps P course := by
  refine .bind .get fun s => ?_
  split
  · exact .pure _
  · exact .throw _

end Reading

variable (hP : OfSystem P)
include hP

theorem keeps_modify {f : Simulation m → Simulation m} (hmodel : ∀ s, (f s).model = s.model)
    (hevolution : ∀ s, (f s).evolution = s.evolution) : Keeps P (modify f : Simulating m PUnit) :=
  .modify fun s hs => hP s (f s) (hmodel s) (hevolution s) hs

theorem keeps_within {α : Type} (act : Work ℝ α) : Keeps P (within act) := by
  intro s hs
  have hafter : ∃ workspace, stateAfter (within act) s = { s with workspace } := by
    unfold stateAfter within EStateM.run
    dsimp only
    cases act s.workspace with
    | ok a workspace => exact ⟨workspace, rfl⟩
    | error e workspace => exact ⟨workspace, rfl⟩
  obtain ⟨workspace, hafter⟩ := hafter
  rw [hafter]
  exact hP s _ rfl rfl hs

theorem keeps_put (name key : String) (new : Value ℝ) : Keeps P (put name key new) := by
  unfold put
  split
  · exact .bind .get fun _ => .bind (.ofExcept _) fun _ => keeps_modify hP (fun _ => rfl) fun _ => rfl
  · exact .throw _

theorem keeps_openOutput : Keeps P openOutput := by
  refine .bind .get fun _ => .bind (.ofExcept _) fun _ => ?_
  split
  · exact keeps_within hP _
  · refine .bind (.ofExcept _) fun _ => .bind (.ofExcept _) fun _ => ?_
    split
    · exact .bind (keeps_within hP _) fun _ => .bind (keeps_modify hP (fun _ => rfl) fun _ => rfl) fun _ =>
        .bind (keeps_put hP _ _ _) fun _ => .bind .get fun _ => keeps_within hP _
    · exact .throw _

end Actions

/-! ### The beginning -/

theorem ofSystem_atRest : OfSystem (AtRest (m := m)) := by
  intro s t hmodel hevolution hs
  refine ⟨by rw [hmodel]; exact hs.operators, ?_, ?_⟩
  · exact (congrArg (·.state.phi) hevolution).trans hs.phi
  · exact (congrArg (·.state.w) hevolution).trans hs.w

theorem ofSections_eq_ok {workspace' : Workspace ℝ} :
    (ofSections s).run workspace = .ok ⟨m, sim⟩ workspace' ↔ ∃ begun, assemble s workspace = .ok ⟨m, begun⟩ ∧
      openOutput.run begun = .ok ⟨⟩ sim ∧ workspace' = sim.workspace := by
  show ofSections s workspace = _ ↔ _
  unfold ofSections
  cases assemble s workspace with
  | error e =>
    constructor
    · intro h
      cases h
    · rintro ⟨begun, hbegun, -⟩
      cases hbegun
  | ok p =>
    obtain ⟨m', begun⟩ := p
    dsimp only
    cases hopen : openOutput.run begun with
    | error e sim' =>
      constructor
      · intro h
        cases h
      · rintro ⟨begun', hbegun, hopen', -⟩
        cases Except.ok.inj hbegun
        rw [hopen] at hopen'
        cases hopen'
    | ok u sim' =>
      constructor
      · rintro ⟨⟩
        exact ⟨begun, rfl, hopen, rfl⟩
      · rintro ⟨begun', hbegun, hopen', rfl⟩
        cases Except.ok.inj hbegun
        rw [hopen] at hopen'
        cases hopen'
        rfl

/-- A simulation of a configuration begins without flow. -/
theorem ofSections_atRest {workspace' : Workspace ℝ} (h : (ofSections s).run workspace = .ok ⟨m, sim⟩ workspace') :
    AtRest sim := by
  obtain ⟨begun, hassemble, hopen, -⟩ := ofSections_eq_ok.1 h
  obtain ⟨m', -, hassemble⟩ := except_bind_eq_ok.1 hassemble
  obtain ⟨begun', hbegun, hassemble⟩ := except_bind_eq_ok.1 hassemble
  cases Except.ok.inj hassemble
  exact KeepsIfOk.of_keeps (keeps_openOutput ofSystem_atRest) _ _ _ (onMesh_atRest hbegun) hopen

/-! ### A sheet -/

/-- A sheet on the unit square, to be taken through time by Euler's method and in silence. -/
noncomputable def sheet : RawSections ℝ where
  options := .ofNames [("silent", .bool true)]
  grid := .ofNames [("Nx", .int 2), ("Ny", .int 2), ("Lx", .int 1), ("Ly", .int 1), ("x0", .int 0), ("y0", .int 0),
    ("ess_bdr", .list [.int 1, .int 1, .int 1, .int 1])]
  properties := .ofNames [("viscosity", .int 0), ("resistivity", .int 1)]
  initial := .ofNames [("case", .text "tearing"), ("alpha", .int 1), ("lambda", .int 1), ("j_bdy", .null),
    ("forcing", .bool false)]
  numerics := .ofNames [("integrator", .text "explicit"), ("scheme", .text "euler"), ("dt", .int 1)]
  solver := .ofNames [("mass", .ofNames [("preconditioner", .text "none")]),
    ("stiffness", .ofNames [("preconditioner", .text "none")])]

theorem meshOf_sheet : meshOf sheet.grid = .ok Mesh.unitSquare := by
  have h : meshOf sheet.grid = .ok { Mesh.unitSquare with
      lx := ((1 : ℤ) : ℝ), ly := ((1 : ℤ) : ℝ), x0 := ((0 : ℤ) : ℝ), y0 := ((0 : ℤ) : ℝ) } := rfl
  rw [h, Int.cast_one, Int.cast_zero]
  rfl

theorem indices_sides : (Value.list [.int 1, .int 1, .int 1, .int 1] : Value ℝ).indices = .ok [1, 1, 1, 1] := by
  have hnested : (Value.list [.int 1, .int 1, .int 1, .int 1] : Value ℝ).nested? =
      some ⟨[4], #v[.int 1, .int 1, .int 1, .int 1]⟩ := rfl
  have hentries : Vector.mapM Value.toIndex (#v[.int 1, .int 1, .int 1, .int 1] : Vector (Value ℝ) 4) =
      .ok #v[1, 1, 1, 1] := vector_mapM_eq_ok rfl
  unfold Value.indices Value.toTensor
  rw [hnested]
  exact except_bind_eq_ok.2 ⟨_, except_bind_eq_ok.2 ⟨_, hentries, rfl⟩, rfl⟩

theorem exists_modelOf_sheet : ∃ named, modelOf Mesh.unitSquare sheet = .ok named ∧ ∃ k, k ∈ named.model.ess := by
  let d : ModelDescription ℝ :=
    { markers := .list [.int 1, .int 1, .int 1, .int 1], viscosity := .int 0, resistivity := .int 1
      solver := sheet.solver }
  have hessential : d.essentialIndices Mesh.unitSquare = .ok [0, 1, 2, 3, 5, 6, 7, 8] :=
    except_bind_eq_ok.2 ⟨_, indices_sides, rfl⟩
  have hok : (d.toModel Mesh.unitSquare).isOk = true := by
    unfold ModelDescription.toModel
    rw [hessential]
    rfl
  cases hmodel : d.toModel Mesh.unitSquare with
  | error e =>
    rw [hmodel] at hok
    cases hok
  | ok named =>
    obtain ⟨essential, ess, _, _, hindices, hess, hops⟩ := ModelDescription.toModel_ok hmodel
    obtain rfl := Except.ok.inj (hessential.symm.trans hindices)
    have hcorner : (some ess).map (·.contains ⟨0, by decide⟩) = some true := by
      rw [← hess]
      rfl
    refine ⟨named, hmodel, ⟨0, by decide⟩, ?_⟩
    rw [hops]
    exact Option.some.inj hcorner

/-- The workspace without files on a morning. -/
def morning : Workspace ℝ := .atMoment ⟨2000, 1, 1, 6, 0, 0, 0, none⟩

/-- A simulation of the sheet begins with a model that has essential nodes, and its solves are there. -/
theorem exists_ofSections_sheet : ∃ (begun : Simulation Mesh.unitSquare) (workspace : Workspace ℝ),
    (ofSections sheet).run morning = .ok ⟨Mesh.unitSquare, begun⟩ workspace ∧ begun.sections = sheet ∧
      (∃ k, k ∈ begun.model.ess) ∧ begun.evolution.memory.solvable = true ∧
      begun.evolution.memory.multigrid = begun.model.multigridSolve.isSome := by
  obtain ⟨named, hnamed, hess⟩ := exists_modelOf_sheet
  have honMesh : ∃ evolution, onMesh Mesh.unitSquare sheet morning =
      .ok ⟨named.model, sheet, evolution, none, false, none, morning⟩ ∧ evolution.memory.solvable = true ∧
      evolution.memory.multigrid = named.model.multigridSolve.isSome :=
    ⟨_, except_bind_eq_ok.2 ⟨named, hnamed, rfl⟩, rfl, rfl⟩
  obtain ⟨evolution, honMesh, hsolvable, hmultigrid⟩ := honMesh
  have hassemble : assemble sheet morning =
      .ok ⟨Mesh.unitSquare, named.model, sheet, evolution, none, false, none, morning⟩ :=
    except_bind_eq_ok.2 ⟨_, meshOf_sheet, except_bind_eq_ok.2 ⟨_, honMesh, rfl⟩⟩
  have hopen : ∃ workspace, openOutput.run ⟨named.model, sheet, evolution, none, false, none, morning⟩ =
      .ok ⟨⟩ ⟨named.model, sheet, evolution, none, false, none, workspace⟩ := ⟨_, rfl⟩
  obtain ⟨workspace, hopen⟩ := hopen
  exact ⟨_, workspace, ofSections_eq_ok.2 ⟨_, hassemble, hopen, rfl⟩, rfl, hess, hsolvable, hmultigrid⟩

end Simulation

end Magnetofluid
