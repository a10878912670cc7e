import Mathlib
import Magnetofluid.Proofs.Exact.Text
import Magnetofluid.Proofs.Settings.Entries
import Magnetofluid.Settings.Configuration

/-!
# Sections that are read again

The settings of a section pass the checks that were made when they were read, and a section that gives the settings of
another, in any order, is read as the same section.

* `Options.Checked` and its relatives: the checks that settings have passed, with `Options.checked_of_ofEntries`.
* `Options.ofEntries_rearranged` and its relatives: settings that passed their checks are read from what they are
  written as.
* `Grid.Exact`, `Grid.settled`: a grid that is read again has the lengths that followed from its spacings.
-/

namespace Magnetofluid

variable {K : Type} [RealText K]

/-! ### Names -/

/-- Where no two choices share a name, a name finds the choice that it names. -/
theorem find?_name_eq_some_iff {α : Type} {all : List α} {name : α → String} (hall : ∀ a, a ∈ all)
    (hname : Function.Injective name) {s : String} {a : α} :
    all.find? (fun b => name b = s) = some a ↔ name a = s := by
  constructor
  · intro h
    simpa using List.find?_some h
  · rintro rfl
    cases h : all.find? fun b => name b = name a with
    | none =>
      have hne : name a ≠ name a := by simpa using List.find?_eq_none.1 h a (hall a)
      exact absurd rfl hne
    | some b => exact congrArg some (hname (by simpa using List.find?_some h))

namespace Settings

theorem Integrator.ofName?_eq_some_iff {s : String} {i : Integrator} : ofName? s = some i ↔ i.name = s :=
  find?_name_eq_some_iff (fun a => by cases a <;> simp [all]) fun a b h => by cases a <;> cases b <;> simp_all [name]

theorem Scheme.ofName?_eq_some_iff {s : String} {i : Scheme} : ofName? s = some i ↔ i.name = s :=
  find?_name_eq_some_iff (fun a => by cases a <;> simp [all]) fun a b h => by cases a <;> cases b <;> simp_all [name]

theorem KrylovPreconditioner.ofName?_eq_some_iff {s : String} {i : KrylovPreconditioner} :
    ofName? s = some i ↔ i.name = s :=
  find?_name_eq_some_iff (fun a => by cases a <;> simp [all]) fun a b h => by cases a <;> cases b <;> simp_all [name]

end Settings

theorem StepPreconditioner.ofName?_eq_some_iff {s : String} {i : StepPreconditioner} :
    ofName? s = some i ↔ i.name = s :=
  find?_name_eq_some_iff (fun a => by cases a <;> simp [all]) fun a b h => by cases a <;> cases b <;> simp_all [name]

theorem Krylov.Backend.ofName?_eq_some_iff {s : String} {i : Krylov.Backend} : ofName? s = some i ↔ i.name = s :=
  find?_name_eq_some_iff (fun a => by cases a <;> simp [all]) fun a b h => by cases a <;> cases b <;> simp_all [name]

theorem CaseName.ofText?_eq_some_iff {s : String} {i : CaseName} : ofText? s = some i ↔ i.text = s :=
  find?_name_eq_some_iff (fun a => by cases a <;> simp [all]) fun a b h => by cases a <;> cases b <;> simp_all [text]

theorem Krylov.Method.ofName?_eq_some_iff {s : String} {i : Krylov.Method} : ofName? s = some i ↔ i.name = s := by
  constructor
  · intro h
    unfold ofName? at h
    split at h <;> simp_all [name] <;> subst h <;> rfl
  · rintro rfl
    cases i <;> rfl

namespace Settings

/-! ### Options -/

def Options.Checked (o : Options) : Prop := 1 ≤ o.writeFreq

theorem Options.checked_of_ofEntries {es : Entries K} {o : Options} (h : ofEntries es = .ok o) : o.Checked := by
  simp only [ofEntries, except_bind_eq_ok, require_eq_ok, decide_eq_true_eq] at h
  obtain ⟨output, -, writeFreq, -, -, hfreq, h⟩ := h
  cases h
  exact hfreq

theorem Options.ofEntries_of_rearranged {o : Options} (ho : o.Checked) {es : Entries K}
    (h : Value.Rearranged (.map es) (.map o.toEntries)) : ofEntries es = .ok o := by
  have hplain : Plain (o.toEntries : Entries K) := by simp [Plain, toEntries, entry, Value.isMap]
  have hfreq : decide (1 ≤ o.writeFreq) = true := decide_eq_true ho
  simp only [ofEntries, given_rearranged h hplain]
  simp [toEntries, ok_bind, hfreq, require_true]

/-! ### Properties and initial state -/

structure Properties.Checked (p : Properties K) : Prop where
  viscosity : Scalar.lt p.viscosity 0 = false
  resistivity : Scalar.lt p.resistivity 0 = false

theorem Properties.checked_of_ofEntries {es : Entries K} {p : Properties K} (h : ofEntries es = .ok p) :
    p.Checked := by
  simp only [ofEntries, except_bind_eq_ok, require_eq_ok, Bool.not_eq_true'] at h
  obtain ⟨viscosity, -, resistivity, -, -, hviscosity, -, hresistivity, h⟩ := h
  cases h
  exact ⟨hviscosity, hresistivity⟩

theorem Properties.ofEntries_of_rearranged {p : Properties K} (hp : p.Checked) {es : Entries K}
    (h : Value.Rearranged (.map es) (.map p.toEntries)) : ofEntries es = .ok p := by
  have hplain : Plain p.toEntries := by simp [Plain, toEntries, entry, Value.isMap]
  simp only [ofEntries, given_rearranged h hplain]
  simp [toEntries, ok_bind, hp.viscosity, hp.resistivity, require_true]

structure Initial.Checked (i : Initial K) : Prop where
  lam : Scalar.le i.lam 0 = false
  eps : (i.case_ != .coalescence || (Scalar.le 0 i.eps && Scalar.lt i.eps 1)) = true

theorem Initial.checked_of_ofEntries {es : Entries K} {i : Initial K} (h : ofEntries es = .ok i) : i.Checked := by
  simp only [ofEntries, except_bind_eq_ok, require_eq_ok, Bool.not_eq_true'] at h
  obtain ⟨_, -, case_, -, alpha, -, lam, -, eps, -, -, hlam, -, heps, h⟩ := h
  split at h
  · cases h
    exact ⟨hlam, heps⟩
  · obtain ⟨x, -, h⟩ := except_bind_eq_ok.1 h
    cases h
    exact ⟨hlam, heps⟩

theorem Initial.ofEntries_of_rearranged {i : Initial K} (hi : i.Checked) {es : Entries K}
    (h : Value.Rearranged (.map es) (.map i.toEntries)) : ofEntries es = .ok i := by
  have hcase : CaseName.ofText? i.case_.text = some i.case_ := CaseName.ofText?_eq_some_iff.2 rfl
  obtain ⟨case_, alpha, lam, eps, forcing, jBdy⟩ := i
  have hplain : Plain (toEntries ⟨case_, alpha, lam, eps, forcing, jBdy⟩) := by
    cases jBdy <;> simp [Plain, toEntries, entry, Value.isMap]
  simp only [ofEntries, given_rearranged h hplain]
  -- The current on the essential nodes is the one setting that may be nothing.
  cases jBdy <;> simp [toEntries, ok_bind, choose, hcase, hi.lam, hi.eps, require_true]

/-! ### Time integration -/

/-- The check that the settings of the time integration have passed. -/
def Numerics.Checked (n : Numerics K) : Prop := Scalar.le n.dt 0 = false

theorem Numerics.checked_of_ofEntries {es : Entries K} {n : Numerics K} (h : ofEntries es = .ok n) : n.Checked := by
  simp only [ofEntries, except_bind_eq_ok, require_eq_ok, Bool.not_eq_true'] at h
  obtain ⟨_, -, _, -, dt, -, tEnd, -, maxIt, -, integrator, -, scheme, -, -, hdt, h⟩ := h
  cases h
  exact hdt

theorem Numerics.ofEntries_of_rearranged {n : Numerics K} (hn : n.Checked) {es : Entries K}
    (h : Value.Rearranged (.map es) (.map n.toEntries)) : ofEntries es = .ok n := by
  have hplain : Plain n.toEntries := by simp [Plain, toEntries, entry, Value.isMap]
  have hintegrator : Integrator.ofName? n.integrator.name = some n.integrator := Integrator.ofName?_eq_some_iff.2 rfl
  have hscheme : Scheme.ofName? n.scheme.name = some n.scheme := Scheme.ofName?_eq_some_iff.2 rfl
  have hdt : Scalar.le n.dt 0 = false := hn
  simp only [ofEntries, given_rearranged h hplain]
  simp [toEntries, ok_bind, choose, hintegrator, hscheme, hdt, require_true]

/-! ### Solvers -/

theorem KrylovSolver.ofEntries_of_rearranged {s : KrylovSolver K} {es : Entries K}
    (h : Value.Rearranged (.map es) (.map s.toEntries)) (rtol maxIter : Value K) :
    ofEntries es rtol maxIter = .ok s := by
  have hplain : Plain s.toEntries := by simp [Plain, toEntries, entry, Value.isMap]
  have hmethod : Krylov.Method.ofName? s.method.name = some s.method := Krylov.Method.ofName?_eq_some_iff.2 rfl
  have hpreconditioner : KrylovPreconditioner.ofName? s.preconditioner.name = some s.preconditioner :=
    KrylovPreconditioner.ofName?_eq_some_iff.2 rfl
  simp only [ofEntries, given_rearranged h hplain]
  simp [toEntries, ok_bind, choose, hmethod, hpreconditioner]

theorem MultigridSolver.ofEntries_of_rearranged {s : MultigridSolver K} {es : Entries K}
    (h : Value.Rearranged (.map es) (.map s.toEntries)) : ofEntries es = .ok s := by
  have hplain : Plain s.toEntries := by simp [Plain, toEntries, entry, Value.isMap]
  simp only [ofEntries, given_rearranged h hplain]
  simp [toEntries, ok_bind]

def NewtonSolver.Checked (s : NewtonSolver K) : Prop := (Scalar.lt 0 s.alpha && Scalar.le s.alpha 1) = true

theorem NewtonSolver.checked_of_ofEntries {es : Entries K} {s : NewtonSolver K} (h : ofEntries es = .ok s) :
    s.Checked := by
  simp only [ofEntries, except_bind_eq_ok, require_eq_ok] at h
  obtain ⟨rtol, -, atol, -, maxIter, -, alpha, -, linearRtol, -, linearAtol, -, linearMaxIter, -, restart, -,
    printLevel, -, _, -, preconditioner, -, -, halpha, h⟩ := h
  cases h
  exact halpha

theorem NewtonSolver.ofEntries_of_rearranged {s : NewtonSolver K} (hs : s.Checked) {es : Entries K}
    (h : Value.Rearranged (.map es) (.map s.toEntries)) : ofEntries es = .ok s := by
  have hplain : Plain s.toEntries := by simp [Plain, toEntries, entry, Value.isMap]
  have hpreconditioner : StepPreconditioner.ofName? s.preconditioner.name = some s.preconditioner :=
    StepPreconditioner.ofName?_eq_some_iff.2 rfl
  have halpha : (Scalar.lt 0 s.alpha && Scalar.le s.alpha 1) = true := hs
  simp only [ofEntries, given_rearranged h hplain]
  simp [toEntries, ok_bind, choose, hpreconditioner, halpha, require_true, -Bool.and_eq_true]

/-- The check that the settings of the solvers have passed. -/
def Solver.Checked (s : Solver K) : Prop := s.newton.Checked

theorem Solver.checked_of_ofEntries {es : Entries K} {s : Solver K} (h : ofEntries es = .ok s) : s.Checked := by
  simp only [ofEntries, except_bind_eq_ok] at h
  obtain ⟨_, -, backend, -, _, -, mass, -, _, -, stiffness, -, _, -, amg, -, _, -, newton, hnewton, h⟩ := h
  cases h
  exact NewtonSolver.checked_of_ofEntries hnewton

/-- The parts of the settings of the solvers are looked up one by one, and each may be rearranged too. -/
theorem Solver.ofEntries_of_rearranged {s : Solver K} (hs : s.Checked) {es : Entries K}
    (h : Value.Rearranged (.map es) (.map s.toEntries)) : ofEntries es = .ok s := by
  have hbackend : given es "backend" (.text "scipy") = .text s.backend.name :=
    given_of_rearranged h (by simp [toEntries]) rfl
  have huseAmg : given es "use_amg" (.bool false) = .bool s.useAmg :=
    given_of_rearranged h (by simp [toEntries]) rfl
  obtain ⟨mass, hmass, hmass'⟩ :=
    exists_part_of_rearranged h "mass" s.mass.toEntries (by simp [toEntries])
  obtain ⟨stiffness, hstiffness, hstiffness'⟩ :=
    exists_part_of_rearranged h "stiffness" s.stiffness.toEntries (by simp [toEntries])
  obtain ⟨amg, hamg, hamg'⟩ :=
    exists_part_of_rearranged h "amg" s.amg.toEntries (by simp [toEntries])
  obtain ⟨newton, hnewton, hnewton'⟩ :=
    exists_part_of_rearranged h "newton" s.newton.toEntries (by simp [toEntries])
  have hname : Krylov.Backend.ofName? s.backend.name = some s.backend := Krylov.Backend.ofName?_eq_some_iff.2 rfl
  simp [ofEntries, hbackend, huseAmg, hmass, hstiffness, hamg, hnewton, ok_bind, choose, hname,
    KrylovSolver.ofEntries_of_rearranged hmass', KrylovSolver.ofEntries_of_rearranged hstiffness',
    MultigridSolver.ofEntries_of_rearranged hamg', NewtonSolver.ofEntries_of_rearranged hs hnewton']

/-! ### Grid -/

/-- The checks that a grid has passed, and the numbers that its counts became. -/
structure Grid.Checked (g : Grid K) : Prop where
  nx_pos : 1 ≤ g.nx
  ny_pos : 1 ≤ g.ny
  columns : Value.realOfInteger g.nx = .ok g.columns
  rows : Value.realOfInteger g.ny = .ok g.rows
  sides : g.essBdr.length = 4
  markers : ∀ b ∈ g.essBdr, b = 0 ∨ b = 1

theorem Grid.checked_of_ofEntries {es : Entries K} {g : Grid K} (h : ofEntries es = .ok g) : g.Checked := by
  simp only [ofEntries, except_bind_eq_ok, require_eq_ok, decide_eq_true_eq, Bool.and_eq_true, List.all_eq_true,
    Bool.or_eq_true] at h
  obtain ⟨nx, -, ny, -, -, ⟨hnx, hny⟩, x, -, columns, hcolumns, y, -, rows, hrows, x0, -, y0, -, _, -, essBdr, -, -,
    hsides, -, hmarkers, h⟩ := h
  cases h
  exact ⟨hnx, hny, hcolumns, hrows, hsides, hmarkers⟩

def Extent.settled (e : Extent K) (count : K) : Extent K := .ofLength (e.length count)

def Grid.settled (g : Grid K) : Grid K :=
  { g with x := g.x.settled g.columns, y := g.y.settled g.rows }

/-- A spacing is the length that follows from it, divided by the count. -/
def Extent.Exact (e : Extent K) (count : K) : Prop := ∀ d, e = .ofSpacing d → d * count / count = d

/-- The spacings of a grid that are given survive the way to the lengths and back. -/
structure Grid.Exact (g : Grid K) : Prop where
  x : g.x.Exact g.columns
  y : g.y.Exact g.rows

/-- Length and spacing are found whichever comes first. -/
theorem Extent.lookup?_toEntries (e : Extent K) (count : K) {lengthName spacingName : String}
    (hne : lengthName ≠ spacingName) (key : Value K) :
    Value.lookup? (e.toEntries count lengthName spacingName) key =
      if Value.sameKey (.text lengthName) key then some (.real (e.length count))
      else if Value.sameKey (.text spacingName) key then some (.real (e.spacing count)) else none := by
  cases e with
  | ofLength length => simp only [toEntries, entry, Value.lookup?_cons, Value.lookup?_nil]
  | ofSpacing spacing =>
    simp only [toEntries, entry, Value.lookup?_cons, Value.lookup?_nil]
    split_ifs with hspacing hlength hlength
    · rw [Value.text_sameKey_iff] at hspacing hlength
      exact absurd (Value.text.inj (hlength.symm.trans hspacing)) hne
    · rfl
    · rfl
    · rfl

theorem Extent.Exact.lookup?_settled {e : Extent K} {count : K} (he : e.Exact count) {lengthName spacingName : String}
    (hne : lengthName ≠ spacingName) (key : Value K) :
    Value.lookup? ((e.settled count).toEntries count lengthName spacingName) key =
      Value.lookup? (e.toEntries count lengthName spacingName) key := by
  have hspacing : (e.settled count).spacing count = e.spacing count := by
    cases e with
    | ofLength length => rfl
    | ofSpacing spacing => exact he spacing rfl
  rw [lookup?_toEntries _ count hne, lookup?_toEntries _ count hne, hspacing]
  rfl

theorem Extent.named?_toEntries (e : Extent K) (count : K) {lengthName spacingName : String}
    (hne : lengthName ≠ spacingName) (name : String) :
    Value.named? (e.toEntries count lengthName spacingName) name =
      if lengthName = name then some (.real (e.length count))
      else if spacingName = name then some (.real (e.spacing count)) else none := by
  simp [Value.named?, e.lookup?_toEntries count hne, Value.sameKey_text_text]

theorem Extent.plain_toEntries (e : Extent K) (count : K) (lengthName spacingName : String) :
    Plain (e.toEntries count lengthName spacingName) := by
  cases e <;> simp [Plain, toEntries, entry, Value.isMap]

theorem Grid.plain_toEntries (g : Grid K) : Plain g.toEntries := by
  have hx := g.x.plain_toEntries g.columns "Lx" "dx"
  have hy := g.y.plain_toEntries g.rows "Ly" "dy"
  unfold Plain at hx hy ⊢
  intro e he
  simp only [toEntries, List.mem_append] at he
  obtain (((he | he) | he) | he) := he
  · revert e
    simp [entry, Value.isMap]
  · exact hx e he
  · exact hy e he
  · revert e
    simp [entry, Value.isMap]

theorem Grid.ofEntries_of_rearranged {g : Grid K} (hg : g.Checked) {es : Entries K}
    (h : Value.Rearranged (.map es) (.map g.toEntries)) : ofEntries es = .ok g.settled := by
  have hnumber (name : String) (default : Value K) := given_rearranged h g.plain_toEntries name default
  have hx : Extent.ofEntries es "Lx" "dx" .lengthX = .ok (g.x.settled g.columns) := by
    simp [Extent.ofEntries, named?_rearranged h g.plain_toEntries, toEntries, named?_append, Extent.named?_toEntries]
    rfl
  have hy : Extent.ofEntries es "Ly" "dy" .lengthY = .ok (g.y.settled g.rows) := by
    simp [Extent.ofEntries, named?_rearranged h g.plain_toEntries, toEntries, named?_append, Extent.named?_toEntries]
    rfl
  have hcount : require (K := K) .cellCount (1 ≤ g.nx && 1 ≤ g.ny) = .ok () :=
    require_eq_ok.2 (by simp [hg.nx_pos, hg.ny_pos])
  have hsides : require (K := K) .markerCount (g.essBdr.length = 4) = .ok () := require_eq_ok.2 (by simp [hg.sides])
  have hmarkers : require (K := K) .markerValue (g.essBdr.all fun b => b = 0 || b = 1) = .ok () :=
    require_eq_ok.2 (by simpa using hg.markers)
  unfold ofEntries
  simp only [hnumber, hx, hy]
  simp [toEntries, given, named?_append, Extent.named?_toEntries, ok_bind, hg.columns, hg.rows, hcount, Value.parts,
    Value.mapM_toInteger_int, hsides, hmarkers, settled]

/-- A grid that is read again is written as it was, but for the order of lengths and spacings. -/
theorem Grid.toEntries_settled {g : Grid K} (hg : g.Exact) :
    Value.Rearranged (.map g.settled.toEntries) (.map g.toEntries) := by
  refine .of_lookup?_eq fun key => ?_
  have hx := hg.x.lookup?_settled (show "Lx" ≠ "dx" by decide) key
  have hy := hg.y.lookup?_settled (show "Ly" ≠ "dy" by decide) key
  simp only [toEntries, settled, Value.lookup?_append, hx, hy]

/-- In exact arithmetic nothing is lost between spacings and lengths. -/
theorem Grid.exact_real {g : Grid ℝ} (hg : g.Checked) : g.Exact := by
  have hcolumns : g.columns = g.nx := (Except.ok.inj hg.columns).symm
  have hrows : g.rows = g.ny := (Except.ok.inj hg.rows).symm
  have hnx : (0 : ℝ) < g.nx := by exact_mod_cast hg.nx_pos
  have hny : (0 : ℝ) < g.ny := by exact_mod_cast hg.ny_pos
  refine ⟨fun d _ => ?_, fun d _ => ?_⟩
  · rw [hcolumns]
    exact mul_div_cancel_right₀ d hnx.ne'
  · rw [hrows]
    exact mul_div_cancel_right₀ d hny.ne'

/-! ### Sections of any kind -/

namespace Section

/-- The name of the kind. -/
def name : Section K → SectionName
  | options _ => .options
  | grid _ => .grid
  | properties _ => .properties
  | initial _ => .initial
  | numerics _ => .numerics
  | solver _ => .solver

/-- The checks that a section has passed. -/
def Checked : Section K → Prop
  | options s => s.Checked
  | grid s => s.Checked
  | properties s => s.Checked
  | initial s => s.Checked
  | numerics s => s.Checked
  | solver s => s.Checked

/-- A section as it is when it is read again. -/
def settled : Section K → Section K
  | grid s => grid s.settled
  | s => s

theorem name_and_checked_of_ofValue {name : SectionName} {v : Value K} {s : Section K} (h : ofValue name v = .ok s) :
    s.name = name ∧ s.Checked := by
  obtain ⟨es, -, h⟩ := except_bind_eq_ok.1 h
  cases name with
  | options =>
    obtain ⟨o, ho, h⟩ := except_bind_eq_ok.1 h
    cases h
    exact ⟨rfl, Options.checked_of_ofEntries ho⟩
  | grid =>
    obtain ⟨g, hg, h⟩ := except_bind_eq_ok.1 h
    cases h
    exact ⟨rfl, Grid.checked_of_ofEntries hg⟩
  | properties =>
    obtain ⟨p, hp, h⟩ := except_bind_eq_ok.1 h
    cases h
    exact ⟨rfl, Properties.checked_of_ofEntries hp⟩
  | initial =>
    obtain ⟨i, hi, h⟩ := except_bind_eq_ok.1 h
    cases h
    exact ⟨rfl, Initial.checked_of_ofEntries hi⟩
  | numerics =>
    obtain ⟨n, hn, h⟩ := except_bind_eq_ok.1 h
    cases h
    exact ⟨rfl, Numerics.checked_of_ofEntries hn⟩
  | solver =>
    obtain ⟨s, hs, h⟩ := except_bind_eq_ok.1 h
    cases h
    exact ⟨rfl, Solver.checked_of_ofEntries hs⟩

/-- What a section is written as, in any order, is read as that section. -/
theorem ofValue_of_rearranged {s : Section K} (hs : s.Checked) {v : Value K}
    (h : Value.Rearranged v (.map s.toEntries)) : ofValue s.name v = .ok s.settled := by
  obtain ⟨es, rfl, h⟩ := h.exists_map
  cases s with
  | options o => simp [ofValue, name, settled, ok_bind, Options.ofEntries_of_rearranged hs h]
  | grid g => simp [ofValue, name, settled, ok_bind, Grid.ofEntries_of_rearranged hs h]
  | properties p => simp [ofValue, name, settled, ok_bind, Properties.ofEntries_of_rearranged hs h]
  | initial i => simp [ofValue, name, settled, ok_bind, Initial.ofEntries_of_rearranged hs h]
  | numerics n => simp [ofValue, name, settled, ok_bind, Numerics.ofEntries_of_rearranged hs h]
  | solver s => simp [ofValue, name, settled, ok_bind, Solver.ofEntries_of_rearranged hs h]

end Section

end Settings

end Magnetofluid
