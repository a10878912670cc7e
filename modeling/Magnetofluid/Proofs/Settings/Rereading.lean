import Mathlib
import Magnetofluid.Proofs.Settings.Listing
import Magnetofluid.Proofs.Settings.Sections

/-!
# Configurations that are read again

A configuration that was read is accepted when it is read from what it is written as, and comes out as it went in.
Sections and settings may come in another order then, and anything may stand beside the sections.

* `Section.Kept`, `Configuration.kept_of_read`: what is known of the sections of a configuration that was read.
* `Sections.exists_foldlM_has`: sections are read by induction on the entries of a document.
* `Configuration.HeldBy`: the documents that hold a configuration.
* `Configuration.exists_read`: a document with a grid is accepted, as the defaults pass their own checks.
* `Configuration.exists_read_again`: what was read is read again.
-/

namespace Magnetofluid.Settings

variable {K : Type} [RealText K]

/-! ### One section -/

namespace Section

/-- A section has passed its checks, and all of it can be printed. -/
structure Kept (s : Section K) : Prop where
  checked : s.Checked
  shown : ∀ e ∈ s.toEntries, Shown e

theorem kept_of_readTitled {name : SectionName} {v : Value K} {s : Section K} {printed printed' : List String}
    (h : (readTitled name v).run printed = .ok s printed') : s.Kept := by
  obtain ⟨_, _, -, h⟩ := run_bind_eq_ok.1 h
  obtain ⟨s', _, hs, h⟩ := run_bind_eq_ok.1 h
  obtain ⟨hs, -⟩ := run_ofExcept_eq_ok.1 hs
  obtain ⟨_, t, hshow, h⟩ := run_bind_eq_ok.1 h
  obtain ⟨rfl, -⟩ := run_pure_eq_ok.1 h
  exact ⟨(name_and_checked_of_ofValue hs).2, (exists_showAll_iff _ _).1 ⟨t, hshow⟩⟩

theorem exists_readTitled {name : SectionName} {v : Value K} {s : Section K} (hv : ofValue name v = .ok s)
    (hshown : ∀ e ∈ s.toEntries, Shown e) (printed : List String) :
    ∃ printed', (readTitled name v).run printed = .ok s printed' := by
  obtain ⟨t, ht⟩ := (exists_showAll_iff s.toEntries (printed ++ ["- " ++ name.text ++ ":"])).2 hshown
  refine ⟨t, run_bind_eq_ok.2 ⟨⟨⟩, _, Printing.run_say _ _, ?_⟩⟩
  refine run_bind_eq_ok.2 ⟨s, _, run_ofExcept_eq_ok.2 ⟨hv, rfl⟩, ?_⟩
  exact run_bind_eq_ok.2 ⟨⟨⟩, t, ht, rfl⟩

theorem shown_settled {s : Section K} (hs : ∀ e ∈ s.toEntries, Shown e) : ∀ e ∈ s.settled.toEntries, Shown e := by
  cases s with
  | grid g =>
    -- Lengths and spacings are real numbers, which can always be printed.
    have hextent (e : Extent K) (count : K) (length spacing : String) :
        ∀ f ∈ e.toEntries count length spacing, Shown f := by
      cases e <;> simp [Extent.toEntries, entry, Shown]
    simp only [settled, toEntries, Grid.settled, Grid.toEntries, List.forall_mem_append] at hs ⊢
    exact ⟨⟨⟨hs.1.1.1, hextent _ _ _ _⟩, hextent _ _ _ _⟩, hs.2⟩
  | _ => exact hs

end Section

/-! ### All sections -/

namespace Sections

def get? (c : Sections K) : SectionName → Option (Section K)
  | .options => c.options.map .options
  | .grid => c.grid.map .grid
  | .properties => c.properties.map .properties
  | .initial => c.initial.map .initial
  | .numerics => c.numerics.map .numerics
  | .solver => c.solver.map .solver

omit [RealText K] in
theorem get?_add (c : Sections K) (s : Section K) (name : SectionName) :
    (c.add s).get? name = if s.name = name then some s else c.get? name := by
  cases s <;> cases name <;> rfl

omit [RealText K] in
theorem has_eq (c : Sections K) (name : SectionName) : c.has name = (c.get? name).isSome := by
  cases name <;> simp [has, get?]

omit [RealText K] in
theorem has_add (c : Sections K) (s : Section K) (name : SectionName) :
    (c.add s).has name = (decide (s.name = name) || c.has name) := by
  rw [has_eq, has_eq, get?_add]
  split <;> simp_all

end Sections

namespace Configuration

def get (c : Configuration K) : SectionName → Section K
  | .options => .options c.options
  | .grid => .grid c.grid
  | .properties => .properties c.properties
  | .initial => .initial c.initial
  | .numerics => .numerics c.numerics
  | .solver => .solver c.solver

omit [RealText K] in
theorem name_get (c : Configuration K) (name : SectionName) : (c.get name).name = name := by
  cases name <;> rfl

/-- A configuration whose grid has its lengths given. -/
def settled (c : Configuration K) : Configuration K := { c with grid := c.grid.settled }

theorem get_settled (c : Configuration K) (name : SectionName) : c.settled.get name = (c.get name).settled := by
  cases name <;> rfl

theorem get_mem_toEntries (c : Configuration K) (name : SectionName) :
    entry name.text (.map (c.get name).toEntries) ∈ c.toEntries := by
  cases name <;> simp [toEntries, get, Section.toEntries, SectionName.text]

omit [RealText K] in
theorem ofSections_eq_ok {s : Sections K} {c : Configuration K} :
    ofSections s = .ok c ↔ ∀ name, s.get? name = some (c.get name) := by
  obtain ⟨options, grid, properties, initial, numerics, solver⟩ := s
  constructor
  · intro h name
    unfold ofSections at h
    split at h
    next heq =>
      cases heq
      cases h
      cases name <;> rfl
    next => cases h
  · intro h
    have hoptions : options = some c.options := by simpa [Sections.get?, get] using h .options
    have hgrid : grid = some c.grid := by simpa [Sections.get?, get] using h .grid
    have hproperties : properties = some c.properties := by simpa [Sections.get?, get] using h .properties
    have hinitial : initial = some c.initial := by simpa [Sections.get?, get] using h .initial
    have hnumerics : numerics = some c.numerics := by simpa [Sections.get?, get] using h .numerics
    have hsolver : solver = some c.solver := by simpa [Sections.get?, get] using h .solver
    rw [hoptions, hgrid, hproperties, hinitial, hnumerics, hsolver]
    rfl

omit [RealText K] in
theorem ext_get {c d : Configuration K} (h : ∀ name, c.get name = d.get name) : c = d := by
  have hoptions := Section.options.inj (h .options)
  have hgrid := Section.grid.inj (h .grid)
  have hproperties := Section.properties.inj (h .properties)
  have hinitial := Section.initial.inj (h .initial)
  have hnumerics := Section.numerics.inj (h .numerics)
  have hsolver := Section.solver.inj (h .solver)
  cases c
  cases d
  simp_all

omit [RealText K] in
theorem exists_ofSections {s : Sections K} (hs : ∀ name, s.has name = true) : ∃ c, ofSections s = .ok c := by
  obtain ⟨options, hoptions⟩ := Option.isSome_iff_exists.1 (hs .options)
  obtain ⟨grid, hgrid⟩ := Option.isSome_iff_exists.1 (hs .grid)
  obtain ⟨properties, hproperties⟩ := Option.isSome_iff_exists.1 (hs .properties)
  obtain ⟨initial, hinitial⟩ := Option.isSome_iff_exists.1 (hs .initial)
  obtain ⟨numerics, hnumerics⟩ := Option.isSome_iff_exists.1 (hs .numerics)
  obtain ⟨solver, hsolver⟩ := Option.isSome_iff_exists.1 (hs .solver)
  refine ⟨⟨options, grid, properties, initial, numerics, solver⟩, ofSections_eq_ok.2 fun name => ?_⟩
  cases name <;> simp [Sections.get?, get, hoptions, hgrid, hproperties, hinitial, hnumerics, hsolver]

end Configuration

namespace Sections

/-- What holds of all sections that were read so far. -/
def Hold (P : SectionName → Section K → Prop) (s : Sections K) : Prop :=
  ∀ name found, s.get? name = some found → P name found

section Hold

omit [RealText K]

variable {P : SectionName → Section K → Prop}

theorem hold_none : none.Hold P := by
  intro name found h
  cases name <;> cases h

theorem Hold.add {s : Sections K} (hs : s.Hold P) {added : Section K} (hadded : P added.name added) :
    (s.add added).Hold P := by
  intro name found h
  rw [get?_add] at h
  split at h
  next hname =>
    cases h
    exact hname ▸ hadded
  next => exact hs name found h

end Hold

omit [RealText K] in
/-- A fold keeps what its steps keep. -/
theorem hold_of_foldlM {P : SectionName → Section K → Prop} {α : Type} {f : Sections K → α → Printing K (Sections K)}
    (hf : ∀ s a printed s' printed', s.Hold P → (f s a).run printed = .ok s' printed' → s'.Hold P) (l : List α)
    {s s' : Sections K} {printed printed' : List String} (hs : s.Hold P)
    (h : (l.foldlM f s).run printed = .ok s' printed') : s'.Hold P := by
  induction l generalizing s printed with
  | nil =>
    obtain ⟨rfl, -⟩ := run_pure_eq_ok.1 h
    exact hs
  | cons a l ih =>
    obtain ⟨u, t, hu, h⟩ := run_bind_eq_ok.1 h
    exact ih (hf s a printed u t hs hu) h

omit [RealText K] in
/-- A fold succeeds if its steps do, and every section that one of them adds is there in the end. -/
theorem exists_foldlM_has {α : Type} {f : Sections K → α → Printing K (Sections K)}
    {P : SectionName → Section K → Prop} {adds : α → SectionName → Prop} {l : List α}
    (hf : ∀ a ∈ l, ∀ s printed, s.Hold P → ∃ s' printed', (f s a).run printed = .ok s' printed' ∧ s'.Hold P ∧
      ∀ name, (s.has name = true ∨ adds a name) → s'.has name = true)
    {s : Sections K} (hs : s.Hold P) (printed : List String) :
    ∃ s' printed', (l.foldlM f s).run printed = .ok s' printed' ∧ s'.Hold P ∧
      ∀ name, (s.has name = true ∨ ∃ a ∈ l, adds a name) → s'.has name = true := by
  induction l generalizing s printed with
  | nil => exact ⟨s, printed, rfl, hs, fun name hname => hname.resolve_right (by simp)⟩
  | cons a l ih =>
    obtain ⟨u, t, hstep, hu, huhas⟩ := hf a List.mem_cons_self s printed hs
    obtain ⟨s', printed', hrun, hs', hhas⟩ := ih (fun b hb => hf b (List.mem_cons_of_mem a hb)) hu t
    refine ⟨s', printed', run_bind_eq_ok.2 ⟨u, t, hstep, hrun⟩, hs', fun name hname => hhas name ?_⟩
    rcases hname with hname | ⟨b, hb, hname⟩
    · exact .inl (huhas name (.inl hname))
    · rcases List.mem_cons.1 hb with rfl | hb
      · exact .inl (huhas name (.inr hname))
      · exact .inr ⟨b, hb, hname⟩

/-- The entry of a section that can be read is read, and the entry of none is passed over. -/
theorem exists_addEntry {P : SectionName → Section K → Prop} {e : Value K × Value K}
    (he : ∀ name, SectionName.ofKey? e.1 = some name →
      ∃ found, Section.ofValue name e.2 = .ok found ∧ P name found ∧ ∀ f ∈ found.toEntries, Shown f)
    {s : Sections K} (hs : s.Hold P) (printed : List String) :
    ∃ s' printed', (s.addEntry e).run printed = .ok s' printed' ∧ s'.Hold P ∧
      ∀ name, (s.has name = true ∨ SectionName.ofKey? e.1 = some name) → s'.has name = true := by
  unfold addEntry
  cases hkey : SectionName.ofKey? e.1 with
  | none => exact ⟨s, printed, rfl, hs, fun name hname => hname.resolve_right nofun⟩
  | some name =>
    obtain ⟨found, hfound, hP, hshown⟩ := he name hkey
    obtain ⟨rfl, -⟩ := Section.name_and_checked_of_ofValue hfound
    obtain ⟨t, ht⟩ := Section.exists_readTitled hfound hshown printed
    refine ⟨s.add found, t, run_bind_eq_ok.2 ⟨found, t, ht, rfl⟩, hs.add hP, fun other h => ?_⟩
    rw [has_add]
    rcases h with h | h
    · simp [h]
    · simp [Option.some.inj h]

/-! ### The first time -/

theorem kept_add_readTitled {s s' : Sections K} {name : SectionName} {v : Value K} {printed printed' : List String}
    (hs : s.Hold fun _ => Section.Kept)
    (h : (do return s.add (← Section.readTitled name v) : Printing K _).run printed = .ok s' printed') :
    s'.Hold fun _ => Section.Kept := by
  obtain ⟨found, t, hfound, h⟩ := run_bind_eq_ok.1 h
  obtain ⟨rfl, -⟩ := run_pure_eq_ok.1 h
  exact hs.add (Section.kept_of_readTitled hfound)

theorem kept_addEntry {s s' : Sections K} {e : Value K × Value K} {printed printed' : List String}
    (hs : s.Hold fun _ => Section.Kept) (h : (s.addEntry e).run printed = .ok s' printed') :
    s'.Hold fun _ => Section.Kept := by
  unfold addEntry at h
  split at h
  · exact kept_add_readTitled hs h
  · obtain ⟨rfl, -⟩ := run_pure_eq_ok.1 h
    exact hs

theorem kept_addDefault {s s' : Sections K} {name : SectionName} {printed printed' : List String}
    (hs : s.Hold fun _ => Section.Kept) (h : (s.addDefault name).run printed = .ok s' printed') :
    s'.Hold fun _ => Section.Kept := by
  unfold addDefault at h
  split at h
  · obtain ⟨rfl, -⟩ := run_pure_eq_ok.1 h
    exact hs
  · exact kept_add_readTitled hs h

end Sections

theorem Configuration.kept_of_read {document : Except (Failure K) (Value K)} {c : Configuration K}
    {printed printed' : List String} (h : (read document).run printed = .ok c printed') (name : SectionName) :
    (c.get name).Kept := by
  obtain ⟨_, _, -, h⟩ := run_bind_eq_ok.1 h
  obtain ⟨v, _, -, h⟩ := run_bind_eq_ok.1 h
  obtain ⟨c', _, hsections, h⟩ := run_bind_eq_ok.1 h
  obtain ⟨_, _, -, h⟩ := run_bind_eq_ok.1 h
  obtain ⟨rfl, -⟩ := run_pure_eq_ok.1 h
  obtain ⟨es, _, -, h⟩ := run_bind_eq_ok.1 hsections
  obtain ⟨s, _, hentries, h⟩ := run_bind_eq_ok.1 h
  obtain ⟨s', _, hdefaults, h⟩ := run_bind_eq_ok.1 h
  obtain ⟨h, -⟩ := run_ofExcept_eq_ok.1 h
  have hs : s.Hold fun _ => Section.Kept :=
    Sections.hold_of_foldlM (fun _ _ _ _ _ => Sections.kept_addEntry) es Sections.hold_none hentries
  have hs' : s'.Hold fun _ => Section.Kept :=
    Sections.hold_of_foldlM (fun _ _ _ _ _ => Sections.kept_addDefault) _ hs hdefaults
  exact hs' name _ (ofSections_eq_ok.1 h name)

/-! ### The second time -/

namespace Sections

/-- Where every section is there no default is read. -/
theorem foldlM_addDefault_of_has {s : Sections K} (hs : ∀ name, s.has name = true) (names : List SectionName)
    (printed : List String) : (names.foldlM addDefault s).run printed = .ok s printed := by
  induction names with
  | nil => rfl
  | cons name names ih =>
    refine run_bind_eq_ok.2 ⟨s, printed, ?_, ih⟩
    unfold addDefault
    rw [if_pos (hs name)]
    rfl

end Sections

namespace Configuration

/-- A document holds a configuration: its keys are distinct, and each section is among its entries, as it is written
but for the order of settings. -/
structure HeldBy (c : Configuration K) (es : Entries K) : Prop where
  distinct : Value.DistinctKeys es
  sections : ∀ e ∈ c.toEntries, ∃ v, Value.lookup? es e.1 = some v ∧ Value.Rearranged v e.2

theorem heldBy_of_subset {c : Configuration K} {es : Entries K} (hdistinct : Value.DistinctKeys es)
    (hsubset : ∀ e ∈ c.toEntries, e ∈ es) : c.HeldBy es := by
  refine ⟨hdistinct, fun e he => ⟨e.2, ?_, .refl e.2⟩⟩
  obtain ⟨name, hname⟩ : ∃ name, e.1 = .text name := by
    revert e
    simp [toEntries, entry]
  rw [hname]
  exact hdistinct.lookup?_of_mem (hname ▸ hsubset e he)

omit [RealText K] in
theorem key_of_ofKey? {key : Value K} {name : SectionName} (h : SectionName.ofKey? key = some name) :
    key = .text name.text := by
  unfold SectionName.ofKey? at h
  split at h
  next s =>
    have hs : name.text = s := by simpa using List.find?_some h
    rw [hs]
  next => cases h

omit [RealText K] in
theorem ofKey?_text (name : SectionName) : SectionName.ofKey? (.text name.text : Value K) = some name := by
  cases name <;> simp [SectionName.ofKey?, SectionName.all, SectionName.text]

/-- A configuration whose sections passed their checks is read from every document that holds it. -/
theorem exists_readSections {c : Configuration K} (hc : ∀ name, (c.get name).Kept) {es : Entries K}
    (hes : c.HeldBy es) (printed : List String) :
    ∃ printed', (readSections (.map es)).run printed = .ok c.settled printed' := by
  have hsections (e) (he : e ∈ es) (name) (hname : SectionName.ofKey? e.1 = some name) :
      ∃ found, Section.ofValue name e.2 = .ok found ∧ found = (c.get name).settled ∧
        ∀ f ∈ found.toEntries, Shown f := by
    obtain ⟨v, hv, hrearranged⟩ := hes.sections _ (c.get_mem_toEntries name)
    obtain ⟨key, w⟩ := e
    obtain rfl := key_of_ofKey? hname
    have hw : Value.lookup? es (.text name.text) = some w := hes.distinct.lookup?_of_mem he
    obtain rfl := Option.some.inj (hw.symm.trans hv)
    have hread := Section.ofValue_of_rearranged (hc name).checked hrearranged
    rw [c.name_get] at hread
    exact ⟨_, hread, rfl, Section.shown_settled (hc name).shown⟩
  obtain ⟨s, t, hrun, hs, hhas⟩ := Sections.exists_foldlM_has
    (fun e he _ printed hs => Sections.exists_addEntry (hsections e he) hs printed) Sections.hold_none printed
  have hall (name) : s.has name = true := by
    obtain ⟨v, hv, -⟩ := hes.sections _ (c.get_mem_toEntries name)
    obtain ⟨⟨key, w⟩, he, hkey, -⟩ := Value.exists_of_lookup? hv
    obtain rfl := Value.sameKey_text_iff.1 hkey
    exact hhas name (.inr ⟨_, he, ofKey?_text name⟩)
  obtain ⟨c', hc'⟩ := exists_ofSections hall
  have hsettled : c' = c.settled := by
    refine ext_get fun name => ?_
    rw [get_settled, hs name _ (ofSections_eq_ok.1 hc' name)]
  subst hsettled
  exact ⟨t, run_bind_eq_ok.2 ⟨es, printed, rfl, run_bind_eq_ok.2 ⟨s, t, hrun, run_bind_eq_ok.2
    ⟨s, t, Sections.foldlM_addDefault_of_has hall _ t, run_ofExcept_eq_ok.2 ⟨hc', rfl⟩⟩⟩⟩⟩

theorem toEntries_settled {c : Configuration K} (hc : c.grid.Exact) :
    Value.Rearranged (.map c.settled.toEntries) (.map c.toEntries) :=
  .of_forall₂ <| .cons ⟨rfl, .refl _⟩ <| .cons ⟨rfl, Grid.toEntries_settled hc⟩ <| .cons ⟨rfl, .refl _⟩ <|
    .cons ⟨rfl, .refl _⟩ <| .cons ⟨rfl, .refl _⟩ <| .cons ⟨rfl, .refl _⟩ .nil

theorem run_read_of_ok {v : Value K} {c : Configuration K} {before after : List String}
    (h : (readSections v).run (before ++ Text.heading "PROBLEM SETUP") = .ok c after) :
    (read (.ok v)).run before = .ok c (after ++ Text.heading "PROBLEM SETUP COMPLETED") :=
  run_bind_eq_ok.2 ⟨⟨⟩, _, Printing.run_say _ _, run_bind_eq_ok.2 ⟨v, _, rfl,
    run_bind_eq_ok.2 ⟨c, after, h, run_bind_eq_ok.2 ⟨⟨⟩, _, Printing.run_say _ _, rfl⟩⟩⟩⟩

/-! ### Documents that are accepted in exact arithmetic -/

/-- In exact arithmetic the defaults pass their own checks, and all of them can be printed. -/
theorem exists_default {name : SectionName} (hname : name ≠ .grid) :
    ∃ s : Section ℝ, Section.ofValue name (.map []) = .ok s ∧ s.name = name ∧ ∀ e ∈ s.toEntries, Shown e := by
  cases name with
  | options =>
    refine ⟨.options ⟨"example", 100, true, false⟩, rfl, rfl, ?_⟩
    simp [Section.toEntries, Options.toEntries, entry, Shown, isWritable_int]
  | grid => exact absurd rfl hname
  | properties =>
    have hsmall : Scalar.lt (1e-3 : ℝ) 0 = false := by norm_num
    refine ⟨.properties ⟨1e-3, 1e-3⟩, ?_, rfl, ?_⟩
    · simp only [Section.ofValue, Value.toEntries_map, ok_bind, Properties.ofEntries, given_nil, Value.toReal_real,
        hsmall, Bool.not_false, require_true]
      rfl
    · simp [Section.toEntries, Properties.toEntries, entry, Shown]
  | initial =>
    have hlam : Scalar.le (5.0 : ℝ) 0 = false := by norm_num
    have hcase : choose (K := ℝ) .initialCase CaseName.ofText? "tearing" = .ok .tearing := rfl
    refine ⟨.initial ⟨.tearing, 1e-3, 5.0, 0.2, true, none⟩, ?_, rfl, ?_⟩
    · simp only [Section.ofValue, Value.toEntries_map, ok_bind, Initial.ofEntries, given_nil, Value.toReal_real,
        Value.toText_text, hcase, hlam, Bool.not_false, require_true]
      rfl
    · simp [Section.toEntries, Initial.toEntries, entry, Shown]
  | numerics =>
    have hdt : Scalar.le (1e-2 : ℝ) 0 = false := by norm_num
    have hintegrator : choose (K := ℝ) .integrator Integrator.ofName? "implicit" = .ok .implicit := rfl
    have hscheme : choose (K := ℝ) .scheme Scheme.ofName? "rk2" = .ok .rk2 := rfl
    refine ⟨.numerics ⟨.implicit, .rk2, 1e-2, 1.0, 100000⟩, ?_, rfl, ?_⟩
    · simp only [Section.ofValue, Value.toEntries_map, ok_bind, Numerics.ofEntries, given_nil, Value.toReal_real,
        Value.toText_text, Value.toInteger_int, hintegrator, hscheme, hdt, Bool.not_false, require_true]
      rfl
    · simp [Section.toEntries, Numerics.toEntries, entry, Shown, isWritable_int]
  | solver =>
    have hdamping : (Scalar.lt 0 (1.0 : ℝ) && Scalar.le (1.0 : ℝ) 1) = true := by norm_num
    have hchoose : choose (K := ℝ) .newtonPreconditioner StepPreconditioner.ofName? "block" = .ok .block := rfl
    have hnewton : NewtonSolver.ofEntries ([] : Entries ℝ) =
        .ok ⟨1e-8, 1e-12, 20, 1.0, 1e-8, 0.0, 500, 50, 0, .block⟩ := by
      simp only [NewtonSolver.ofEntries, given_nil, Value.toReal_real, Value.toText_text, Value.toInteger_int, hchoose,
        ok_bind, hdamping, require_true]
      rfl
    refine ⟨.solver ⟨.serial, ⟨.cg, .jacobi, 1e-12, 0.0, 2000⟩, ⟨.cg, .jacobi, 1e-7, 0.0, 2000⟩, false, ⟨1e-7, 200⟩,
      ⟨1e-8, 1e-12, 20, 1.0, 1e-8, 0.0, 500, 50, 0, .block⟩⟩, ?_, rfl, ?_⟩
    · simp only [Section.ofValue, Value.toEntries_map, ok_bind, Solver.ofEntries, given_nil, hnewton]
      rfl
    · simp [Section.toEntries, Solver.toEntries, KrylovSolver.toEntries, MultigridSolver.toEntries,
        NewtonSolver.toEntries, entry, Shown, isWritable_int, -Prod.forall]

/-- In exact arithmetic a section that is not there is read from nothing. -/
theorem Sections.exists_addDefault {name : SectionName} (hname : name ≠ .grid) (s : Sections ℝ)
    (printed : List String) :
    ∃ s' printed', (s.addDefault name).run printed = .ok s' printed' ∧
      ∀ other, (s.has other = true ∨ name = other) → s'.has other = true := by
  unfold Sections.addDefault
  by_cases hhas : s.has name = true
  · rw [if_pos hhas]
    exact ⟨s, printed, rfl, fun other h => h.elim id fun h => h ▸ hhas⟩
  · rw [if_neg hhas]
    obtain ⟨found, hfound, rfl, hshown⟩ := exists_default hname
    obtain ⟨t, ht⟩ := Section.exists_readTitled hfound hshown printed
    refine ⟨s.add found, t, run_bind_eq_ok.2 ⟨found, t, ht, rfl⟩, fun other h => ?_⟩
    rw [Sections.has_add]
    rcases h with h | h
    · simp [h]
    · simp [h]

/-- In exact arithmetic a document is accepted if each of its sections is and the grid is among them. -/
theorem exists_read {es : Entries ℝ}
    (hes : ∀ e ∈ es, ∀ name, SectionName.ofKey? e.1 = some name →
      ∃ found, Section.ofValue name e.2 = .ok found ∧ ∀ f ∈ found.toEntries, Shown f)
    (hgrid : ∃ e ∈ es, SectionName.ofKey? e.1 = some .grid) (printed : List String) :
    ∃ c printed', (read (.ok (.map es))).run printed = .ok c printed' := by
  have hentry : ∀ e ∈ es, ∀ name, SectionName.ofKey? e.1 = some name →
      ∃ found, Section.ofValue name e.2 = .ok found ∧ True ∧ ∀ f ∈ found.toEntries, Shown f := by
    intro e he name hname
    obtain ⟨found, hfound, hshown⟩ := hes e he name hname
    exact ⟨found, hfound, trivial, hshown⟩
  obtain ⟨s, t, hentries, -, hhas⟩ := Sections.exists_foldlM_has
    (fun e he _ printed hs => Sections.exists_addEntry (hentry e he) hs printed) Sections.hold_none
    (printed ++ Text.heading "PROBLEM SETUP")
  have hdefault : ∀ name ∈ [SectionName.options, .properties, .initial, .numerics, .solver], ∀ (s : Sections ℝ) printed,
      s.Hold (fun _ _ => True) → ∃ s' printed', (s.addDefault name).run printed = .ok s' printed' ∧
        s'.Hold (fun _ _ => True) ∧ ∀ other, (s.has other = true ∨ name = other) → s'.has other = true := by
    intro name hname s printed _
    have hgrid : name ≠ .grid := by
      rintro rfl
      simp at hname
    obtain ⟨s', printed', hrun, hhas⟩ := Sections.exists_addDefault hgrid s printed
    exact ⟨s', printed', hrun, fun _ _ _ => trivial, hhas⟩
  obtain ⟨s', u, hdefaults, -, hhas'⟩ := Sections.exists_foldlM_has hdefault (fun _ _ _ => trivial) t
  have hall (name : SectionName) : s'.has name = true := by
    refine hhas' name ?_
    cases name with
    | grid => exact .inl (hhas .grid (.inr hgrid))
    | _ => exact .inr (by simp)
  obtain ⟨c, hc⟩ := exists_ofSections hall
  have hsections : (readSections (.map es)).run (printed ++ Text.heading "PROBLEM SETUP") = .ok c u :=
    run_bind_eq_ok.2 ⟨es, _, rfl, run_bind_eq_ok.2 ⟨s, t, hentries,
      run_bind_eq_ok.2 ⟨s', u, hdefaults, run_ofExcept_eq_ok.2 ⟨hc, rfl⟩⟩⟩⟩
  exact ⟨c, _, run_read_of_ok hsections⟩

/-! ### Reading again -/

/-- A configuration that was read is accepted again in every document that holds it, whatever stands beside its
sections, and comes out as it went in.  Lengths follow from spacings the first time and spacings from lengths the
second time, so their arithmetic has to be exact, as it is for the real numbers (`Grid.exact_real`). -/
theorem exists_read_again {document : Except (Failure K) (Value K)} {c : Configuration K}
    {printed printed' : List String} (hread : (read document).run printed = .ok c printed') (hgrid : c.grid.Exact)
    {es : Entries K} (hes : c.HeldBy es) (before : List String) :
    ∃ c' after, (read (.ok (.map es))).run before = .ok c' after ∧
      Value.Rearranged (.map c'.toEntries) (.map c.toEntries) := by
  obtain ⟨t, ht⟩ := exists_readSections (kept_of_read hread) hes (before ++ Text.heading "PROBLEM SETUP")
  exact ⟨c.settled, _, run_read_of_ok ht, toEntries_settled hgrid⟩

/-- A configuration with one length and one spacing, and with entries that nothing looks up. -/
theorem exists_read_again_strip : ∃ (c : Configuration ℝ) (printed : List String),
    (read (.ok (.map [entry "comment" .null, entry "grid" (.map [entry "dx" (.real 0.5), entry "Ly" (.int 2),
      entry "colour" (.text "grey")])]))).run [] = .ok c printed ∧ c.grid.Exact ∧
    c.HeldBy (entry "version" (.text "0.1.0") :: c.toEntries) ∧
    ∃ c' after, (read (.ok (.map (entry "version" (.text "0.1.0") :: c.toEntries)))).run [] = .ok c' after ∧
      Value.Rearranged (.map c'.toEntries) (.map c.toEntries) := by
  have hgrid : Section.ofValue (K := ℝ) .grid (.map [entry "dx" (.real 0.5), entry "Ly" (.int 2),
      entry "colour" (.text "grey")]) = .ok (.grid ⟨16, 16, ((16 : ℤ) : ℝ), ((16 : ℤ) : ℝ), .ofSpacing 0.5,
        .ofLength ((2 : ℤ) : ℝ), 0, 0, [1, 1, 1, 1]⟩) := rfl
  have hmarkers : (.list [.int 1, .int 1, .int 1, .int 1] : Value ℝ).isWritable = true :=
    isWritable_markers (l := [1, 1, 1, 1]) (by simp)
  have hcomment : SectionName.ofKey? (.text "comment" : Value ℝ) = none := by decide
  have hkey : SectionName.ofKey? (.text "grid" : Value ℝ) = some .grid := by decide
  have hsections : ∀ e ∈ [entry "comment" .null, entry "grid" (.map [entry "dx" (.real (0.5 : ℝ)), entry "Ly" (.int 2),
      entry "colour" (.text "grey")])], ∀ name, SectionName.ofKey? e.1 = some name →
      ∃ found, Section.ofValue name e.2 = .ok found ∧ ∀ f ∈ found.toEntries, Shown f := by
    intro e he name hname
    rcases List.mem_cons.1 he with rfl | he
    · cases hcomment.symm.trans hname
    · obtain rfl := List.mem_singleton.1 he
      obtain rfl := Option.some.inj (hkey.symm.trans hname)
      refine ⟨_, hgrid, ?_⟩
      simp [Section.toEntries, Grid.toEntries, Extent.toEntries, entry, Shown, isWritable_int, hmarkers]
  obtain ⟨c, printed, hread⟩ := exists_read hsections ⟨_, List.mem_cons_of_mem _ List.mem_cons_self, hkey⟩ []
  have hexact : c.grid.Exact := Grid.exact_real (kept_of_read hread .grid).checked
  have hheld : c.HeldBy (entry "version" (.text "0.1.0") :: c.toEntries) :=
    heldBy_of_subset (by simp [Value.DistinctKeys, toEntries, entry, Value.sameKey_text_text])
      fun e he => List.mem_cons_of_mem _ he
  exact ⟨c, _, hread, hexact, hheld, exists_read_again hread hexact hheld []⟩

end Configuration

end Magnetofluid.Settings
