import Mathlib
import Magnetofluid.Proofs.Settings.Sections

/-!
# Two ways to complete the settings of the solvers

`SolverSettings.fill` completes a map of settings by overwriting the entries of a map of defaults, and
`Settings.Solver.ofEntries` by looking up each setting with a default of its own.  Both give the same map.

* `Value.foldl_set`: entries that are set one after the other, by induction on what is set.
* `SolverSettings.Fits`: some of the settings of a map of defaults, each of the kind of its default.
* `SolverSettings.fill_eq`: each section completed in its place.
* `SolverSettings.fill_eq_sanitized`: the same map both ways.
-/

namespace Magnetofluid

variable {K : Type} [RealText K]

/-! ### Setting entries -/

namespace Value

/-- The entries with those of a key changed. -/
def change (key : Value K) (f : Value K → Value K) (es : List (Value K × Value K)) : List (Value K × Value K) :=
  es.map fun e => if sameKey e.1 key then (e.1, f e.2) else e

/-- The keys are these texts, all different. -/
structure Named (names : List String) (es : List (Value K × Value K)) : Prop where
  keys : es.map (·.1) = names.map .text
  nodup : names.Nodup

theorem Named.change {names : List String} {es : List (Value K × Value K)} (hes : Named names es) (key : Value K)
    (f : Value K → Value K) : Named names (change key f es) := by
  refine ⟨?_, hes.nodup⟩
  rw [← hes.keys, Value.change, List.map_map]
  refine List.map_congr_left fun e _ => ?_
  rw [Function.comp_apply]
  split <;> rfl

omit [RealText K] in
theorem Named.exists_name {names : List String} {es : List (Value K × Value K)} (hes : Named names es)
    {e : Value K × Value K} (he : e ∈ es) : ∃ name ∈ names, e.1 = .text name := by
  have hkey : e.1 ∈ names.map .text := by
    rw [← hes.keys]
    exact List.mem_map_of_mem he
  obtain ⟨name, hname, heq⟩ := List.mem_map.1 hkey
  exact ⟨name, hname, heq.symm⟩

theorem Named.distinctKeys {names : List String} {es : List (Value K × Value K)} (hes : Named names es) :
    DistinctKeys es := by
  have hkeys : (es.map (·.1)).Pairwise fun k l => sameKey k l = false := by
    rw [hes.keys, List.pairwise_map]
    refine hes.nodup.imp fun {s t} hne => ?_
    simp [sameKey_text_text, hne]
  exact List.pairwise_map.1 hkeys

theorem change_cons (key : Value K) (f : Value K → Value K) (e : Value K × Value K) (es : List (Value K × Value K)) :
    change key f (e :: es) = (if sameKey e.1 key then (e.1, f e.2) else e) :: change key f es := rfl

theorem change_of_not_mem {key : Value K} {es : List (Value K × Value K)} (h : ∀ e ∈ es, sameKey e.1 key = false)
    (f : Value K → Value K) : change key f es = es := by
  have hid : ∀ e ∈ es, (if sameKey e.1 key then (e.1, f e.2) else e) = id e := by
    intro e he
    simp [h e he]
  exact (List.map_congr_left hid).trans (List.map_id es)

/-- A key that is there keeps its place when it is set. -/
theorem insert_eq_change {names : List String} {es : List (Value K × Value K)} (hes : Named names es) {name : String}
    (hname : name ∈ names) (v : Value K) : insert (.text name) v es = change (.text name) (fun _ => v) es := by
  induction es generalizing names with
  | nil =>
    cases names with
    | nil => cases hname
    | cons _ _ => cases hes.keys
  | cons e es ih =>
    cases names with
    | nil => cases hes.keys
    | cons first names =>
      obtain ⟨hfirst, hkeys⟩ := List.cons.inj hes.keys
      obtain ⟨hnotMem, hnodup⟩ := List.nodup_cons.1 hes.nodup
      have hrest : Named names es := ⟨hkeys, hnodup⟩
      have hhead : sameKey e.1 (.text name) = (first == name) := by
        rw [show e.1 = .text first from hfirst, sameKey_text_text]
      rw [insert, change_cons, hhead]
      by_cases heq : first = name
      · have habsent : ∀ f ∈ es, sameKey f.1 (.text name) = false := by
          intro f hf
          obtain ⟨other, hother, hkey⟩ := hrest.exists_name hf
          have hne : other ≠ name := by
            rintro rfl
            exact hnotMem (heq ▸ hother)
          simp [hkey, sameKey_text_text, hne]
        simp [heq, change_of_not_mem habsent]
      · have hmem : name ∈ names := (List.mem_cons.1 hname).resolve_left (Ne.symm heq)
        simp [heq, ih hrest hmem]

/-- Entries that are set one after the other, where setting an entry changes what its key held before. -/
theorem foldl_set {names : List String} (set : List (Value K × Value K) → Value K → Value K → List (Value K × Value K))
    (g : Value K → Value K → Value K)
    (hset : ∀ es, Named names es → ∀ name ∈ names, ∀ v, set es (.text name) v = change (.text name) (g · v) es)
    {es new : List (Value K × Value K)} (hes : Named names es) (hnew : DistinctKeys new)
    (hkeys : ∀ e ∈ new, ∃ name ∈ names, e.1 = .text name) :
    new.foldl (fun es e => set es e.1 e.2) es = es.map fun e => (e.1, (lookup? new e.1).elim e.2 (g e.2)) := by
  induction new generalizing es with
  | nil => exact (List.map_id es).symm
  | cons f new ih =>
    obtain ⟨hhead, htail⟩ := List.pairwise_cons.1 hnew
    obtain ⟨name, hname, hf⟩ := hkeys f List.mem_cons_self
    have hlater : lookup? new (.text name) = none := by
      refine Option.map_eq_none_iff.2 (List.find?_eq_none.2 fun e he hkey => ?_)
      have hdistinct := hhead e he
      rw [hf, sameKey_text_iff.1 hkey, sameKey_text_text] at hdistinct
      simp at hdistinct
    rw [List.foldl_cons, hf, hset es hes name hname,
      ih (hes.change _ _) htail fun e he => hkeys e (List.mem_cons_of_mem f he), change, List.map_map]
    refine List.map_congr_left fun e he => ?_
    obtain ⟨other, -, hother⟩ := hes.exists_name he
    rw [Function.comp_apply, lookup?_cons, hf, hother, sameKey_text_text, sameKey_text_text]
    by_cases heq : name = other
    · subst heq
      simp [hlater]
    · simp [hother, heq, Ne.symm heq]

end Value

namespace SolverSettings

open Settings

/-! ### Partial settings -/

/-- A value is of the kind of a default. A map is of the kind of a map of defaults if it holds some of its settings,
each once and of the kind of its default. -/
inductive Fits : Value K → Value K → Prop
  | text (d s : String) : Fits (.text d) (.text s)
  | bool (d b : Bool) : Fits (.bool d) (.bool b)
  | int (d i : ℤ) : Fits (.int d) (.int i)
  | real (d x : K) : Fits (.real d) (.real x)
  | map {defaults es : List (Value K × Value K)} : Value.DistinctKeys es →
      (∀ e ∈ es, (Value.lookup? defaults e.1).isSome) →
      (∀ e ∈ es, ∀ d, Value.lookup? defaults e.1 = some d → Fits d e.2) → Fits (.map defaults) (.map es)

namespace Fits

variable {defaults es : Entries K} {name : String}

theorem of_named? (h : Fits (.map defaults) (.map es)) {d v : Value K} (hd : Value.named? defaults name = some d)
    (hv : Value.named? es name = some v) : Fits d v := by
  obtain ⟨e, he, hkey, rfl⟩ := Value.exists_of_lookup? hv
  cases h with
  | map _ _ hfits =>
    refine hfits e he d ?_
    rw [Value.sameKey_text_iff.1 hkey]
    exact hd

/-- What is given for a setting, or else its default, is of the kind of the default. -/
theorem given (h : Fits (.map defaults) (.map es)) {d : Value K} (hd : Value.named? defaults name = some d)
    (hdd : Fits d d) : Fits d (Settings.given es name d) := by
  unfold Settings.given
  cases hname : Value.named? es name with
  | none => exact hdd
  | some v => exact h.of_named? hd hname

theorem given_text (h : Fits (.map defaults) (.map es)) {d s : String}
    (hd : Value.named? defaults name = some (.text d)) (hs : (Settings.given es name (.text d)).toText = .ok s) :
    Settings.given es name (.text d) = .text s := by
  have hgiven := h.given hd (.text d d)
  generalize Settings.given es name (.text d) = v at hgiven hs ⊢
  cases hgiven with
  | text _ t => rw [Except.ok.inj ((Value.toText_text t).symm.trans hs)]

theorem given_int (h : Fits (.map defaults) (.map es)) {d i : ℤ}
    (hd : Value.named? defaults name = some (.int d)) (hi : (Settings.given es name (.int d)).toInteger = .ok i) :
    Settings.given es name (.int d) = .int i := by
  have hgiven := h.given hd (.int d d)
  generalize Settings.given es name (.int d) = v at hgiven hi ⊢
  cases hgiven with
  | int _ j => rw [Except.ok.inj hi]

theorem given_real (h : Fits (.map defaults) (.map es)) {d x : K}
    (hd : Value.named? defaults name = some (.real d)) (hx : (Settings.given es name (.real d)).toReal = .ok x) :
    Settings.given es name (.real d) = .real x := by
  have hgiven := h.given hd (.real d d)
  generalize Settings.given es name (.real d) = v at hgiven hx ⊢
  cases hgiven with
  | real _ y => rw [Except.ok.inj hx]

theorem given_bool (h : Fits (.map defaults) (.map es)) (name : String) (d : Bool)
    (hd : Value.named? defaults name = some (.bool d)) :
    Settings.given es name (.bool d) = .bool (Settings.given es name (.bool d)).isTrue := by
  have hgiven := h.given hd (.bool d d)
  generalize Settings.given es name (.bool d) = v at hgiven ⊢
  cases hgiven with
  | bool _ b => rfl

/-- Part of the settings of a section are some of the settings of that section. -/
theorem part (h : Fits (.map defaults) (.map es)) {old new : Entries K}
    (hd : Value.named? defaults name = some (.map old))
    (hnew : (Settings.given es name (.map [])).toEntries = .ok new) : Fits (.map old) (.map new) := by
  have hempty : Fits (.map old) (.map []) := .map .nil nofun nofun
  unfold Settings.given at hnew
  cases hname : Value.named? es name with
  | none =>
    rw [hname] at hnew
    exact Except.ok.inj hnew ▸ hempty
  | some v =>
    rw [hname] at hnew
    have hv := h.of_named? hd hname
    cases hv with
    | map hdistinct hknown hfits => exact Except.ok.inj hnew ▸ .map hdistinct hknown hfits

end Fits

/-! ### Completing a map of defaults -/

/-- What a setting becomes that is given as the second value while it was the first. -/
def merge (old new : Value K) : Value K :=
  match new, old with
  | .map new, .map old => .map (new.foldl (fun es e => Value.insert e.1 e.2 es) old)
  | _, _ => new

theorem setSection_eq_change {names : List String} {es : Entries K} (hes : Value.Named names es) {name : String}
    (hname : name ∈ names) (v : Value K) : setSection es (.text name) v = Value.change (.text name) (merge · v) es := by
  have hkey : Value.text name ∈ es.map (·.1) := by
    rw [hes.keys]
    exact List.mem_map_of_mem hname
  obtain ⟨⟨key, old⟩, he, rfl⟩ := List.mem_map.1 hkey
  have hlookup : Value.lookup? es (.text name) = some old := hes.distinctKeys.lookup?_of_mem he
  have hset : setSection es (.text name) v = Value.insert (.text name) (merge old v) es := by
    unfold setSection
    rw [hlookup]
    cases v with
    | map new => cases old <;> rfl
    | _ => rfl
  rw [hset, Value.insert_eq_change hes hname]
  refine List.map_congr_left fun f hf => ?_
  obtain ⟨other, v⟩ := f
  by_cases hsame : Value.sameKey other (.text name) = true
  · obtain rfl := Value.sameKey_text_iff.1 hsame
    have hold := Option.some.inj (hlookup.symm.trans (hes.distinctKeys.lookup?_of_mem hf))
    rw [hold]
  · simp [hsame]

/-- A map of defaults with some of its settings overwritten. -/
def overlay (defaults new : Entries K) : Entries K :=
  defaults.map fun e => (e.1, (Value.lookup? new e.1).getD e.2)

theorem overlay_nil (new : Entries K) : overlay [] new = [] := rfl

theorem overlay_cons (name : String) (d : Value K) (defaults new : Entries K) :
    overlay (entry name d :: defaults) new = entry name (given new name d) :: overlay defaults new := rfl

theorem Fits.exists_name {names : List String} {defaults new : Entries K} (hdefaults : Value.Named names defaults)
    (h : Fits (.map defaults) (.map new)) : ∀ e ∈ new, ∃ name ∈ names, e.1 = .text name := by
  intro e he
  cases h with
  | map _ hknown _ =>
    obtain ⟨d, hd⟩ := Option.isSome_iff_exists.1 (hknown e he)
    obtain ⟨f, hf, hkey, -⟩ := Value.exists_of_lookup? hd
    obtain ⟨name, hname, heq⟩ := hdefaults.exists_name hf
    rw [heq] at hkey
    exact ⟨name, hname, Value.text_sameKey_iff.1 hkey⟩

theorem Fits.distinctKeys {defaults new : Entries K} (h : Fits (.map defaults) (.map new)) :
    Value.DistinctKeys new := by
  cases h with
  | map hdistinct _ _ => exact hdistinct

theorem foldl_insert_eq_overlay {names : List String} {defaults new : Entries K}
    (hdefaults : Value.Named names defaults) (h : Fits (.map defaults) (.map new)) :
    new.foldl (fun es e => Value.insert e.1 e.2 es) defaults = overlay defaults new := by
  refine (Value.foldl_set (fun es k v => Value.insert k v es) (fun _ v => v)
    (fun es hes name hname v => Value.insert_eq_change hes hname v) hdefaults h.distinctKeys
    (h.exists_name hdefaults)).trans (List.map_congr_left fun e _ => ?_)
  cases Value.lookup? new e.1 <;> rfl

def sectionNames : List String := ["backend", "mass", "stiffness", "use_amg", "amg", "newton"]

theorem named_defaults : Value.Named sectionNames (defaults : Entries K) := ⟨rfl, by decide⟩

/-- A map of defaults with every section completed in its place. -/
def complete (defaults given : Entries K) : Entries K :=
  defaults.map fun e => (e.1, (Value.lookup? given e.1).elim e.2 (merge e.2))

theorem complete_nil (given : Entries K) : complete [] given = [] := rfl

theorem complete_cons (name : String) (d : Value K) (defaults given : Entries K) :
    complete (entry name d :: defaults) given =
      entry name ((Value.named? given name).elim d (merge d)) :: complete defaults given := rfl

theorem fill_eq {given : Entries K} (h : Fits (.map defaults) (.map given)) :
    fill (.map given) = .ok (complete defaults given) := by
  have hfold : given.foldl (fun es e => setSection es e.1 e.2) defaults = complete defaults given :=
    Value.foldl_set setSection merge (fun es hes name hname v => setSection_eq_change hes hname v) named_defaults h.distinctKeys
      (h.exists_name named_defaults)
  rw [← hfold]
  cases given <;> rfl

/-- A setting that is no section is replaced. -/
theorem elim_merge_eq_given {d : Value K} (hd : d.isMap = false) (given : Entries K) (name : String) :
    (Value.named? given name).elim d (merge d) = Settings.given given name d := by
  unfold Settings.given
  cases Value.named? given name with
  | none => rfl
  | some v =>
    cases v with
    | map new =>
      cases d with
      | map old => cases hd
      | _ => rfl
    | _ => rfl

/-- The settings of a section are replaced one by one. -/
theorem elim_merge_eq_overlay {names : List String} {old new given : Entries K} {name : String}
    (hold : Value.Named names old) (h : Fits (.map old) (.map new))
    (hnew : (Settings.given given name (.map [])).toEntries = .ok new) :
    (Value.named? given name).elim (.map old) (merge (.map old)) = .map (overlay old new) := by
  rw [← foldl_insert_eq_overlay hold h]
  unfold Settings.given at hnew
  cases hname : Value.named? given name with
  | none =>
    rw [hname] at hnew
    cases hnew
    rfl
  | some v =>
    rw [hname] at hnew
    cases v <;> cases hnew
    rfl

/-! ### The settings of each solver -/

def krylovDefaults (rtol : K) : Entries K :=
  [entry "method" (.text "cg"), entry "preconditioner" (.text "jacobi"), entry "rtol" (.real rtol),
    entry "atol" (.real 0.0), entry "max_iter" (.int 2000)]

theorem named_krylovDefaults (rtol : K) :
    Value.Named ["method", "preconditioner", "rtol", "atol", "max_iter"] (krylovDefaults rtol) := ⟨rfl, by decide⟩

/-- The settings of a linear solver, looked up one by one, are its defaults with some of them overwritten. -/
theorem overlay_krylovDefaults {rtol : K} {es : Entries K} {s : KrylovSolver K}
    (hes : Fits (.map (krylovDefaults rtol)) (.map es))
    (h : KrylovSolver.ofEntries es (.real rtol) (.int 2000) = .ok s) :
    overlay (krylovDefaults rtol) es = s.toEntries := by
  simp only [KrylovSolver.ofEntries, except_bind_eq_ok, choose_eq_ok, Krylov.Method.ofName?_eq_some_iff,
    KrylovPreconditioner.ofName?_eq_some_iff] at h
  obtain ⟨method, hmethod, preconditioner, hpreconditioner, rtol', hrtol, atol, hatol, maxIter, hmaxIter, method', rfl,
    preconditioner', rfl, h⟩ := h
  cases h
  have hmethod := hes.given_text (by simp [krylovDefaults]) hmethod
  have hpreconditioner := hes.given_text (by simp [krylovDefaults]) hpreconditioner
  have hrtol := hes.given_real (by simp [krylovDefaults]) hrtol
  have hatol := hes.given_real (by simp [krylovDefaults]) hatol
  have hmaxIter := hes.given_int (by simp [krylovDefaults]) hmaxIter
  simp only [krylovDefaults, overlay_cons, overlay_nil, hmethod, hpreconditioner, hrtol, hatol, hmaxIter,
    KrylovSolver.toEntries]

def multigridDefaults : Entries K := [entry "rtol" (.real 1e-7), entry "max_iter" (.int 200)]

theorem named_multigridDefaults : Value.Named ["rtol", "max_iter"] (multigridDefaults : Entries K) :=
  ⟨rfl, by decide⟩

theorem overlay_multigridDefaults {es : Entries K} {s : MultigridSolver K}
    (hes : Fits (.map multigridDefaults) (.map es)) (h : MultigridSolver.ofEntries es = .ok s) :
    overlay multigridDefaults es = s.toEntries := by
  simp only [MultigridSolver.ofEntries, except_bind_eq_ok] at h
  obtain ⟨rtol, hrtol, maxIter, hmaxIter, h⟩ := h
  cases h
  have hrtol := hes.given_real (by simp [multigridDefaults]) hrtol
  have hmaxIter := hes.given_int (by simp [multigridDefaults]) hmaxIter
  simp only [multigridDefaults, overlay_cons, overlay_nil, hrtol, hmaxIter, MultigridSolver.toEntries]

def newtonDefaults : Entries K :=
  [entry "rtol" (.real 1e-8), entry "atol" (.real 1e-12), entry "max_iter" (.int 20), entry "alpha" (.real 1.0),
    entry "linear_rtol" (.real 1e-8), entry "linear_atol" (.real 0.0), entry "linear_max_iter" (.int 500),
    entry "restart" (.int 50), entry "print_level" (.int 0), entry "preconditioner" (.text "block")]

theorem named_newtonDefaults : Value.Named ["rtol", "atol", "max_iter", "alpha", "linear_rtol", "linear_atol",
    "linear_max_iter", "restart", "print_level", "preconditioner"] (newtonDefaults : Entries K) := ⟨rfl, by decide⟩

theorem overlay_newtonDefaults {es : Entries K} {s : NewtonSolver K} (hes : Fits (.map newtonDefaults) (.map es))
    (h : NewtonSolver.ofEntries es = .ok s) : overlay newtonDefaults es = s.toEntries := by
  simp only [NewtonSolver.ofEntries, except_bind_eq_ok, choose_eq_ok, StepPreconditioner.ofName?_eq_some_iff] at h
  obtain ⟨rtol, hrtol, atol, hatol, maxIter, hmaxIter, alpha, halpha, linearRtol, hlinearRtol, linearAtol, hlinearAtol,
    linearMaxIter, hlinearMaxIter, restart, hrestart, printLevel, hprintLevel, _, hpreconditioner, preconditioner, rfl,
    -, -, h⟩ := h
  cases h
  have hrtol := hes.given_real (by simp [newtonDefaults]) hrtol
  have hatol := hes.given_real (by simp [newtonDefaults]) hatol
  have hmaxIter := hes.given_int (by simp [newtonDefaults]) hmaxIter
  have halpha := hes.given_real (by simp [newtonDefaults]) halpha
  have hlinearRtol := hes.given_real (by simp [newtonDefaults]) hlinearRtol
  have hlinearAtol := hes.given_real (by simp [newtonDefaults]) hlinearAtol
  have hlinearMaxIter := hes.given_int (by simp [newtonDefaults]) hlinearMaxIter
  have hrestart := hes.given_int (by simp [newtonDefaults]) hrestart
  have hprintLevel := hes.given_int (by simp [newtonDefaults]) hprintLevel
  have hpreconditioner := hes.given_text (by simp [newtonDefaults]) hpreconditioner
  simp only [newtonDefaults, overlay_cons, overlay_nil, hrtol, hatol, hmaxIter, halpha, hlinearRtol, hlinearAtol,
    hlinearMaxIter, hrestart, hprintLevel, hpreconditioner, NewtonSolver.toEntries]

theorem defaults_eq : (defaults : Entries K) =
    [entry "backend" (.text "scipy"), entry "mass" (.map (krylovDefaults 1e-12)),
      entry "stiffness" (.map (krylovDefaults 1e-7)), entry "use_amg" (.bool false),
      entry "amg" (.map multigridDefaults), entry "newton" (.map newtonDefaults)] := rfl

/-- Some of the settings, completed by the defaults, are the settings as they are read. -/
theorem fill_eq_toEntries {es : Entries K} {s : Solver K} (hes : Fits (.map defaults) (.map es))
    (h : Solver.ofEntries es = .ok s) : fill (.map es) = .ok s.toEntries := by
  simp only [Solver.ofEntries, except_bind_eq_ok, choose_eq_ok, Krylov.Backend.ofName?_eq_some_iff] at h
  obtain ⟨_, hbackend, backend, rfl, massEntries, hmassEntries, mass, hmass, stiffnessEntries, hstiffnessEntries,
    stiffness, hstiffness, amgEntries, hamgEntries, amg, hamg, newtonEntries, hnewtonEntries, newton, hnewton, h⟩ := h
  cases h
  have hbackend := hes.given_text (by simp [defaults_eq]) hbackend
  have huseAmg := hes.given_bool "use_amg" false (by simp [defaults_eq])
  have hmassFits : Fits (.map (krylovDefaults 1e-12)) (.map massEntries) :=
    hes.part (by simp [defaults_eq]) hmassEntries
  have hstiffnessFits : Fits (.map (krylovDefaults 1e-7)) (.map stiffnessEntries) :=
    hes.part (by simp [defaults_eq]) hstiffnessEntries
  have hamgFits : Fits (.map multigridDefaults) (.map amgEntries) :=
    hes.part (by simp [defaults_eq]) hamgEntries
  have hnewtonFits : Fits (.map newtonDefaults) (.map newtonEntries) :=
    hes.part (by simp [defaults_eq]) hnewtonEntries
  -- What each of the six sections becomes, first those that are settings themselves.
  have hbackend' := (elim_merge_eq_given (d := .text "scipy") rfl es "backend").trans hbackend
  have huseAmg' := (elim_merge_eq_given (d := .bool false) rfl es "use_amg").trans huseAmg
  have hmass' := elim_merge_eq_overlay (named_krylovDefaults _) hmassFits hmassEntries
  have hstiffness' := elim_merge_eq_overlay (named_krylovDefaults _) hstiffnessFits hstiffnessEntries
  have hamg' := elim_merge_eq_overlay named_multigridDefaults hamgFits hamgEntries
  have hnewton' := elim_merge_eq_overlay named_newtonDefaults hnewtonFits hnewtonEntries
  rw [overlay_krylovDefaults hmassFits hmass] at hmass'
  rw [overlay_krylovDefaults hstiffnessFits hstiffness] at hstiffness'
  rw [overlay_multigridDefaults hamgFits hamg] at hamg'
  rw [overlay_newtonDefaults hnewtonFits hnewton] at hnewton'
  rw [fill_eq hes, defaults_eq]
  simp only [complete_cons, complete_nil, hbackend', hmass', hstiffness', huseAmg', hamg', hnewton', Solver.toEntries]

/-! ### Both ways -/

theorem fits_krylov (rtol : K) (s : KrylovSolver K) : Fits (.map (krylovDefaults rtol)) (.map s.toEntries) := by
  refine .map ?_ ?_ ?_
  · simp [Value.DistinctKeys, KrylovSolver.toEntries, entry, Value.sameKey_text_text]
  · simp [krylovDefaults, KrylovSolver.toEntries, entry, Value.lookup?_cons, Value.sameKey_text_text]
  · simp [krylovDefaults, KrylovSolver.toEntries, entry, Value.lookup?_cons, Value.sameKey_text_text, Fits.text,
      Fits.real, Fits.int, -Prod.forall]

theorem fits_multigrid (s : MultigridSolver K) : Fits (.map multigridDefaults) (.map s.toEntries) := by
  refine .map ?_ ?_ ?_
  · simp [Value.DistinctKeys, MultigridSolver.toEntries, entry, Value.sameKey_text_text]
  · simp [multigridDefaults, MultigridSolver.toEntries, entry, Value.lookup?_cons, Value.sameKey_text_text]
  · simp [multigridDefaults, MultigridSolver.toEntries, entry, Value.lookup?_cons, Value.sameKey_text_text,
      Fits.real, Fits.int, -Prod.forall]

theorem fits_newton (s : NewtonSolver K) : Fits (.map newtonDefaults) (.map s.toEntries) := by
  refine .map ?_ ?_ ?_
  · simp [Value.DistinctKeys, NewtonSolver.toEntries, entry, Value.sameKey_text_text]
  · simp [newtonDefaults, NewtonSolver.toEntries, entry, Value.lookup?_cons, Value.sameKey_text_text]
  · simp [newtonDefaults, NewtonSolver.toEntries, entry, Value.lookup?_cons, Value.sameKey_text_text, Fits.text,
      Fits.real, Fits.int, -Prod.forall]

/-- Settings as they are written are some of the settings, namely all. -/
theorem fits_toEntries (s : Solver K) : Fits (.map defaults) (.map s.toEntries) := by
  refine .map ?_ ?_ ?_
  · simp [Value.DistinctKeys, Solver.toEntries, entry, Value.sameKey_text_text]
  · simp [defaults_eq, Solver.toEntries, entry, Value.lookup?_cons, Value.sameKey_text_text]
  · simp [defaults_eq, Solver.toEntries, entry, Value.lookup?_cons, Value.sameKey_text_text, Fits.text, Fits.bool,
      fits_krylov, fits_multigrid, fits_newton, -Prod.forall]

/-- Settings of the solvers as they are read are the settings given, completed by the defaults, if these are some of the
settings, each of its kind.  Completing the settings that were read changes nothing, whatever they were read from. -/
theorem fill_eq_sanitized {p : Value K} {s : Solver K} (h : Section.ofValue .solver p = .ok (.solver s)) :
    (Fits (.map defaults) p → fill p = .ok s.toEntries) ∧ fill (.map s.toEntries) = .ok s.toEntries := by
  have hfill {es : Entries K} (hes : Fits (.map defaults) (.map es))
      (h : Section.ofValue .solver (.map es) = .ok (.solver s)) : fill (.map es) = .ok s.toEntries := by
    obtain ⟨_, hmap, h⟩ := except_bind_eq_ok.1 h
    cases hmap
    obtain ⟨s', hs', h⟩ := except_bind_eq_ok.1 h
    cases h
    exact fill_eq_toEntries hes hs'
  have hchecked : (Section.solver s).Checked := (Section.name_and_checked_of_ofValue h).2
  have hagain : Section.ofValue .solver (.map s.toEntries) = .ok (.solver s) :=
    Section.ofValue_of_rearranged (s := .solver s) hchecked (.refl _)
  refine ⟨fun hp => ?_, hfill (fits_toEntries s) hagain⟩
  cases hp with
  | map hdistinct hknown hfits => exact hfill (.map hdistinct hknown hfits) h

/-- A part of a section and a setting of its own, in another order than the defaults. -/
theorem fill_eq_sanitized_damped : ∃ s : Solver ℝ,
    Section.ofValue .solver (.map [entry "newton" (.map [entry "alpha" (.real 0.5)]), entry "use_amg" (.bool true)]) =
      .ok (.solver s) ∧
    fill (.map [entry "newton" (.map [entry "alpha" (.real 0.5)]), entry "use_amg" (.bool true)]) = .ok s.toEntries ∧
    fill (.map s.toEntries) = .ok s.toEntries := by
  have hdamping : (Scalar.lt 0 (0.5 : ℝ) && Scalar.le (0.5 : ℝ) 1) = true := by norm_num
  have hread : Section.ofValue (K := ℝ) .solver
      (.map [entry "newton" (.map [entry "alpha" (.real 0.5)]), entry "use_amg" (.bool true)]) =
      .ok (.solver ⟨.serial, ⟨.cg, .jacobi, 1e-12, 0.0, 2000⟩, ⟨.cg, .jacobi, 1e-7, 0.0, 2000⟩, true, ⟨1e-7, 200⟩,
        ⟨1e-8, 1e-12, 20, 0.5, 1e-8, 0.0, 500, 50, 0, .block⟩⟩) := by
    have hchoose : choose (K := ℝ) .newtonPreconditioner StepPreconditioner.ofName? "block" = .ok .block := rfl
    have hnewton : NewtonSolver.ofEntries [entry "alpha" (.real (0.5 : ℝ))] =
        .ok ⟨1e-8, 1e-12, 20, 0.5, 1e-8, 0.0, 500, 50, 0, .block⟩ := by
      simp only [NewtonSolver.ofEntries, given_entry_cons, given_nil, String.reduceEq, ↓reduceIte, Value.toReal_real,
        Value.toText_text, Value.toInteger_int, hchoose, ok_bind, hdamping, require_true]
      rfl
    simp only [Section.ofValue, Value.toEntries_map, ok_bind, Solver.ofEntries, given_entry_cons, given_nil,
      String.reduceEq, ↓reduceIte, Value.isTrue_bool, hnewton]
    rfl
  have hfits : Fits (K := ℝ) (.map defaults)
      (.map [entry "newton" (.map [entry "alpha" (.real 0.5)]), entry "use_amg" (.bool true)]) := by
    have halpha : Fits (K := ℝ) (.map newtonDefaults) (.map [entry "alpha" (.real 0.5)]) := by
      refine .map (by simp [Value.DistinctKeys]) ?_ ?_ <;>
        simp [newtonDefaults, entry, Value.lookup?_cons, Value.sameKey_text_text, Fits.real]
    refine .map (by simp [Value.DistinctKeys, entry, Value.sameKey_text_text]) ?_ ?_ <;>
      simp [defaults_eq, entry, Value.lookup?_cons, Value.sameKey_text_text, Fits.bool, -Prod.forall]
    exact halpha
  obtain ⟨hfill, hagain⟩ := fill_eq_sanitized hread
  exact ⟨_, hread, hfill hfits, hagain⟩

end SolverSettings

end Magnetofluid
