import Mathlib
import Magnetofluid.Proofs.Files.Change
import Magnetofluid.Workspace.Output

/-!
# Output directories

An output directory is empty when a program gets it, so that it never holds earlier results.

* `Askable`: the names that an output directory is asked for by.
* `OutputContract`: what comes of a request for an output directory.
* `makeOutput_contract`: every request by such a name keeps the contract, if a file system can take it, whatever was done
  before.
-/

namespace Magnetofluid.Workspace

open Files

variable {K : Type}

/-! ### Names of output directories -/

/-- A relative name that is not empty and none of whose parts stands for a directory it is relative to. It is a text of
characters that are not surrogates, so that a file system can encode it. -/
structure Askable (name : String) : Prop where
  nonempty : name ≠ ""
  relative : name.toList.head? ≠ some '/'
  proper : ∀ part ∈ parts name, isProper part = true

/-- A name and its parts are no longer than names can be. -/
structure WithinLimits (name : String) : Prop where
  whole : name.utf8ByteSize < lengthLimit
  parts : ∀ part ∈ parts name, isTooLong part = false

theorem padded_chars {width n : ℕ} {c : Char} (hc : c ∈ (Text.padded width n).toList) : c.isDigit = true := by
  rw [Text.padded, String.toList_ofList, List.mem_append] at hc
  rcases hc with hc | hc
  · rw [List.eq_of_mem_replicate hc]
    rfl
  · exact Nat.isDigit_of_mem_toDigits (by decide) le_rfl hc

/-- A moment is written with digits, hyphens and underscores. -/
theorem stamp_chars (m : Moment) {c : Char} (hc : c ∈ m.stamp.toList) : c.isDigit = true ∨ c = '-' ∨ c = '_' := by
  have hyphen : "-".toList = ['-'] := rfl
  have underscore : "_".toList = ['_'] := rfl
  simp only [Moment.stamp, String.toList_append, List.mem_append, hyphen, underscore, List.mem_singleton] at hc
  grind [padded_chars]

/-- The last part of the name of an output directory. -/
def outputBase (now : Moment) (name : String) (stamped : Bool) : String :=
  (if stamped then now.stamp ++ "_" else "") ++ basePart name

theorem mem_outputBase {now : Moment} {name : String} {stamped : Bool} {c : Char}
    (hc : c ∈ (outputBase now name stamped).toList) :
    (c.isDigit = true ∨ c = '-' ∨ c = '_') ∨ c ∈ (basePart name).toList := by
  rw [outputBase, String.toList_append, List.mem_append] at hc
  refine hc.imp_left fun hc => ?_
  split_ifs at hc
  · rw [String.toList_append, List.mem_append] at hc
    exact hc.elim (stamp_chars now) fun hc => .inr (.inr (List.mem_singleton.1 hc))
  · cases hc

theorem slash_notMem_outputBase (now : Moment) (name : String) (stamped : Bool) :
    '/' ∉ (outputBase now name stamped).toList := by
  intro h
  rcases mem_outputBase h with h | h
  · revert h
    decide
  · exact slash_notMem_basePart name h

theorem parts_outputName (now : Moment) (name : String) (stamped : Bool) :
    parts (outputName now name stamped) = parts (directoryPart name) ++ parts (outputBase now name stamped) :=
  parts_join _ (slash_notMem_outputBase now name stamped)

theorem underscore_mem_outputBase (now : Moment) (name : String) : '_' ∈ (outputBase now name true).toList := by
  simp [outputBase, String.toList_append]

/-- A stamp keeps the last part from standing for another directory. -/
theorem isProper_of_mem_parts {now : Moment} {name part : String} {stamped : Bool} (hname : Askable name)
    (hpart : part ∈ parts (outputName now name stamped)) : isProper part = true := by
  rw [parts_outputName, List.mem_append] at hpart
  rcases hpart with hpart | hpart
  · refine hname.proper part ?_
    rw [parts_directoryPart_append]
    exact List.mem_append_left _ hpart
  · cases stamped with
    | false =>
      refine hname.proper part ?_
      rw [parts_directoryPart_append]
      refine List.mem_append_right _ ?_
      simpa [outputBase] using hpart
    | true =>
      rw [parts_of_notMem (slash_notMem_outputBase now name true)] at hpart
      split_ifs at hpart
      · cases hpart
      · have hunderscore := underscore_mem_outputBase now name
        rw [← List.mem_singleton.1 hpart] at hunderscore
        have hdot (h : part = ".") : '_' ∉ part.toList := by rw [h]; decide
        have hdots (h : part = "..") : '_' ∉ part.toList := by rw [h]; decide
        simpa [isProper] using ⟨fun h => hdot h hunderscore, fun h => hdots h hunderscore⟩

theorem parts_outputName_ne_nil {name : String} (hname : Askable name) (now : Moment) (stamped : Bool) :
    parts (outputName now name stamped) ≠ [] := by
  cases stamped with
  | false =>
    have hsame : outputBase now name false = basePart name := by simp [outputBase]
    rw [parts_outputName, hsame, ← parts_directoryPart_append]
    exact parts_ne_nil hname.nonempty hname.relative
  | true =>
    have hbase : outputBase now name true ≠ "" := by
      intro h
      have hunderscore := underscore_mem_outputBase now name
      rw [h] at hunderscore
      cases hunderscore
    rw [parts_outputName, parts_of_notMem (slash_notMem_outputBase now name true), if_neg hbase]
    simp

theorem plainName_outputName {name : String} (hname : Askable name) (hnul : isWellFormed name = true) (now : Moment)
    (stamped : Bool) (hlimits : WithinLimits (outputName now name stamped)) :
    PlainName (outputName now name stamped) := by
  have hwhole : '\x00' ∉ (outputName now name stamped).toList := by
    intro h
    rw [isWellFormed_iff] at hnul
    rcases mem_join h with h | h | h
    · exact hnul (mem_directoryPart h)
    · cases h
    · rcases mem_outputBase h with h | h
      · revert h
        decide
      · exact hnul (mem_basePart h)
  refine ⟨fun h => ?_, (isWellFormed_iff _).2 hwhole, hlimits.whole, fun part hpart => ?_⟩
  · exact parts_outputName_ne_nil hname now stamped (h ▸ rfl)
  · exact ⟨isProper_of_mem_parts hname hpart, hlimits.parts part hpart,
      (isWellFormed_iff part).2 fun h => hwhole (mem_of_mem_parts hpart h)⟩

/-! ### Requests for output directories -/

variable {s : Workspace K} {name : String} {stamped : Bool}

/-- What comes of a request for a directory: it is there and empty, or it is made; it is full; or a file is in the way.
Only in the second case do files change. -/
inductive OutputAnswer (s : Workspace K) (outdir : String) : EStateM.Result (Failure K) (Workspace K) String → Prop
  | taken {printed : Array String} : s.files.at? (parts outdir) = some .empty →
      OutputAnswer s outdir (.ok outdir { s with printed })
  | made {files : Files.Tree (Content K)} {printed : Array String} : s.files.look (parts outdir) = none →
      Files.Tree.GrownTo (parts outdir) s.files files → files.at? (parts outdir) = some .empty →
      OutputAnswer s outdir (.ok outdir { s with files, printed })
  | full {entries : List (String × Files.Tree (Content K))} : entries ≠ [] →
      s.files.at? (parts outdir) = some (.directory entries) → OutputAnswer s outdir (.error .outputNotEmpty s)
  | refused {e : FileRefusal} {q : List String} {content : Content K} : q <+: parts outdir →
      s.files.look q = some (.file content) → OutputAnswer s outdir (.error (.refused e) s)

theorem makeOutput_answer (hname : PlainName (outputName s.now name stamped))
    (hparts : parts (outputName s.now name stamped) ≠ []) :
    OutputAnswer s (outputName s.now name stamped) ((makeOutput name stamped).run s) := by
  unfold makeOutput
  rw [run_get_bind]
  dsimp only
  generalize outputName s.now name stamped = outdir at hname hparts
  by_cases hexists : exists? s.files outdir = true
  · rw [if_pos hexists]
    rcases namesIn_cases hname hexists with ⟨entries, hat, hrun⟩ | ⟨hlook, e, hrun⟩
    · rw [run_bind_of_eq_ok (change_eq_ok hrun)]
      cases entries with
      | nil => exact .taken hat
      | cons entry entries => exact .full (List.cons_ne_nil entry entries) hat
    · obtain ⟨content, hfile⟩ := Files.Tree.exists_file_of_look ((exists?_iff hname).1 hexists).1 hlook
      rw [run_bind_eq_error.2 (.inl (change_eq_error hrun))]
      exact .refused List.prefix_rfl hfile
  · rw [if_neg hexists]
    have hmade := makePath_made hname hparts s.files
    cases hrun : (makePath false outdir).run s.files with
    | ok u files =>
      rw [hrun] at hmade
      obtain ⟨hmissing, hgrown, hempty⟩ := hmade
      rw [run_bind_of_eq_ok (change_eq_ok hrun)]
      exact .made hmissing hgrown hempty
    | error e files =>
      rw [hrun] at hmade
      obtain ⟨⟩ | ⟨-, hwhy⟩ := hmade
      rw [run_bind_eq_error.2 (.inl (change_eq_error hrun))]
      rcases hwhy with hlook | ⟨q, content, hq, hfile⟩
      · -- something stands there, but it was not found: a file whose name ends in a slash
        have hdirectory : s.files.look (parts outdir) ≠ some .directory := fun h =>
          hexists ((exists?_iff hname).2 ⟨hlook, fun _ => h⟩)
        obtain ⟨content, hfile⟩ := Files.Tree.exists_file_of_look hlook hdirectory
        exact .refused List.prefix_rfl hfile
      · exact .refused hq hfile

/-- What is promised of a request for an output directory in a workspace. -/
structure OutputContract (s : Workspace K) (name : String) (stamped : Bool) : Prop where
  /-- The directory that is returned has the directory part of the name and its base, which may get a stamp. It is
  empty, and apart from it and what was missing on the way to it the files are those from before. -/
  returned : ∀ outdir s', (makeOutput name stamped).run s = .ok outdir s' →
    outdir = join (directoryPart name) ((if stamped then s.now.stamp ++ "_" else "") ++ basePart name) ∧
    s'.files.at? (parts outdir) = some .empty ∧ Files.Tree.GrownTo (parts outdir) s.files s'.files
  /-- A request that fails changes no files. -/
  failed : ∀ e s', (makeOutput name stamped).run s = .error e s' → s'.files = s.files
  /-- A directory that holds something is refused as not empty, and nothing else is. -/
  notEmpty_iff : (∃ s', (makeOutput name stamped).run s = .error .outputNotEmpty s') ↔
    ∃ entries, entries ≠ [] ∧ s.files.at? (parts (outputName s.now name stamped)) = some (.directory entries)
  /-- Where nothing or an empty directory stands, and no file in the way, a request succeeds. -/
  answered : (∀ q content, q <+: parts (outputName s.now name stamped) → s.files.look q ≠ some (.file content)) →
    (∀ entries, entries ≠ [] → s.files.at? (parts (outputName s.now name stamped)) ≠ some (.directory entries)) →
    ∃ outdir s', (makeOutput name stamped).run s = .ok outdir s'

namespace OutputAnswer

variable {outdir : String} {result : EStateM.Result (Failure K) (Workspace K) String}

theorem ok {outdir' : String} {s' : Workspace K} (h : OutputAnswer s outdir (.ok outdir' s')) :
    outdir' = outdir ∧ s'.files.at? (parts outdir') = some .empty ∧
      Files.Tree.GrownTo (parts outdir') s.files s'.files := by
  cases h with
  | taken hat => exact ⟨rfl, hat, .refl (Files.Tree.look_eq_directory_iff.2 ⟨[], hat⟩)⟩
  | made hmissing hgrown hempty => exact ⟨rfl, hempty, hgrown⟩

theorem error {e : Failure K} {s' : Workspace K} (h : OutputAnswer s outdir (.error e s')) : s' = s := by
  cases h <;> rfl

theorem full_iff (h : OutputAnswer s outdir result) :
    (∃ s', result = .error .outputNotEmpty s') ↔
      ∃ entries, entries ≠ [] ∧ s.files.at? (parts outdir) = some (.directory entries) := by
  constructor
  · rintro ⟨s', rfl⟩
    cases h with
    | full hne hat => exact ⟨_, hne, hat⟩
  · rintro ⟨entries, hne, hat⟩
    have hlook := Files.Tree.look_eq_directory_iff.2 ⟨entries, hat⟩
    cases h with
    | taken hempty =>
      cases hempty.symm.trans hat
      exact absurd rfl hne
    | made hmissing => simp [hmissing] at hlook
    | full => exact ⟨s, rfl⟩
    | @refused e q content hq hfile =>
      -- a file in the way leaves no place for the directory
      have hdirectory : s.files.look q = some .directory := by
        by_cases hne : q = parts outdir
        · rw [hne, hlook]
        · exact Files.Tree.look_of_above (by simp [hlook]) hq hne
      simp [hdirectory] at hfile

theorem answered (h : OutputAnswer s outdir result)
    (hway : ∀ q content, q <+: parts outdir → s.files.look q ≠ some (.file content))
    (hfull : ∀ entries, entries ≠ [] → s.files.at? (parts outdir) ≠ some (.directory entries)) :
    ∃ outdir' s', result = .ok outdir' s' := by
  cases h with
  | taken => exact ⟨_, _, rfl⟩
  | made => exact ⟨_, _, rfl⟩
  | full hne hat => exact absurd hat (hfull _ hne)
  | refused hq hfile => exact absurd hfile (hway _ _ hq)

theorem contract (h : OutputAnswer s (outputName s.now name stamped) ((makeOutput name stamped).run s)) :
    OutputContract s name stamped where
  returned _ _ hok := (hok ▸ h).ok
  failed _ _ herror := congrArg Workspace.files (herror ▸ h).error
  notEmpty_iff := h.full_iff
  answered hway hfull := h.answered hway hfull

end OutputAnswer

/-! ### Along a run -/

/-- What is done in a workspace between requests: output directories are asked for, files are made, and time passes. -/
inductive Errand (K : Type)
  | output (name : String) (stamped : Bool)
  | file (name : String) (content : Content K)
  | wait (moment : Moment)

/-- The action of an errand. -/
def Errand.act : Errand K → Work K Unit
  | output name stamped => discard (makeOutput name stamped)
  | file name content => change (writeAnew name content)
  | wait moment => modify fun s => { s with now := moment }

def afterErrands (s : Workspace K) (errands : List (Errand K)) : Workspace K :=
  errands.foldl (fun s errand => stateAfter errand.act s) s

/-- **Output directories.**  Whatever files there are and whatever was done before, a request for an output directory
keeps the contract, by any name that a file system can take: one without a null character and, with its stamp, within
the limits of names. -/
theorem makeOutput_contract (s : Workspace K) (errands : List (Errand K)) {name : String} (stamped : Bool)
    (hname : Askable name) (hnul : isWellFormed name = true)
    (hlimits : WithinLimits (outputName (afterErrands s errands).now name stamped)) :
    OutputContract (afterErrands s errands) name stamped := by
  have hplain := plainName_outputName hname hnul _ stamped hlimits
  have hparts := parts_outputName_ne_nil hname (afterErrands s errands).now stamped
  exact (makeOutput_answer hplain hparts).contract

def blank : Workspace Float := .atMoment ⟨2026, 1, 1, 0, 0, 0, 0, none⟩

/-- An output directory is made, and a file in it. -/
def earlier : List (Errand Float) := [.output "runs/a" false, .file "runs/a/x" (.text "1")]

/-- The directory of an earlier run is asked for again. -/
theorem makeOutput_contract_again :
    Askable "runs/a" ∧ isWellFormed "runs/a" = true ∧
      WithinLimits (outputName (blank.afterErrands earlier).now "runs/a" false) ∧
      OutputContract (blank.afterErrands earlier) "runs/a" false ∧
      ∃ s', (makeOutput "runs/a" false).run (blank.afterErrands earlier) = .error .outputNotEmpty s' := by
  have hname : Askable "runs/a" := ⟨by decide, by decide, by decide⟩
  have hlimits : WithinLimits (outputName (blank.afterErrands earlier).now "runs/a" false) := ⟨by decide, by decide⟩
  exact ⟨hname, rfl, hlimits, makeOutput_contract blank earlier false hname rfl hlimits, _, by rfl⟩

/-- A name that no file system can take: it is refused at its last part, when the directory before it was made. -/
theorem makeOutput_null_leaves_directory :
    Askable "a/b\x00" ∧ WithinLimits (outputName blank.now "a/b\x00" false) ∧
      ∃ s', (makeOutput "a/b\x00" false).run blank = .error (.refused .badName) s' ∧ s'.files ≠ blank.files := by
  have hrun : (makeOutput "a/b\x00" false).run blank =
      .error (.refused .badName) { blank with files := .directory [("a", .empty)] } := by rfl
  refine ⟨⟨by decide, by decide, by decide⟩, ⟨by decide, by decide⟩, _, hrun, fun hfiles => ?_⟩
  simp [blank, atMoment, Files.Tree.empty] at hfiles

end Magnetofluid.Workspace
