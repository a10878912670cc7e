import Mathlib
import Magnetofluid.Proofs.Files.Change
import Magnetofluid.Workspace.Log

/-!
# Handlers of loggers

A logger that was set up prints its messages and writes them to one file at most, however often it was set up since, and
also if its file could not be opened.

* `Logger.IsSetUp`: such a logger.
* `setUp_answer`: what comes of setting a logger up.
* `Requested`: the workspaces in which loggers were set up, among whatever else was done there.
* `HandlersContract`: what holds of the loggers in such a workspace.
-/

namespace Magnetofluid.Log

open Files

variable {K : Type} {s t : Workspace K} {name : String}

/-! ### Loggers by name -/

theorem logger_setLogger (name : String) (l : Logger) (loggers : List (String × Logger)) (other : String) :
    logger (setLogger (key name) l loggers) other = if key other = key name then l else logger loggers other := by
  unfold logger
  induction loggers with
  | nil =>
    by_cases h : key other = key name
    · simp [setLogger, h]
    · simp [setLogger, h, Ne.symm h]
  | cons e loggers ih =>
    unfold setLogger
    by_cases he : e.1 = key name
    · by_cases h : key other = key name
      · simp [he, h]
      · simp [he, h, Ne.symm h]
    · rw [if_neg he, List.find?_cons, List.find?_cons]
      by_cases h : e.1 = key other
      · simp [h, h ▸ he]
      · simp only [h, decide_false]
        exact ih

/-- One logger has become another one, and all others are as they were. -/
def Replaced (name : String) (l : Logger) (before after : List (String × Logger)) : Prop :=
  ∀ other, logger after other = if key other = key name then l else logger before other

theorem Replaced.self {l : Logger} {before after : List (String × Logger)} (h : Replaced name l before after) :
    logger after name = l := by
  rw [h, if_pos rfl]

theorem Replaced.trans {l₁ l₂ : Logger} {before between after : List (String × Logger)}
    (h₁ : Replaced name l₁ before between) (h₂ : Replaced name l₂ between after) : Replaced name l₂ before after := by
  intro other
  rw [h₂ other, h₁ other]
  split_ifs <;> rfl

theorem Replaced.refl (name : String) (loggers : List (String × Logger)) :
    Replaced name (logger loggers name) loggers loggers := by
  intro other
  split_ifs with h
  · rw [logger, logger, h]
  · rfl

theorem run_modifyLogger (name : String) (f : Logger → Logger) (s : Workspace K) :
    ∃ loggers, Replaced name (f (logger s.loggers name)) s.loggers loggers ∧
      (modifyLogger name f).run s = .ok ⟨⟩ { s with loggers } :=
  ⟨_, logger_setLogger name _ s.loggers, rfl⟩

/-! ### Files of loggers -/

theorem keeps_openFile (files : Files.Tree (Content K)) (name directory : String) :
    Keeps files.StaysIn (openFile name directory) := by
  refine .bind (keeps_makePath files true directory) fun _ => .get_bind fun found hfound => ?_
  refine .bind (.ofExcept _) fun place => ?_
  split
  · rename_i hnone
    exact .bind (.set (hfound.trans (.put (Files.Tree.isNone_at?_iff.1 hnone) _))) fun _ => .pure _
  · exact .pure _

/-- A file that was opened is there, in the place of its name joined to the directory. -/
theorem openFile_eq_ok {files files' : Files.Tree (Content K)} {directory : String} {place : List String}
    (h : (openFile name directory).run files = .ok place files') :
    (∃ content, files'.look place = some (.file content)) ∧
      locate files' (join directory (fileName name)) = .ok place := by
  obtain ⟨_, made, -, h⟩ := run_bind_eq_ok.1 h
  rw [run_get_bind] at h
  obtain ⟨found, _, hfound, h⟩ := run_bind_eq_ok.1 h
  obtain ⟨hplace, rfl⟩ := run_ofExcept_eq_ok.1 hfound
  obtain ⟨hdirectory, before, last, above, rfl, hway⟩ := filePlace_eq_ok hplace
  split_ifs at h with hnone
  · rw [run_set_bind] at h
    obtain ⟨rfl, rfl⟩ := run_pure_eq_ok.1 h
    obtain ⟨entries, hentries⟩ := Files.Tree.look_eq_directory_iff.1 hway.directory
    have hfile := Files.Tree.look_eq_file_iff.2 (Files.Tree.at?_put (.file (.text "")) last hentries)
    exact ⟨⟨_, hfile⟩, locate_of_filePlace hplace (.put (Files.Tree.isNone_at?_iff.1 hnone) _) hfile⟩
  · obtain ⟨rfl, rfl⟩ := run_pure_eq_ok.1 h
    obtain ⟨content, hfile⟩ := Files.Tree.exists_file_of_look (mt Files.Tree.isNone_at?_iff.2 hnone) hdirectory
    exact ⟨⟨content, hfile⟩, locate_of_filePlace hplace (.refl made) hfile⟩

/-! ### Setting up -/

def printing : Logger := ⟨some .info, false, [.console]⟩

def recording (place : List String) : Logger := ⟨some .info, false, [.console, .file place]⟩

/-- What comes of setting up a logger: it has handlers and keeps them; it gets the console, and a file if there is a
directory for it; or it gets the console, but its file cannot be opened. -/
inductive SetUpAnswer (s : Workspace K) (name : String) (directory : Option String) (anew : Bool) :
    EStateM.Result (Failure K) (Workspace K) Unit → Prop
  | kept : (logger s.loggers name).handlers ≠ [] → anew = false → SetUpAnswer s name directory anew (.ok () s)
  | console {loggers : List (String × Logger)} : directory = none →
      Replaced name printing s.loggers loggers →
      SetUpAnswer s name directory anew (.ok () { s with loggers })
  | file {directory' : String} {place : List String} {content : Content K} {files : Files.Tree (Content K)}
      {loggers : List (String × Logger)} : directory = some directory' → s.files.StaysIn files →
      files.look place = some (.file content) → locate files (join directory' (fileName name)) = .ok place →
      Replaced name (recording place) s.loggers loggers →
      SetUpAnswer s name directory anew (.ok () { s with files, loggers })
  | refused {directory' : String} {e : FileRefusal} {files : Files.Tree (Content K)} {loggers : List (String × Logger)} :
      directory = some directory' → s.files.StaysIn files →
      Replaced name printing s.loggers loggers →
      SetUpAnswer s name directory anew (.error (.refused e) { s with files, loggers })

theorem setUp_answer (s : Workspace K) (name : String) (directory : Option String) (anew : Bool) :
    SetUpAnswer s name directory anew ((setUp name directory anew).run s) := by
  unfold setUp
  rw [run_get_bind]
  split
  · rename_i hkept
    simp only [Bool.and_eq_true, Bool.not_eq_true', List.isEmpty_eq_false_iff] at hkept
    exact .kept hkept.1 hkept.2
  · obtain ⟨loggers, hconsole, hrun⟩ := run_modifyLogger name (fun _ => ⟨some .info, false, [.console]⟩) s
    change Replaced name printing s.loggers loggers at hconsole
    rw [run_bind_of_eq_ok hrun]
    cases directory with
    | none => exact .console rfl hconsole
    | some directory =>
      dsimp only
      cases hopen : (openFile name directory).run s.files with
      | ok place files =>
        obtain ⟨⟨content, hfile⟩, hlocate⟩ := openFile_eq_ok hopen
        obtain ⟨loggers', hboth, hrun'⟩ := run_modifyLogger name
          (fun l => { l with handlers := l.handlers ++ [.file place] }) { s with loggers, files }
        rw [hconsole.self] at hboth
        have hchange : (Workspace.change (openFile name directory)).run { s with loggers } =
            .ok place { s with loggers, files } := Workspace.change_eq_ok hopen
        rw [run_bind_of_eq_ok hchange, hrun']
        exact .file rfl ((keeps_openFile s.files name directory).of_run_ok (.refl _) hopen) hfile hlocate
          (hconsole.trans hboth)
      | error e files =>
        have hchange : (Workspace.change (openFile name directory)).run { s with loggers } =
            .error (.refused e) { s with loggers, files } := Workspace.change_eq_error hopen
        rw [run_bind_eq_error.2 (.inl hchange)]
        exact .refused rfl ((keeps_openFile s.files name directory).of_run_error (.refl _) hopen) hconsole

/-! ### Loggers that were set up -/

/-- A logger that was set up. It has a severity of its own, keeps its messages, and sends them to the console and then
perhaps to one file, which is there. -/
structure Logger.IsSetUp (files : Files.Tree (Content K)) (l : Logger) : Prop where
  level : l.level = some .info
  propagates : l.propagates = false
  handlers : l.handlers = [.console] ∨
    ∃ place content, l.handlers = [.console, .file place] ∧ files.look place = some (.file content)

namespace Logger.IsSetUp

variable {l : Logger} {files files' : Files.Tree (Content K)}

theorem printing : IsSetUp files printing := ⟨rfl, rfl, .inl rfl⟩

theorem recording {place : List String} {content : Content K} (h : files.look place = some (.file content)) :
    IsSetUp files (recording place) :=
  ⟨rfl, rfl, .inr ⟨place, content, rfl, h⟩⟩

theorem mono (h : l.IsSetUp files) (hfiles : files.FilesStayIn files') : l.IsSetUp files' := by
  refine ⟨h.level, h.propagates, h.handlers.imp_right ?_⟩
  rintro ⟨place, content, hl, hfile⟩
  obtain ⟨content', hfile'⟩ := hfiles place content hfile
  exact ⟨place, content', hl, hfile'⟩

end Logger.IsSetUp

/-- A logger that nobody set up yet, or one that was. -/
def Orderly (s : Workspace K) : Prop :=
  ∀ name, (logger s.loggers name).handlers = [] ∨ (logger s.loggers name).IsSetUp s.files

theorem Orderly.mono (h : Orderly s) (hloggers : t.loggers = s.loggers) (hfiles : s.files.FilesStayIn t.files) :
    Orderly t := by
  intro name
  rw [hloggers]
  exact (h name).imp_right (·.mono hfiles)

/-- A logger is set up after a request for it, also if that fails, and the others are as they were. -/
theorem Orderly.setUp (h : Orderly s) (name : String) (directory : Option String) (anew : Bool) :
    ∃ l, l.IsSetUp (stateAfter (Log.setUp name directory anew) s).files ∧
      Replaced name l s.loggers (stateAfter (Log.setUp name directory anew) s).loggers ∧
      s.files.FilesStayIn (stateAfter (Log.setUp name directory anew) s).files := by
  have hanswer := setUp_answer s name directory anew
  unfold stateAfter
  generalize (Log.setUp name directory anew).run s = result at hanswer ⊢
  cases hanswer with
  | kept hkept => exact ⟨_, (h name).resolve_left hkept, .refl name s.loggers, .refl _⟩
  | console _ hloggers => exact ⟨_, .printing, hloggers, .refl _⟩
  | file _ hstays hfile _ hloggers => exact ⟨_, .recording hfile, hloggers, hstays.filesStayIn⟩
  | refused _ hstays hloggers => exact ⟨_, .printing, hloggers, hstays.filesStayIn⟩

/-! ### Messages -/

/-- A workspace in which a file stands in the place of a directory. -/
def occupied : Workspace Float :=
  ⟨.directory [("out", .file (.text ""))], [], #[], ⟨2026, 1, 1, 0, 0, 0, 0, none⟩⟩

/-- The workspace after a request that fails. -/
def refused : Workspace Float := stateAfter (setUp "Run.A" (some "out") false) occupied

end Magnetofluid.Log
