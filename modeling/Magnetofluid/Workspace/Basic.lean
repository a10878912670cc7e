import Magnetofluid.Files.Change
import Magnetofluid.Files.Content
import Magnetofluid.Text.Layout
import Magnetofluid.Workspace.Moment

/-!
# Workspaces

A workspace is what a program finds and leaves: a tree of files, the loggers that write to them, the lines that were
printed, and the moment on the clock.
-/

namespace Magnetofluid

namespace Log

/-- How important a message is. -/
inductive Severity
  | debug
  | info
  | warning
  | error
  | critical
deriving DecidableEq, Repr

/-- Where a logger sends its messages. -/
inductive Handler
  | console
  | file (place : List String)
deriving DecidableEq, Repr

structure Logger where
  /-- The least severity of messages that are not dropped, if the logger has one of its own. -/
  level : Option Severity
  /-- Whether messages also go to the logger above this one. -/
  propagates : Bool
  /-- In the order in which they came. -/
  handlers : List Handler
deriving DecidableEq, Repr

/-- A logger that nothing was asked of. -/
def Logger.fresh : Logger := ⟨none, true, []⟩

end Log

structure Workspace (K : Type) where
  files : Files.Tree (Files.Content K)
  /-- The loggers by name. -/
  loggers : List (String × Log.Logger)
  printed : Array String
  now : Moment

/-- An action in a workspace. What it did before a failure stays done. -/
abbrev Work (K : Type) := EStateM (Failure K) (Workspace K)

namespace Workspace

variable {K : Type}

/-- The workspace without files at a moment. -/
def atMoment (now : Moment) : Workspace K := ⟨.empty, [], #[], now⟩

def say (lines : List String) : Work K Unit :=
  modify fun s => { s with printed := s.printed ++ lines.toArray }

/-- Forgets what was printed. -/
def quiet : Work K Unit := modify fun s => { s with printed := #[] }

/-- Changes the files. -/
def change {α : Type} (act : Files.Change (Files.Content K) α) : Work K α := fun s =>
  match act.run s.files with
  | .ok a files => .ok a { s with files }
  | .error e files => .error (.refused e) { s with files }

theorem change_eq_ok {α : Type} {act : Files.Change (Files.Content K) α} {s : Workspace K} {a : α}
    {files : Files.Tree (Files.Content K)} (h : act.run s.files = .ok a files) :
    (change act).run s = .ok a { s with files } := by
  show (match act.run s.files with | .ok a files => _ | .error e files => _) = _
  rw [h]

theorem change_eq_error {α : Type} {act : Files.Change (Files.Content K) α} {s : Workspace K} {e : FileRefusal}
    {files : Files.Tree (Files.Content K)} (h : act.run s.files = .error e files) :
    (change act).run s = .error (.refused e) { s with files } := by
  show (match act.run s.files with | .ok a files => _ | .error e files => _) = _
  rw [h]

def readText (name : String) : Work K String := do
  match ← change (Files.read name) with
  | .text s => return Text.asRead s
  | .archive _ => throw .notText

end Workspace

end Magnetofluid
