import Magnetofluid.Text.Lower
import Magnetofluid.Workspace.Basic

/-!
# Loggers

A logger prints its messages and may also write them to a file, each with the moment and the severity. Loggers have
names with points in them; a logger that was never set up leaves its messages to the one above it, whose name is the
part before the last point. Above all of them is the root.

* `Log.setUp`: gives a logger its handlers, once or anew.
* `Log.send`: sends a message.
-/

namespace Magnetofluid.Log

namespace Severity

def rank : Severity → Nat
  | debug => 10
  | info => 20
  | warning => 30
  | error => 40
  | critical => 50

def name : Severity → String
  | debug => "DEBUG"
  | info => "INFO"
  | warning => "WARNING"
  | error => "ERROR"
  | critical => "CRITICAL"

/-- The severity that a word asks for. -/
def ofWord? : String → Option Severity
  | "debug" => some debug
  | "info" => some info
  | "warning" | "warn" => some warning
  | "error" => some error
  | "critical" | "fatal" => some critical
  | _ => none

end Severity

/-- The name of the logger above all others. -/
def rootName : String := "root"

/-- The name under which a logger is kept. The empty name stands for the root. -/
def key (name : String) : String := if name = "" then rootName else name

def logger (loggers : List (String × Logger)) (name : String) : Logger :=
  ((loggers.find? (·.1 = key name)).map (·.2)).getD .fresh

/-- The loggers with the one that is kept under a name set. -/
def setLogger (name : String) (l : Logger) : List (String × Logger) → List (String × Logger)
  | [] => [(name, l)]
  | e :: es => if e.1 = name then (name, l) :: es else e :: setLogger name l es

def fileName (name : String) : String :=
  Text.lower (name.map fun c => if c = '.' then '_' else c) ++ ".log"

variable {K : Type}

def modifyLogger (name : String) (f : Logger → Logger) : Work K Unit :=
  modify fun s => { s with loggers := setLogger (key name) (f (logger s.loggers name)) s.loggers }

/-- Opens the file of a logger in a directory, which is made if need be. What the file held stays in it. -/
def openFile (name directory : String) : Files.Change (Files.Content K) (List String) := do
  Files.makePath true directory
  let t ← get
  let place ← MonadExcept.ofExcept (Files.filePlace t (Files.join directory (fileName name)))
  if (t.at? place).isNone then set (Files.Tree.put (.file (.text "")) place t)
  return place

/-- Gives a logger its handlers: the console, and a file in a directory if one is given. A logger that has handlers
keeps them unless it is `anew`. -/
def setUp (name : String) (directory : Option String) (anew : Bool) : Work K Unit := do
  if !(logger (← get).loggers name).handlers.isEmpty && !anew then return
  modifyLogger name fun _ => ⟨some .info, false, [.console]⟩
  match directory with
  | none => return
  | some directory =>
    let place ← Workspace.change (openFile name directory)
    modifyLogger name fun l => { l with handlers := l.handlers ++ [.file place] }

/-! ## Messages -/

/-- What stands before the last point of a name. -/
def above? (name : List Char) : Option (List Char) :=
  match (name.reverse.dropWhile (· ≠ '.')).reverse with
  | [] => none
  | cs => some cs.dropLast

/-- The names from a name upwards. -/
def upwards : (fuel : Nat) → List Char → List String
  | 0, _ => []
  | fuel + 1, name => .ofList name :: ((above? name).map (upwards fuel)).getD []

/-- The loggers that a message meets on its way up. -/
def path (loggers : List (String × Logger)) (name : String) : List Logger :=
  (upwards (name.length + 1) name.toList ++ [rootName]).map (logger loggers)

/-- The least severity that counts: that of the first logger that has one, and `warning` above all of them. -/
def threshold (ls : List Logger) : Severity := (ls.findSome? (·.level)).getD .warning

/-- The handlers that a message reaches: those of each logger up to the first that keeps its messages. -/
def reached : List Logger → List Handler
  | [] => []
  | l :: ls => l.handlers ++ if l.propagates then reached ls else []

/-- A message as it stands in a file. -/
def line (now : Moment) (severity : Severity) (message : String) : String :=
  now.logText ++ " - " ++ severity.name ++ " - " ++ message ++ "\n"

def Handler.send (severity : Severity) (message : String) : Handler → Work K Unit
  | .console => Workspace.say (Text.lines message)
  | .file place => modify fun s =>
    let old := (s.files.at? place).bind Files.Tree.content?
    { s with files := Files.Tree.put (.file (.append old (line s.now severity message))) place s.files }

/-- Sends a message by the logger of a name. -/
def send (name : String) (severity : Severity) (message : String) : Work K Unit := do
  let ls := path (← get).loggers name
  if (threshold ls).rank ≤ severity.rank then
    (reached ls).forM (Handler.send severity message)

end Magnetofluid.Log
