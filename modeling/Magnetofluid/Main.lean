import Magnetofluid.CommandLine.Basic
import Magnetofluid.Failure.Message
import Magnetofluid.Files.Archive
import Std.Time

/-!
# The program

The outer layer of the program: it reads the arguments, the clock and the files that a simulation needs, and carries
out what the simulation prints and writes, step by step.
-/

namespace Magnetofluid.Program

def now : IO Moment := do
  let t ← Std.Time.PlainDateTime.now
  return { year := t.year.toNat, month := t.month.val.toNat, day := t.day.val.toNat
           hour := t.hour.val.toNat, minute := t.minute.val.toNat, second := t.second.val.toNat
           microsecond := t.nanosecond.val.toNat / 1000, zone := none }

/-- The names in a directory of the disk, if there is one. -/
def entries? (path : String) : IO (Option (List String)) := do
  try return some ((← (← IO.FS.realPath path).readDir).toList.map (·.fileName))
  catch _ => return none

/-- The text of a file of the disk, if there is one; what is no text is read as an empty one. -/
def text? (path : String) : IO (Option String) := do
  try discard (IO.FS.Handle.mk path .read)
  catch _ => return none
  try return some (← IO.FS.readFile path)
  catch _ => return some ""

/-- The tree with what stands on disk at a name and on the way to it. -/
def gather (name : String) (tree : Files.Tree (Files.Content Float)) :
    IO (Files.Tree (Files.Content Float)) := do
  let mut tree := tree
  let mut place : List String := []
  let mut path := if name.toList.head? = some '/' then "/" else ""
  for part in Files.parts name do
    path := Files.join path part
    place := if part = "." then place else if part = ".." then place.dropLast else place ++ [part]
    if (tree.at? place).isNone then
      if (← entries? path).isSome then tree := Files.Tree.put .empty place tree
      else if let some s ← text? path then tree := Files.Tree.put (.file (.text s)) place tree
  for entry in (← entries? path).getD [] do
    if (tree.at? (place ++ [entry])).isNone then
      tree := Files.Tree.put (.file (.text "")) (place ++ [entry]) tree
  return tree

/-- What is on disk of the output: the files and how long their texts are. -/
abbrev Saved := List (List String × Nat)

/-- How long a content is, as far as it can change. -/
def size : Files.Content Float → Nat
  | .text s => s.length
  | .archive _ => 0

def put (path : String) (content : Files.Content Float) : IO Unit := do
  IO.FS.createDirAll (Files.directoryPart path)
  match content with
  | .text s => IO.FS.writeFile path s
  | .archive arrays => IO.FS.writeBinFile path ⟨(Files.Archive.encode arrays).toArray⟩

/-- Prints what was printed and writes what was written below the output directory. -/
def carryOut {m : Mesh Float} (s : Simulation m) (saved : Saved) : IO (Simulation m × Saved) := do
  let output ← IO.getStdout
  for line in s.workspace.printed do output.putStrLn line
  output.flush
  let mut saved := saved
  if let some outdir := s.outdir then
    if let .ok root := Files.locate s.workspace.files outdir then
      for (place, content) in s.workspace.files.files do
        if root.isPrefixOf place && !saved.contains (place, size content) then
          put ((place.drop root.length).foldl Files.join outdir) content
          saved := (place, size content) :: saved
  return ({ s with workspace.printed := #[], workspace.now := ← now }, saved)

def complain (e : Failure Float) : IO Unit :=
  IO.eprintln ("resmhd: error: " ++ e.message?.getD "the input cannot be used")

/-- The workspace of an input file: what is on disk of it and of the output directory that it names. -/
def workspaceOf (input : String) : IO (Workspace Float) := do
  let moment ← now
  let mut files ← gather input .empty
  if let .ok (.text s) _ := (Files.read input).run files then
    if let .ok c _ := (Settings.Configuration.read (Value.ofYaml s : Except (Failure Float) _)).run [] then
      files ← gather (Workspace.outputName moment c.options.output c.options.useTstamp) files
  return { files, loggers := [], printed := #[], now := moment }

/-- Carries out an action of a simulation, and complains if it fails. -/
def perform {m : Mesh Float} {α : Type} (act : Simulating m α) (s : Simulation m) (saved : Saved) :
    IO (Option α × Simulation m × Saved) := do
  match act.run s with
  | .ok a s => return (some a, ← carryOut s saved)
  | .error e s => do
    let outcome ← carryOut s saved
    complain e
    return (none, outcome)

/-- The steps of a simulation that has begun; the answer tells whether none of them failed. -/
partial def steps {m : Mesh Float} (s : Simulation m) (saved : Saved) : IO (Bool × Simulation m × Saved) := do
  match ← perform Simulation.goesOn s saved with
  | (none, outcome) => return (false, outcome)
  | (some false, outcome) => return (true, outcome)
  | (some true, s, saved) =>
    match ← perform (Simulation.turn []) s saved with
    | (none, outcome) => return (false, outcome)
    | (some (), s, saved) => steps s saved

/-- Runs a simulation to its end; the answer tells whether nothing failed. -/
def run {m : Mesh Float} (s : Simulation m) : IO Bool := do
  let (some (), s, saved) ← perform Simulation.beginRun s [] | return false
  let began ← now
  let (true, s, saved) ← steps s saved | return false
  return (← perform (Simulation.endRun began) s saved).1.isSome

def simulate (input : String) : IO UInt32 := do
  let w ← workspaceOf input
  match Simulation.ofFile input w with
  | .error e w =>
    for line in w.printed do IO.println line
    complain e
    return 1
  | .ok ⟨_, s⟩ _ => return if ← run s then 0 else 1

end Magnetofluid.Program

open Magnetofluid in
def main (arguments : List String) : IO UInt32 := do
  match CommandLine.parse arguments with
  | .error m =>
    for line in m.lines do IO.eprintln line
    return 2
  | .ok .help =>
    for line in CommandLine.helpLines do IO.println line
    return 0
  | .ok (.run input) => Program.simulate input
