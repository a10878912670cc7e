import Magnetofluid.Failure
import Magnetofluid.Files.Name
import Magnetofluid.Files.Tree

/-!
# Changes of a tree of files

What can be asked of a tree of files by name, and how it refuses. Names are relative to the root of the tree; nothing
is above the root.

* `walk`: the place a name leads to.
* `makeDirectory`: makes one directory; `makeDirectories` also makes those on the way to it.
* `write`, `read`: changes and reads the content of a file.
-/

namespace Magnetofluid.Files

variable {C : Type}

/-- An action on a tree of files. What it did before a refusal stays done. -/
abbrev Change (C : Type) := EStateM FileRefusal (Tree C)

/-- The place that a way leads to from a place. -/
def walk (t : Tree C) (here : List String) : List String → Except FileRefusal (List String)
  | [] => .ok here
  | part :: rest =>
    match t.at? here with
    | none => .error .missing
    | some (.file _) => .error .notADirectory
    | some (.directory entries) =>
      if part = "." then walk t here rest
      else if part = ".." then walk t here.dropLast rest
      else if isTooLong part then .error .tooLong
      else if (Tree.lookup part entries).isSome then walk t (here ++ [part]) rest
      else .error .missing

/-- The place a name leads to. -/
def locate (t : Tree C) (name : String) : Except FileRefusal (List String) :=
  if !isWellFormed name then .error .badName
  else if lengthLimit ≤ name.utf8ByteSize then .error .tooLong
  else if name = "" then .error .missing
  else walk t [] (route name)

/-- Whether a way leads to anything. -/
def leads (t : Tree C) (way : List String) : Bool :=
  way.all isWellFormed && wayLength way < lengthLimit && (walk t [] way).isOk

def leadsToDirectory (t : Tree C) (way : List String) : Bool :=
  way.all isWellFormed && wayLength way < lengthLimit &&
    match walk t [] way with
    | .ok place => (t.at? place).any Tree.isDirectory
    | .error _ => false

def exists? (t : Tree C) (name : String) : Bool := (locate t name).isOk

/-- The place of a directory that a way leads to. -/
def walkToDirectory (t : Tree C) (way : List String) : Except FileRefusal (List String) := do
  let place ← walk t [] way
  if (t.at? place).any Tree.isDirectory then return place else throw .notADirectory

def namesIn (name : String) : Change C (List String) := do
  let t ← get
  let place ← MonadExcept.ofExcept (locate t name)
  match (t.at? place).bind Tree.names? with
  | some names => return names
  | none => throw .notADirectory

/-- Makes a directory whose parts are given from the last to the first. -/
def makeDirectory : List String → Change C Unit
  | [] => throw .missing
  | last :: before => do
    let t ← get
    if !(last :: before).all isWellFormed then throw .badName
    if lengthLimit ≤ wayLength (last :: before) then throw .tooLong
    let place ← MonadExcept.ofExcept (walkToDirectory t before.reverse)
    if isTooLong last then throw .tooLong
    if !isProper last || (t.at? (place ++ [last])).isSome then throw .exists
    set (Tree.put .empty (place ++ [last]) t)

/-- Makes a directory whose parts are given from the last to the first, and those on the way to it that are not
there. A directory that is there already is refused unless `reuse` allows for it. -/
def makeDirectories (reuse : Bool) : List String → Change C Unit
  | [] => throw .missing
  | last :: before => do
    if !before.isEmpty && !leads (← get) before.reverse then
      try makeDirectories reuse before
      catch e => unless e matches .exists do throw e
      if last = "." then return
    try makeDirectory (last :: before)
    catch e => do
      let there := leadsToDirectory (← get) (last :: before).reverse
      unless reuse && there do throw e

/-- Makes the directory of a name and those on the way to it. -/
def makePath (reuse : Bool) (name : String) : Change C Unit := do
  match parts name with
  | [] => unless name ≠ "" && reuse do throw (if name = "" then .missing else .exists)
  | ps => makeDirectories reuse ps.reverse

/-- The place of the file of a name, which need not be there yet. -/
def filePlace (t : Tree C) (name : String) : Except FileRefusal (List String) := do
  if !isWellFormed name then throw .badName
  if lengthLimit ≤ name.utf8ByteSize then throw .tooLong
  match (parts name).reverse with
  | [] => throw (if name = "" then .missing else .isADirectory)
  | last :: before =>
    let place ← walkToDirectory t before.reverse
    if isTooLong last then throw .tooLong
    if endsInSlash name || !isProper last then throw .isADirectory
    if (t.at? (place ++ [last])).any Tree.isDirectory then throw .isADirectory
    return place ++ [last]

/-- Gives a file a content. -/
def write (name : String) (content : C) : Change C Unit := do
  let t ← get
  let place ← MonadExcept.ofExcept (filePlace t name)
  set (Tree.put (.file content) place t)

/-- Gives a file a content, and makes the directory it is in. -/
def writeAnew (name : String) (content : C) : Change C Unit := do
  let directory := directoryPart name
  if directory ≠ "" then makePath true directory
  write name content

def read (name : String) : Change C C := do
  let t ← get
  let place ← MonadExcept.ofExcept (locate t name)
  match t.at? place with
  | some (.file content) => return content
  | _ => throw .isADirectory

end Magnetofluid.Files
