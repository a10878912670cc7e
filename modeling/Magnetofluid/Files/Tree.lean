/-!
# Trees of files

A tree is a file with its content or a directory of named trees. A place in a tree is the list of names on the way to
it; what stands at a place is found by following the names.

* `Tree.at?`: what stands at a place.
* `Tree.put`: a tree with something put at a place, in a directory that is there.
* `Tree.listing`: the places of a tree as names.
-/

namespace Magnetofluid.Files

/-- A file with its content, or a directory with its entries in the order in which they came. -/
inductive Tree (C : Type)
  | file (content : C)
  | directory (entries : List (String × Tree C))

namespace Tree

variable {C : Type}

def empty : Tree C := directory []

def isDirectory : Tree C → Bool
  | file _ => false
  | directory _ => true

def names? : Tree C → Option (List String)
  | file _ => none
  | directory entries => some (entries.map (·.1))

def content? : Tree C → Option C
  | file content => some content
  | directory _ => none

/-- The entry of a name. -/
def lookup (name : String) : List (String × Tree C) → Option (Tree C)
  | [] => none
  | e :: entries => if e.1 = name then some e.2 else lookup name entries

/-- The entries with the entry of a name set; a name that is not there comes last. -/
def setEntry (name : String) (t : Tree C) : List (String × Tree C) → List (String × Tree C)
  | [] => [(name, t)]
  | e :: entries => if e.1 = name then (name, t) :: entries else e :: setEntry name t entries

/-- What stands at a place. -/
def at? : List String → Tree C → Option (Tree C)
  | [], t => some t
  | _ :: _, file _ => none
  | name :: place, directory entries => (lookup name entries).bind (at? place)

/-- The tree with something put at a place. Without a directory to hold it the tree stays as it is. -/
def put (new : Tree C) : List String → Tree C → Tree C
  | [], _ => new
  | _ :: _, file content => file content
  | [name], directory entries => directory (setEntry name new entries)
  | name :: place, directory entries =>
    match lookup name entries with
    | some t => directory (setEntry name (put new place t) entries)
    | none => directory entries

theorem lookup_setEntry_self (name : String) (t : Tree C) (entries : List (String × Tree C)) :
    lookup name (setEntry name t entries) = some t := by
  induction entries with
  | nil => simp [setEntry, lookup]
  | cons e entries ih => by_cases h : e.1 = name <;> simp [setEntry, lookup, h, ih]

theorem lookup_setEntry_of_ne {name other : String} (h : other ≠ name) (t : Tree C)
    (entries : List (String × Tree C)) :
    lookup other (setEntry name t entries) = lookup other entries := by
  induction entries with
  | nil => simp [setEntry, lookup, h.symm]
  | cons e entries ih =>
    by_cases he : e.1 = name
    · have : e.1 ≠ other := fun h' => h (h'.symm.trans he)
      simp [setEntry, lookup, he, h.symm]
    · simp [setEntry, lookup, he, ih]

/-! ## Listings -/

mutual

/-- What follows the name of a tree in the names of all that is in it. A directory is marked by a slash. -/
def endings : Tree C → List String
  | file _ => [""]
  | directory entries => "/" :: (entryNames entries).map ("/" ++ ·)

def entryNames : List (String × Tree C) → List String
  | [] => []
  | (name, t) :: entries => (endings t).map (name ++ ·) ++ entryNames entries

end

/-- The names of all that is below a directory, in the order of their characters. Directories are marked by a
slash. -/
def listing : Tree C → List String
  | file _ => []
  | directory entries => (entryNames entries).mergeSort fun a b => !decide (b < a)

/-! ## Files -/

mutual

/-- The files of a tree with the ways to them. -/
def files : Tree C → List (List String × C)
  | file content => [([], content)]
  | directory entries => entryFiles entries

/-- The files of a list of entries with the ways to them. -/
def entryFiles : List (String × Tree C) → List (List String × C)
  | [] => []
  | (name, t) :: entries => (files t).map (fun f => (name :: f.1, f.2)) ++ entryFiles entries

end

end Tree

end Magnetofluid.Files
