/-!
# Names of files

The parts of a name are separated by slashes. A name that ends in a slash asks for a directory.

* `parts`: the parts of a name, empty ones left out.
* `directoryPart`, `basePart`: what stands before and after the last slash.
* `join`: a name below a directory.
-/

namespace Magnetofluid.Files

def parts (name : String) : List String := ((name.toList.splitOn '/').filter (· ≠ [])).map String.ofList

def endsInSlash (name : String) : Bool := name.toList.getLast? = some '/'

/-- The way that a name describes, step by step. A slash at its end asks for the directory itself. -/
def route (name : String) : List String := parts name ++ if endsInSlash name then ["."] else []

/-- Whether a part of a name can stand in a name at all. -/
def isWellFormed (part : String) : Bool := !part.toList.contains '\x00'

/-- Whether a part of a name is longer than a part can be, which is 255 bytes. -/
def isTooLong (part : String) : Bool := decide (255 < part.utf8ByteSize)

/-- The number of bytes of the name that describes a way. -/
def wayLength (way : List String) : Nat := way.foldl (fun n part => n + part.utf8ByteSize) (way.length - 1)

/-- The number of bytes from which on a name is too long. -/
def lengthLimit : Nat := 4096

/-- Whether a part of a name stands for a place of its own, not for one it is relative to. -/
def isProper (part : String) : Bool := part ≠ "." && part ≠ ".."

/-- The characters after the last slash. -/
def afterSlash (cs : List Char) : List Char := (cs.reverse.takeWhile (· ≠ '/')).reverse

/-- The characters before the last slash and the slash. -/
def throughSlash (cs : List Char) : List Char := (cs.reverse.dropWhile (· ≠ '/')).reverse

theorem throughSlash_append_afterSlash (cs : List Char) : throughSlash cs ++ afterSlash cs = cs := by
  unfold throughSlash afterSlash
  rw [← List.reverse_append, List.takeWhile_append_dropWhile, List.reverse_reverse]

/-- The part of a name after its last slash. -/
def basePart (name : String) : String := .ofList (afterSlash name.toList)

/-- The part of a name before its last slash, without further slashes unless there is nothing else. -/
def directoryPart (name : String) : String :=
  let head := throughSlash name.toList
  if head.all (· = '/') then .ofList head else .ofList (head.reverse.dropWhile (· = '/')).reverse

/-- The name of an entry of a directory. -/
def join (directory name : String) : String :=
  if name.toList.head? = some '/' then name
  else if directory = "" ∨ endsInSlash directory then directory ++ name
  else directory ++ "/" ++ name

end Magnetofluid.Files
