/-!
# Contents of files

A file holds a text, or an archive of named arrays of numbers.
-/

namespace Magnetofluid.Files

/-- The numbers of an array, row by row. -/
inductive Numbers (K : Type)
  | integers (values : List Int)
  | reals (values : List K)

/-- A named array: the shape of a single number is empty. -/
structure NamedArray (K : Type) where
  name : String
  shape : List Nat
  numbers : Numbers K

/-- What a file holds. -/
inductive Content (K : Type)
  | text (s : String)
  | archive (arrays : List (NamedArray K))

def Content.text? {K : Type} : Content K → Option String
  | text s => some s
  | archive _ => none

/-- A content with a text after what it held before. -/
def Content.append {K : Type} (before : Option (Content K)) (s : String) : Content K :=
  .text (((before.bind text?).getD "") ++ s)

end Magnetofluid.Files
