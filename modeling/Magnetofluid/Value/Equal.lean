import Magnetofluid.Value.Basic

/-!
# Equality of values

Values are equal by content: numbers as numbers, lists item by item, maps whatever the order of their entries. A number
that is not equal to itself makes every value that holds it unequal to itself.
-/

namespace Magnetofluid.Value

variable {K : Type} [RealText K]

mutual

def equal : Value K → Value K → Bool
  | list xs, list ys => equalItems xs ys
  | tuple xs, tuple ys => equalItems xs ys
  | set xs, set ys => xs.length == ys.length && xs.all fun x => ys.any (sameKey x)
  | map es, map fs => es.length == fs.length && equalEntries es fs
  | real x, real y => Scalar.eq x y
  | v, w => sameKey v w

def equalItems : List (Value K) → List (Value K) → Bool
  | [], [] => true
  | x :: xs, y :: ys => equal x y && equalItems xs ys
  | _, _ => false

/-- Whether all entries are among others. -/
def equalEntries : List (Value K × Value K) → List (Value K × Value K) → Bool
  | [], _ => true
  | (k, v) :: es, fs =>
    (match lookup? fs k with
      | some w => equal v w
      | none => false) && equalEntries es fs

end

end Magnetofluid.Value
