import Magnetofluid.Value.Basic

/-!
# The order of sets

A set of numbers is written in the order of the places that its numbers take in a table. The place follows from the
remainder of the number by a prime; where a place is taken, the next ones are tried, and then places further away. Other
sets are written in the order in which they came.
-/

namespace Magnetofluid.Value

variable {K : Type} [RealText K]

/-- The prime by which remainders are taken. -/
def placePrime : Nat := Nat.pow 2 61 - 1

/-- A remainder with its sign; minus one counts as minus two. -/
def signedRemainder (negative : Bool) (n : Nat) : Int :=
  let r : Int := n % placePrime
  if !negative then r else if r = 1 then -2 else -r

/-- The remainder that places a number in a table, if there is one. -/
def remainder? (v : Value K) : Option Int :=
  match v.number? with
  | some (.int i) => some (signedRemainder (decide (i < 0)) i.natAbs)
  | some (.real x) =>
    match RealText.toBinary x with
    | .finite negative mantissa exponent =>
      some (signedRemainder negative (mantissa * Nat.pow 2 (exponent.emod 61).toNat))
    | .infinite negative => some (if negative then -314159 else 314159)
    | .nan => none
  | none => none

/-- The size of the table for a number of items: a power of two, at least eight, and more than twice the number of items
once there are five of them. -/
def tableSize (count : Nat) : Nat := if count < 5 then 8 else Nat.pow 2 (Nat.log2 (2 * count) + 1)

/-- The first free place at which an item is tried, starting at `place`; `spread` are the digits of its remainder that
are not used yet. -/
def freePlace (table : Array (Option (Value K))) : (fuel place spread : Nat) → Nat
  | 0, place, _ => place
  | fuel + 1, place, spread =>
    let tries := if place + 9 < table.size then List.range 10 else [0]
    match (tries.map (place + ·)).find? fun p => (table[p]?.bind id).isNone with
    | some p => p
    | none => freePlace table fuel ((place * 5 + 1 + spread / 32) % table.size) (spread / 32)

/-- The table with an item put at its place. -/
def putItem (table : Array (Option (Value K))) (item : Value K × Int) : Array (Option (Value K)) :=
  let digits := (item.2.emod (Nat.pow 2 64 : Nat)).toNat
  let place := freePlace table (table.size + 64) (digits % table.size) digits
  table.setIfInBounds place (some item.1)

/-- The items of a set in their order. -/
def setOrder (items : List (Value K)) : List (Value K) :=
  match items.mapM fun v => (remainder? v).map fun r => (v, r) with
  | none => items
  | some placed =>
    (placed.foldl putItem (Array.replicate (tableSize items.length) none)).toList.filterMap id

end Magnetofluid.Value
