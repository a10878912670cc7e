/-!
# Floats as exact fractions

A finite float is an integer times a power of two. Its decimal texts are computed from that value, in exact
integer arithmetic.

* `Binary.ofFloat` reads the value off the bits.
* `Ratio` is a non-negative fraction, with `Ratio.round`, rounding to the nearest integer and a half to the even
  neighbour, and `Ratio.magnitude`, the exponent of the leading decimal digit.
-/

namespace Magnetofluid

/-- A non-negative fraction. -/
structure Ratio where
  num : Nat
  den : Nat
deriving Repr

namespace Ratio

/-- The nearest integer; a half goes to the even neighbour. -/
def round (r : Ratio) : Nat :=
  let q := r.num / r.den
  let twice := 2 * (r.num % r.den)
  if twice < r.den then q
  else if r.den < twice then q + 1
  else q + q % 2

/-- The fraction times a power of ten. -/
def scale (r : Ratio) : Int → Ratio
  | .ofNat k => ⟨r.num * Nat.pow 10 k, r.den⟩
  | .negSucc k => ⟨r.num, r.den * Nat.pow 10 (k + 1)⟩

def le (r s : Ratio) : Bool := r.num * s.den ≤ s.num * r.den

def digitCount (n : Nat) : Nat := (Nat.toDigits 10 n).length

/-- The least `k` among the next `fuel` ones with `num * 10 ^ k ≥ den`, counted from `k`. -/
def leadingZeros (den : Nat) : (fuel : Nat) → (num k : Nat) → Nat
  | 0, _, k => k
  | fuel + 1, num, k => if den ≤ num then k else leadingZeros den fuel (num * 10) (k + 1)

/-- The integer `k` with `10 ^ k ≤ r < 10 ^ (k + 1)`, for a positive fraction. -/
def magnitude (r : Ratio) : Int :=
  if r.den ≤ r.num then digitCount (r.num / r.den) - 1
  else -(leadingZeros r.den (digitCount r.den) r.num 0 : Nat)

end Ratio

/-- A float: not a number, infinite, or an integer times a power of two. -/
inductive Binary
  | nan
  | infinite (negative : Bool)
  | finite (negative : Bool) (mantissa : Nat) (exponent : Int)
deriving Repr

namespace Binary

/-- The value of a float, read off its bits. -/
def ofFloat (x : Float) : Binary :=
  let bits := x.toBits.toNat
  let negative := Nat.pow 2 63 ≤ bits
  let exponent : Nat := bits / Nat.pow 2 52 % Nat.pow 2 11
  let fraction := bits % Nat.pow 2 52
  if exponent = 2047 then
    if fraction = 0 then infinite negative else nan
  else if exponent = 0 then finite negative fraction (-1074)
  else finite negative (Nat.pow 2 52 + fraction) ((exponent : Int) - 1075)

/-- An integer times a power of two, as a fraction. -/
def toRatio (mantissa : Nat) : Int → Ratio
  | .ofNat k => ⟨mantissa * Nat.pow 2 k, 1⟩
  | .negSucc k => ⟨mantissa, Nat.pow 2 (k + 1)⟩

/-- The integer part of a float without its fraction, if it is finite. -/
def truncate? : Binary → Option Int
  | finite negative mantissa exponent =>
    let r := toRatio mantissa exponent
    let q : Int := r.num / r.den
    some (if negative then -q else q)
  | _ => none

def isInteger (i : Int) : Binary → Bool
  | finite negative mantissa exponent =>
    let r := toRatio mantissa exponent
    (i = 0 || decide (i < 0) == negative) && i.natAbs * r.den == r.num
  | _ => false

/-- Whether the value of a float is an integer multiple of another; zero is a multiple of infinity. -/
def isMultiple : Binary → Binary → Bool
  | finite _ 0 _, infinite _ => true
  | finite _ m e, finite _ n f =>
    let r := toRatio m e
    let s := toRatio n f
    decide (n ≠ 0) && r.num * s.den % (s.num * r.den) = 0
  | _, _ => false

end Binary

end Magnetofluid
