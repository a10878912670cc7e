import Magnetofluid.Decimal.Binary

/-!
# The shortest decimal that reads back

For a positive finite float, the decimal with the fewest digits that rounds to it, and of those the nearest.
With `n` digits only the two multiples of a power of ten around the value can qualify, so that it is enough to
look at them for `n = 1, 2, …, 17`.
-/

namespace Magnetofluid

/-- A positive decimal: `digits` as an integer times `10 ^ exponent`. -/
structure Decimal where
  digits : Nat
  exponent : Int
deriving Repr, DecidableEq

namespace Decimal

def characters (d : Decimal) : List Char := Nat.toDigits 10 d.digits

/-- The exponent of the leading digit. -/
def leading (d : Decimal) : Int := d.characters.length - 1 + d.exponent

/-- The fractions that round to a float: the ends of the interval, and whether they belong to it. -/
structure Interval where
  low : Ratio
  high : Ratio
  closed : Bool

/-- The interval of a float. Below a power of two the floats lie half as far apart. -/
def Interval.around (mantissa : Nat) (exponent : Int) : Interval where
  low := if mantissa = Nat.pow 2 52 ∧ -1074 < exponent then Binary.toRatio (4 * mantissa - 1) (exponent - 2)
    else Binary.toRatio (2 * mantissa - 1) (exponent - 1)
  high := Binary.toRatio (2 * mantissa + 1) (exponent - 1)
  closed := mantissa % 2 = 0

def Interval.contains (i : Interval) (r : Ratio) : Bool :=
  if i.closed then i.low.le r && r.le i.high
  else !r.le i.low && !i.high.le r

/-- The nearest decimal with `n` digits in the interval around `value`, if there is one. -/
def withDigits? (i : Interval) (value : Ratio) (top : Int) (n : Nat) : Option Decimal :=
  let e : Int := top - n + 1
  let scaled := value.scale (-e)
  let below := scaled.num / scaled.den
  let nearest := scaled.round
  let other := if nearest = below then below + 1 else below
  let fits (d : Nat) : Bool := 0 < d && i.contains (Ratio.scale ⟨d, 1⟩ e)
  if fits nearest then some ⟨nearest, e⟩
  else if fits other then some ⟨other, e⟩
  else none

/-- The same value without trailing zeros, of which at most `fuel` are dropped. -/
def strip : (fuel : Nat) → Decimal → Decimal
  | 0, d => d
  | fuel + 1, d =>
    if d.digits % 10 = 0 ∧ 0 < d.digits then strip fuel ⟨d.digits / 10, d.exponent + 1⟩ else d

/-- The shortest decimal of a positive float. -/
def shortest (mantissa : Nat) (exponent : Int) : Decimal :=
  let value := Binary.toRatio mantissa exponent
  let i := Interval.around mantissa exponent
  let top := value.magnitude
  let found := (List.range 17).findSome? fun n => withDigits? i value top (n + 1)
  strip 20 (found.getD ⟨(value.scale (16 - top)).round, top - 16⟩)

end Decimal

end Magnetofluid
