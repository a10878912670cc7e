import Magnetofluid.Decimal.Shortest

/-!
# Decimal notation of floats

The texts under which floats appear in output: the shortest text that reads back, and scientific and fixed
notation with a given number of places, correctly rounded.
-/

namespace Magnetofluid

/-- The choices of a notation that prints the shortest decimal. -/
structure ShortestStyle where
  /-- The exponents of a leading digit that is written in its place, from the least to the greatest. -/
  least : Int
  greatest : Int
  /-- Whether an integer value is written with a point and a zero. -/
  pointZero : Bool
  nan : String
  infinity : String

/-- The notation of numbers in reports and settings: in place from `0.0001` to below `10 ^ 16`. -/
def ShortestStyle.plain : ShortestStyle := ⟨-4, 15, true, "nan", "inf"⟩

namespace Decimal

/-- An exponent with its sign and at least two digits. -/
def exponentText (e : Int) : String :=
  let digits := toString e.natAbs
  (if e < 0 then "e-" else "e+") ++ (if digits.length < 2 then "0" ++ digits else digits)

def zeros (n : Nat) : List Char := List.replicate n '0'

/-- A positive decimal in place. -/
def positional (style : ShortestStyle) (d : Decimal) : String :=
  let cs := d.characters
  if 0 ≤ d.exponent then
    .ofList (cs ++ zeros d.exponent.toNat) ++ (if style.pointZero then ".0" else "")
  else
    let places := (-d.exponent).toNat
    if cs.length ≤ places then "0." ++ .ofList (zeros (places - cs.length) ++ cs)
    else
      let whole := cs.length - places
      .ofList (cs.take whole) ++ "." ++ .ofList (cs.drop whole)

/-- A positive decimal with an exponent, after the first digit. -/
def scientific (d : Decimal) : String :=
  let head := d.characters.take 1
  let tail := d.characters.drop 1
  .ofList head ++ (if tail.isEmpty then "" else "." ++ .ofList tail) ++ exponentText d.leading

end Decimal

namespace Binary

def signText (negative : Bool) : String := if negative then "-" else ""

/-- The shortest text of a float. -/
def shortestText (style : ShortestStyle) : Binary → String
  | nan => style.nan
  | infinite negative => signText negative ++ style.infinity
  | finite negative 0 _ => signText negative ++ (if style.pointZero then "0.0" else "0")
  | finite negative mantissa exponent =>
    let d := Decimal.shortest mantissa exponent
    signText negative ++
      if style.least ≤ d.leading ∧ d.leading ≤ style.greatest then d.positional style else d.scientific

/-- A text of digits with a point before the last `places`. -/
def withPoint (places : Nat) (n : Nat) : String :=
  let cs := Nat.toDigits 10 n
  let cs := Decimal.zeros (places + 1 - cs.length) ++ cs
  let whole := cs.length - places
  .ofList (cs.take whole) ++ (if places = 0 then "" else "." ++ .ofList (cs.drop whole))

/-- Scientific notation with a number of places after the point. -/
def scientificText (places : Nat) : Binary → String
  | nan => "nan"
  | infinite negative => signText negative ++ "inf"
  | finite negative 0 _ => signText negative ++ withPoint places 0 ++ Decimal.exponentText 0
  | finite negative mantissa exponent =>
    let value := toRatio mantissa exponent
    let top := value.magnitude
    let n := (value.scale (places - top)).round
    let (n, top) := if n < Nat.pow 10 (places + 1) then (n, top) else (n / 10, top + 1)
    signText negative ++ withPoint places n ++ Decimal.exponentText top

/-- Notation in place with a number of places after the point. -/
def fixedText (places : Nat) : Binary → String
  | nan => "nan"
  | infinite negative => signText negative ++ "inf"
  | finite negative mantissa exponent =>
    signText negative ++ withPoint places ((toRatio mantissa exponent).scale places).round

end Binary

/-- The shortest text of a float in the notation of reports and settings. -/
def plainText (x : Float) : String := (Binary.ofFloat x).shortestText .plain

end Magnetofluid
