import Magnetofluid.Decimal.Notation
import Magnetofluid.Failure
import Magnetofluid.Text.Character
import Magnetofluid.Text.Quoted

/-!
# Numerals

Reading numbers from text. Blanks around a numeral are ignored, digits of any script count, and a single
underscore may stand between two digits.

* `integer?`: an optional sign and digits.
* `real?`: a decimal with optional fraction and exponent, or a name of infinity or NaN. The number system says
  what a decimal is rounded to (`RealText`).
-/

namespace Magnetofluid

/-- A number system whose numbers can be read and written. -/
class RealText (K : Type) extends Elementary K where
  /-- The number of an integer, unless it is too large. -/
  ofInteger? : Int → Option K
  /-- The number of `digits * 10 ^ exponent`, or of its negative. -/
  ofDecimal : (negative : Bool) → (digits : Nat) → (exponent : Int) → K
  infinity : (negative : Bool) → K
  nan : K
  isNan : K → Bool
  isInfinite : K → Bool
  /-- The value as an integer times a power of two. -/
  toBinary : K → Binary
  /-- The integer part; `none` if there is none. -/
  truncate? : K → Option Int
  /-- The shortest text that reads back. -/
  write : K → String
  /-- The text in scientific notation with a number of places after the point. -/
  scientific : (places : Nat) → K → String

namespace Text

/-- The float nearest to a decimal. Exponents beyond the range of floats are cut off first. -/
def nearestFloat (negative : Bool) (digits : Nat) (exponent : Int) : Float :=
  let leading : Int := Ratio.digitCount digits + exponent
  let x : Float :=
    if digits = 0 ∨ leading < -400 then 0.0
    else if 400 < leading then 1.0 / 0.0
    else match exponent with
      | .ofNat k => Float.ofScientific digits false k
      | .negSucc k => Float.ofScientific digits true (k + 1)
  if negative then -x else x

end Text

instance : RealText Float where
  ofInteger? i :=
    let x := Text.nearestFloat (decide (i < 0)) i.natAbs 0
    if x.isInf then none else some x
  ofDecimal := Text.nearestFloat
  infinity negative := if negative then -1.0 / 0.0 else 1.0 / 0.0
  nan := 0.0 / 0.0
  isNan := Float.isNaN
  isInfinite := Float.isInf
  toBinary := Binary.ofFloat
  truncate? x := (Binary.ofFloat x).truncate?
  write := plainText
  scientific places x := (Binary.ofFloat x).scientificText places

namespace Text

/-- Digits with single underscores between them: the values of the digits, and the text after them. -/
def digitRun : List Char → List Nat × List Char
  | [] => ([], [])
  | c :: cs =>
    match digit? c with
    | none => ([], c :: cs)
    | some d =>
      match cs with
      | '_' :: c' :: cs' =>
        match digit? c' with
        | none => ([d], cs)
        | some _ => let (ds, rest) := digitRun (c' :: cs'); (d :: ds, rest)
      | cs => let (ds, rest) := digitRun cs; (d :: ds, rest)
  termination_by cs => cs.length

/-- The number of a list of decimal digits. -/
def ofDigits (ds : List Nat) : Nat := ds.foldl (fun n d => 10 * n + d) 0

/-- An optional sign: whether it is a minus, and the text after it. -/
def signOf : List Char → Bool × List Char
  | '-' :: cs => (true, cs)
  | '+' :: cs => (false, cs)
  | cs => (false, cs)

def integer? (s : String) : Option Int :=
  let (negative, cs) := signOf (trimBlanks s.toList)
  match digitRun cs with
  | (d :: ds, []) =>
    let n : Int := ofDigits (d :: ds)
    some (if negative then -n else n)
  | _ => none

/-- The largest number of digits with which an integer is read or written. -/
def digitLimit : Nat := 4300

/-- Whether a text begins as an integer of too many digits, which is noticed before what follows the digits is looked
at. -/
def hasTooManyDigits (s : String) : Bool :=
  let (ds, rest) := digitRun (signOf (trimBlanks s.toList)).2
  decide (digitLimit < ds.length) && rest.head? != some '_'

/-- The exponent of a decimal and the text after it; zero if there is none. -/
def exponentOf : List Char → Option Int
  | [] => some 0
  | e :: cs =>
    if e = 'e' ∨ e = 'E' then
      let (negative, cs) := signOf cs
      match digitRun cs with
      | (d :: ds, []) =>
        let n : Int := ofDigits (d :: ds)
        some (if negative then -n else n)
      | _ => none
    else none

/-- The number of a decimal without sign. -/
def decimal? {K : Type} [RealText K] (negative : Bool) (cs : List Char) : Option K :=
  let (whole, rest) := digitRun cs
  let (fraction, rest) := match rest with
    | '.' :: cs => digitRun cs
    | cs => ([], cs)
  if whole.isEmpty && fraction.isEmpty then none
  else (exponentOf rest).map fun e =>
    RealText.ofDecimal negative (ofDigits (whole ++ fraction)) (e - fraction.length)

def real? {K : Type} [RealText K] (s : String) : Option K :=
  let (negative, cs) := signOf (trimBlanks s.toList)
  let word := (String.ofList cs).toLower
  if word = "inf" ∨ word = "infinity" then some (RealText.infinity negative)
  else if word = "nan" then some RealText.nan
  else decimal? negative cs

end Text

end Magnetofluid
