import Magnetofluid.Moment
import Magnetofluid.Number
import Magnetofluid.Text.Numeral

/-!
# Values of a configuration

The values that a configuration document or a caller may give for a setting, and the two texts of a value: the
plain text, which is what a setting that is a text becomes, and the text with quotes, in which a value appears
inside other values.
-/

namespace Magnetofluid

/-- The kinds of values that can hold themselves. -/
inductive Nesting
  | list
  | tuple
  | map
deriving DecidableEq, Repr

/-- A value. The entries of a map are in the order of their insertion. -/
inductive Value (K : Type)
  | null
  | bool (b : Bool)
  | int (i : Int)
  | real (x : K)
  /-- A complex number. -/
  | complex (re im : K)
  | text (s : String)
  | bytes (bs : List Nat)
  | date (year month day : Nat)
  | moment (m : Moment)
  | list (items : List (Value K))
  | tuple (items : List (Value K))
  | set (items : List (Value K))
  | map (entries : List (Value K × Value K))
  /-- A value of which only a text is known. -/
  | named (text : String)
  /-- A value that stands within itself, at the place where it would begin again. -/
  | again (kind : Nesting)

def Number.toValue {K : Type} : Number K → Value K
  | .int i => .int i
  | .real x => .real x

namespace Text

def quotedBytes (bs : List Nat) : String :=
  let quote := if bs.contains 39 && !bs.contains 34 then '"' else '\''
  let shown (b : Nat) : List Char :=
    if b < 127 then escape quote (Char.ofNat b) else '\\' :: 'x' :: hexadecimal 2 b
  "b" ++ .ofList (quote :: bs.flatMap shown ++ [quote])

end Text

namespace Value

open Text

variable {K : Type} [RealText K]

/-- A part of a complex number, without the point and zero of an integer value. -/
def partText (x : K) : String :=
  let cs := (RealText.write x).toList
  match cs.reverse with
  | '0' :: '.' :: rest => .ofList rest.reverse
  | _ => .ofList cs

/-- The text of a complex number: the imaginary part alone if the real part is zero without a sign, and both in brackets
otherwise. -/
def complexText (re im : K) : String :=
  if RealText.write re = "0.0" then partText im ++ "j"
  else
    let imaginary := partText im
    let sign := if imaginary.toList.head? = some '-' then "" else "+"
    "(" ++ partText re ++ sign ++ imaginary ++ "j)"

/-- The text of a value that would begin again. -/
def againText : Nesting → String
  | .list => "[...]"
  | .tuple => "(...)"
  | .map => "\x7b...\x7d"

mutual

/-- The value as it appears inside other values. -/
def quoted : Value K → String
  | null => "None"
  | bool b => if b then "True" else "False"
  | int i => toString i
  | real x => RealText.write x
  | complex re im => complexText re im
  | text s => Text.quoted s
  | bytes bs => quotedBytes bs
  | date y m d => "datetime.date(" ++ joined ", " [toString y, toString m, toString d] ++ ")"
  | moment m => m.quoted
  | list items => "[" ++ joined ", " (quotedItems items) ++ "]"
  | tuple [item] => "(" ++ quoted item ++ ",)"
  | tuple items => "(" ++ joined ", " (quotedItems items) ++ ")"
  | set [] => "set()"
  | set items => "\x7b" ++ joined ", " (quotedItems items) ++ "\x7d"
  | map entries => "\x7b" ++ joined ", " (quotedEntries entries) ++ "\x7d"
  | named s => s
  | again kind => againText kind

def quotedItems : List (Value K) → List String
  | [] => []
  | item :: items => quoted item :: quotedItems items

def quotedEntries : List (Value K × Value K) → List String
  | [] => []
  | (key, item) :: entries => (quoted key ++ ": " ++ quoted item) :: quotedEntries entries

end

def plain : Value K → String
  | text s => s
  | date y m d => padded 4 y ++ "-" ++ padded 2 m ++ "-" ++ padded 2 d
  | moment m => m.text
  | v => quoted v

/-- A value as a number of the number system, if it is one; truth values count as zero and one. -/
def number? : Value K → Option (Number K)
  | bool b => some (.int (if b then 1 else 0))
  | int i => some (.int i)
  | real x => some (.real x)
  | _ => none

/-- Whether two numbers are the same, an integer being compared with a real number exactly. A NaN is the same as another. -/
def sameNumber : Number K → Number K → Bool
  | .int i, .int j => i == j
  | .int i, .real x => (RealText.toBinary x).isInteger i
  | .real x, .int i => (RealText.toBinary x).isInteger i
  | .real x, .real y => Scalar.eq x y || (RealText.isNan x && RealText.isNan y)

mutual

/-- Whether two values are the same key: numbers are compared as numbers, all else by kind and content. -/
def sameKey : Value K → Value K → Bool
  | null, null => true
  | text s, text t => s == t
  | bytes s, bytes t => s == t
  | date y m d, date y' m' d' => y == y' && m == m' && d == d'
  | moment m, moment n => m.same n
  | named s, named t => s == t
  | tuple xs, tuple ys => sameKeys xs ys
  | v, w =>
    match number? v, number? w with
    | some a, some b => sameNumber a b
    | _, _ => false

def sameKeys : List (Value K) → List (Value K) → Bool
  | [], [] => true
  | x :: xs, y :: ys => sameKey x y && sameKeys xs ys
  | _, _ => false

end

def lookup? (entries : List (Value K × Value K)) (key : Value K) : Option (Value K) :=
  (entries.find? fun e => sameKey e.1 key).map (·.2)

/-- The entries with a key set: a key that is there keeps its place, another one comes last. -/
def insert (key value : Value K) : List (Value K × Value K) → List (Value K × Value K)
  | [] => [(key, value)]
  | e :: entries => if sameKey e.1 key then (e.1, value) :: entries else e :: insert key value entries

/-- The entries of a list of keys and values, the last value of a key being the one that counts. -/
def ofPairs (pairs : List (Value K × Value K)) : List (Value K × Value K) :=
  pairs.foldl (fun entries p => insert p.1 p.2 entries) []

end Value

end Magnetofluid
