import Magnetofluid.Value.Basic

/-!
# Values as numbers and truth values

What a setting makes of the value it is given. A text is read as a numeral, a truth value counts as zero or
one, a real number loses its fraction where an integer is asked for; all other values have the wrong type.
-/

namespace Magnetofluid.Value

variable {K : Type} [RealText K]

/-- The text that bytes spell, if all of them are ASCII. -/
def asciiText? (bs : List Nat) : Option String :=
  if bs.all (· < 128) then some (.ofList (bs.map Char.ofNat)) else none

/-- The integer of a numeral, if there is any, that stands between quotes in `quoted`. -/
def readInteger (quoted : String) (s? : Option String) : Except (Failure K) Int :=
  if s?.any Text.hasTooManyDigits then .error .tooManyDigits
  else (s?.bind Text.integer?).elim (.error (.badInteger quoted)) .ok

def toInteger : Value K → Except (Failure K) Int
  | bool b => .ok (if b then 1 else 0)
  | int i => .ok i
  | real x =>
    match RealText.truncate? x with
    | some i => .ok i
    | none => .error (if RealText.isNan x then .nanToInteger else .infinityToInteger)
  | text s => readInteger (Text.quoted s) (some s)
  | bytes bs => readInteger (Text.quotedBytes bs) (asciiText? bs)
  | _ => .error .wrongType

/-- The real number of an integer. -/
def realOfInteger (i : Int) : Except (Failure K) K :=
  (RealText.ofInteger? i).elim (.error .integerTooLarge) .ok

def toReal : Value K → Except (Failure K) K
  | bool b => realOfInteger (if b then 1 else 0)
  | int i => realOfInteger i
  | real x => .ok x
  | text s => (Text.real? s).elim (.error (.badReal (Text.quoted s))) .ok
  | bytes bs =>
    ((asciiText? bs).bind Text.real?).elim (.error (.badReal (Text.quotedBytes bs))) .ok
  | _ => .error .wrongType

/-- Whether a value counts as true: it is neither empty nor zero. -/
def isTrue : Value K → Bool
  | null => false
  | bool b => b
  | int i => i != 0
  | real x => !Scalar.isZero x
  | text s => !s.isEmpty
  | bytes bs => !bs.isEmpty
  | date .. => true
  | moment _ => true
  | list items => !items.isEmpty
  | tuple items => !items.isEmpty
  | set items => !items.isEmpty
  | map entries => !entries.isEmpty
  | complex re im => !(Scalar.isZero re && Scalar.isZero im)
  | named _ => true
  | again _ => true

mutual

/-- Whether a value holds no integer that has too many digits to be written. -/
def isWritable : Value K → Bool
  | int i => decide (i.natAbs < Nat.pow 10 Text.digitLimit)
  | list items => areWritable items
  | tuple items => areWritable items
  | set items => areWritable items
  | map entries => areEntriesWritable entries
  | _ => true

def areWritable : List (Value K) → Bool
  | [] => true
  | item :: items => isWritable item && areWritable items

def areEntriesWritable : List (Value K × Value K) → Bool
  | [] => true
  | (key, item) :: entries => isWritable key && isWritable item && areEntriesWritable entries

end

def toText (v : Value K) : Except (Failure K) String :=
  if v.isWritable then .ok v.plain else .error .tooManyDigits

/-- The number that a value is. -/
def toNumber (v : Value K) : Except (Failure K) (Number K) :=
  v.number?.elim (.error .wrongType) .ok

/-- The real number of a value that is a number already. -/
def toScalar (v : Value K) : Except (Failure K) K := do
  match ← v.toNumber with
  | .int i => realOfInteger i
  | .real x => return x

/-- The real number of a value that the entries of an array are combined with. -/
def toOperand (v : Value K) : Except (Failure K) K :=
  match v with
  | text _ => .error .textOperand
  | v => v.toScalar

/-- The size of a step that a value gives. -/
def stepSize (v : Value K) : Except (Failure K) (Number K) :=
  match v with
  | bool false => .error .stepIsFalse
  | v => v.toNumber

/-- The parts of a value one by one: the items of a list, the characters of a text, the keys of a map. -/
def parts : Value K → Except (Failure K) (List (Value K))
  | list items => .ok items
  | tuple items => .ok items
  | set items => .ok items
  | text s => .ok (s.toList.map fun c => .text (.singleton c))
  | bytes bs => .ok (bs.map fun b => .int (b : Nat))
  | map entries => .ok (entries.map (·.1))
  | _ => .error .wrongType

def toEntries : Value K → Except (Failure K) (List (Value K × Value K))
  | map entries => .ok entries
  | _ => .error .wrongStructure

/-- The integer of a value, if it is in the range of indices, `[-2 ^ 63, 2 ^ 63)`. -/
def toIndex (v : Value K) : Except (Failure K) Int := do
  let i ← v.toInteger
  if -0x8000000000000000 ≤ i ∧ i < 0x8000000000000000 then return i else throw .indexTooLarge

end Magnetofluid.Value
