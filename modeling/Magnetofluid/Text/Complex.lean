import Magnetofluid.Text.Numeral

/-!
# Complex numerals

Reading complex numbers from text. A numeral has a real part, an imaginary part with a `j` after it, or both, and may
stand in brackets. An imaginary part may be a sign alone, or nothing if there is no real part.
-/

namespace Magnetofluid.Text

variable {K : Type} [RealText K]

/-- What follows a word at the start of a text, whatever the case of its letters. -/
def afterWord? (word : List Char) (cs : List Char) : Option (List Char) :=
  if (cs.take word.length).map Char.toLower = word then some (cs.drop word.length) else none

/-- The exponent at the start of a text and what follows it; zero if there is none. -/
def leadingExponent (cs : List Char) : Int × List Char :=
  match cs with
  | e :: rest =>
    if e = 'e' ∨ e = 'E' then
      let (negative, rest) := signOf rest
      match digitRun rest with
      | ([], _) => (0, cs)
      | (ds, rest) =>
        let n : Int := ofDigits ds
        (if negative then -n else n, rest)
    else (0, cs)
  | [] => (0, [])

/-- The real number at the start of a text, as long as it can be, and what follows it. -/
def leadingReal? (cs : List Char) : Option (K × List Char) :=
  let (negative, cs) := signOf cs
  match afterWord? "infinity".toList cs, afterWord? "inf".toList cs, afterWord? "nan".toList cs with
  | some rest, _, _ => some (RealText.infinity negative, rest)
  | none, some rest, _ => some (RealText.infinity negative, rest)
  | none, none, some rest => some (RealText.nan, rest)
  | none, none, none =>
    let (whole, rest) := digitRun cs
    let (fraction, rest) := match rest with
      | '.' :: cs => digitRun cs
      | cs => ([], cs)
    if whole.isEmpty && fraction.isEmpty then none
    else
      let (e, rest) := leadingExponent rest
      some (RealText.ofDecimal negative (ofDigits (whole ++ fraction)) (e - fraction.length), rest)

/-- The imaginary part at the start of a text, which may be a sign alone, and what follows it. -/
def leadingImaginary? (cs : List Char) : Option (K × List Char) := do
  let (x, rest) ← match leadingReal? cs, cs with
    | some found, _ => some found
    | none, '+' :: rest => some (1, rest)
    | none, '-' :: rest => some (-1, rest)
    | none, _ => none
  match rest with
  | j :: rest => if j = 'j' ∨ j = 'J' then some (x, rest) else none
  | [] => none

/-- The complex number at the start of a text, and what follows it. -/
def leadingComplex? (cs : List Char) : Option ((K × K) × List Char) :=
  match leadingReal? cs with
  | some (x, rest) =>
    match rest with
    | c :: after =>
      if c = 'j' ∨ c = 'J' then some ((0, x), after)
      else if c = '+' ∨ c = '-' then (leadingImaginary? rest).map fun (y, rest) => ((x, y), rest)
      else some ((x, 0), rest)
    | [] => some ((x, 0), [])
  | none =>
    match cs with
    | c :: after =>
      if c = 'j' ∨ c = 'J' then some ((0, 1), after)
      else (leadingImaginary? cs).map fun (y, rest) => ((0, y), rest)
    | [] => none

def complex? (s : String) : Option (K × K) := do
  match trimBlanks s.toList with
  | '(' :: cs =>
    let (z, rest) ← leadingComplex? (cs.dropWhile isBlank)
    if rest.dropWhile isBlank = [')'] then some z else none
  | cs =>
    let (z, rest) ← leadingComplex? cs
    if rest.isEmpty then some z else none

end Magnetofluid.Text
