/-!
# Reading a text

A cursor is a place in a text: what remains of it, and the index, line and column of the place. Lines end at line
feeds, carriage returns, pairs of the two, and the three line breaks beyond ASCII.
-/

namespace Magnetofluid.Yaml

def isBreak (c : Char) : Bool :=
  c = '\n' || c = '\r' || c = '\x85' || c = '\u2028' || c = '\u2029'

/-- Whether a line ends at a character or at the end of the text. -/
def endsLine (c : Option Char) : Bool := c.all isBreak

/-- Whether a word ends at a blank, a line break or the end of the text. -/
def endsWord (c : Option Char) : Bool := c.all fun c => c = ' ' || isBreak c

/-- Whether a word ends at a blank, a tab, a line break or the end of the text. -/
def endsItem (c : Option Char) : Bool := c.all fun c => c = ' ' || c = '\t' || isBreak c

/-- Letters, digits, hyphen and underscore. -/
def isNameChar (c : Char) : Bool := c.isAlphanum || c = '-' || c = '_'

/-- Whether a text may hold a character. -/
def isPrintable (c : Char) : Bool :=
  let n := c.toNat
  n = 9 || n = 10 || n = 13 || (32 ≤ n && n ≤ 126) || n = 133 || (160 ≤ n && n ≤ 55295) ||
    (57344 ≤ n && n ≤ 65533) || 65536 ≤ n

/-- A place in a text. -/
structure Cursor where
  rest : List Char
  index : Nat
  line : Nat
  column : Nat

namespace Cursor

def ofText (s : String) : Cursor := ⟨s.toList, 0, 0, 0⟩

def peek (c : Cursor) : Option Char := c.rest.head?

def peekAt (c : Cursor) (k : Nat) : Option Char := c.rest[k]?

/-- The place after the next character. A byte order mark takes no column. -/
def next (c : Cursor) : Cursor :=
  match c.rest with
  | [] => c
  | ch :: rest =>
    if isBreak ch && !(ch = '\r' && rest.head? = some '\n') then ⟨rest, c.index + 1, c.line + 1, 0⟩
    else ⟨rest, c.index + 1, c.line, if ch = '\ufeff' then c.column else c.column + 1⟩

/-- The place `k` characters ahead. -/
def skip : Nat → Cursor → Cursor
  | 0, c => c
  | k + 1, c => skip k c.next

/-- The characters up to the first that does not satisfy a predicate, and the place of that one. -/
def span (p : Char → Bool) (c : Cursor) : List Char × Cursor :=
  let word := c.rest.takeWhile p
  (word, c.skip word.length)

/-- The place after the characters that satisfy a predicate. -/
def skipWhile (p : Char → Bool) (c : Cursor) : Cursor := (c.span p).2

def skipBlanks (c : Cursor) : Cursor := c.skipWhile (· = ' ')

/-- The end of the line. -/
def skipLine (c : Cursor) : Cursor := c.skipWhile (!isBreak ·)

/-- The end of a comment that begins here, if one does. -/
def skipComment (c : Cursor) : Cursor := if c.peek = some '#' then c.skipLine else c

/-- A line break and the place after it. All breaks but two count as line feeds. -/
def takeBreak? (c : Cursor) : Option (Char × Cursor) :=
  match c.rest with
  | '\r' :: '\n' :: _ => some ('\n', c.skip 2)
  | ch :: _ => if isBreak ch then
      some (if ch = '\u2028' || ch = '\u2029' then ch else '\n', c.next)
    else none
  | [] => none

def skipBreak (c : Cursor) : Cursor := (c.takeBreak?.map (·.2)).getD c

/-- Whether a line begins here that separates documents with three of a character. -/
def atSeparator (mark : Char) (c : Cursor) : Bool :=
  c.rest.take 3 = [mark, mark, mark] && endsItem (c.peekAt 3)

/-- Whether three hyphens or three dots separate documents here. -/
def atDocumentEdge (c : Cursor) : Bool := c.atSeparator '-' || c.atSeparator '.'

/-- The rest of a line that holds nothing but blanks and a comment; `none` if it holds more. -/
def skipIgnored? (c : Cursor) : Option Cursor :=
  let c := c.skipBlanks.skipComment
  if endsLine c.peek then some c.skipBreak else none

end Cursor

end Magnetofluid.Yaml
