/-!
# Lines and pieces of text

Where a text breaks into lines, and texts that are made of others: repeated, padded, joined, and in a frame of three
lines.  A text that the program writes has line feeds only; a text file is read with line feeds in place of carriage
returns (`plainLineEnds`); a text that is shown line by line breaks at every character that ends a line (`splitLines`).
-/

namespace Magnetofluid.Text

/-! ### Lines -/

/-- The lines of a text, which end at its line feeds. -/
def lines (s : String) : List String := s.splitOn "\n"

/-- Characters with a line feed for each carriage return and for each pair of the two. -/
def plainLineEnds : List Char → List Char
  | '\r' :: '\n' :: cs => '\n' :: plainLineEnds cs
  | '\r' :: cs => '\n' :: plainLineEnds cs
  | c :: cs => c :: plainLineEnds cs
  | [] => []

/-- A text as it is read from a file. -/
def asRead (s : String) : String := .ofList (plainLineEnds s.toList)

def endsLine (c : Char) : Bool :=
  let n := c.toNat
  (10 ≤ n && n ≤ 13) || (28 ≤ n && n ≤ 30) || n = 0x85 || n = 0x2028 || n = 0x2029

/-- The lines of characters; `line` is what the line they go on with holds, last character first. What ends a line ends
the line before it, and a line that is empty at the end of all is none. -/
def splitFrom (line : List Char) : List Char → List (List Char)
  | [] => if line.isEmpty then [] else [line.reverse]
  | '\r' :: '\n' :: cs => line.reverse :: splitFrom [] cs
  | c :: cs => if endsLine c then line.reverse :: splitFrom [] cs else splitFrom (c :: line) cs

/-- The lines of a text, which end at every character that ends a line. -/
def splitLines (s : String) : List String := (splitFrom [] s.toList).map .ofList

/-! ### Layout -/

/-- A text repeated; no times for a negative count. -/
def repeated (count : Int) (s : String) : String := String.join (List.replicate count.toNat s)

/-- A text followed by as many blanks as make it `width` characters long. -/
def padRight (width : Nat) (s : String) : String :=
  s ++ .ofList (List.replicate (width - s.length) ' ')

/-- A number with at least `width` digits. -/
def padded (width n : Nat) : String :=
  let cs := Nat.toDigits 10 n
  .ofList (List.replicate (width - cs.length) '0' ++ cs)

/-- Texts with a separator between them. -/
def joined (separator : String) : List String → String
  | [] => ""
  | [s] => s
  | s :: rest => s ++ separator ++ joined separator rest

/-- A text in a frame. A text longer than `width` widens the frame; a text of odd length does so by one more.
`edge` draws the frame and `fill` the space in it. -/
def banner (s : String) (width : Int) (edge fill : String) : List String :=
  let length : Int := s.length
  let width := if width < length then length + 4 else width
  let width := width + length % 2
  let space := repeated ((width - length).fdiv 2 - 1) fill
  let rule := lines (repeated width edge)
  rule ++ lines (edge ++ space ++ s ++ space ++ edge) ++ rule

def heading (s : String) : List String := banner s 60 "*" " "

end Magnetofluid.Text
