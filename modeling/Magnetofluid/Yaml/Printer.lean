import Magnetofluid.Yaml.Document

/-!
# Documents of values

How a value is written as a document: in blocks, the entries of a map by the order of their keys, empty collections in
brackets. A text is plain if it reads back as a text that way, else in single quotes, and in double quotes where those
cannot hold it; characters beyond ASCII are escaped. Lines are broken at blanks beyond column 80.
-/

namespace Magnetofluid.Yaml

/-- The column beyond which lines are broken. -/
def lineWidth : Nat := 80

/-! ## Pages -/

/-- What was written so far, the column reached, and whether the page ends with blank space or with nothing but
indentation and the marks of blocks in its line. -/
structure Page where
  text : String
  column : Nat
  blank : Bool
  indented : Bool

namespace Page

def empty : Page := ⟨"", 0, true, true⟩

def write (s : String) (p : Page) : Page :=
  { p with text := p.text ++ s, column := p.column + s.length }

/-- Ends the line with a character. -/
def endLine (c : Char) (p : Page) : Page := ⟨p.text.push c, 0, true, true⟩

/-- Goes to a column, in a new line if this one is used. -/
def indentTo (column : Nat) (p : Page) : Page :=
  let p := if !p.indented || column < p.column || (p.column = column && !p.blank) then p.endLine '\n' else p
  if p.column < column then
    { p.write (.ofList (List.replicate (column - p.column) ' ')) with blank := true }
  else p

/-- Writes a mark, after a blank if it is to be apart. -/
def mark (s : String) (apart : Bool) (p : Page) : Page :=
  { p.write (if apart && !p.blank then " " ++ s else s) with blank := false, indented := false }

/-- Writes the mark of an item or an entry, behind which a block may begin in the same line. -/
def blockMark (s : String) (p : Page) : Page :=
  { p.mark s true with indented := p.indented }

/-- The page with writing in progress. -/
def inText (p : Page) : Page := { p with blank := false, indented := false }

end Page

/-! ## Styles of texts -/

/-- How a text is written. -/
inductive Style
  | plain
  | single
  | double
deriving DecidableEq, Repr

/-- Whether a character ends a line in the text of a value. -/
def isTextBreak (c : Char) : Bool := c = '\n' || c = '\x85' || c = '\u2028' || c = '\u2029'

/-- Whether an indicator in a text keeps it from being plain. `before` says whether blank space or nothing precedes. -/
def hasIndicator : (first before : Bool) → List Char → Bool
  | _, _, [] => false
  | first, before, c :: cs =>
    let spaced := endsItem cs.head?
    (if first then
      "#,[]\x7b\x7d&*!|>'\"%@`".toList.contains c || ((c = '?' || c = ':' || c = '-') && spaced)
    else (c = ':' && spaced) || (c = '#' && before)) ||
    hasIndicator false (endsItem (some c)) cs

/-- Whether two neighbours in a text satisfy two predicates. -/
def hasPair (p q : Char → Bool) : List Char → Bool
  | a :: b :: cs => (p a && q b) || hasPair p q (b :: cs)
  | _ => false

/-- Whether a text can be written as it is, in single quotes. -/
def allowsSingle (cs : List Char) : Bool :=
  cs.all (fun c => c = '\n' || (' ' ≤ c && c ≤ '~')) &&
    !hasPair isTextBreak (· = ' ') cs && !hasPair (· = ' ') isTextBreak cs

/-- Whether a text can be plain. -/
def allowsPlain (s : String) : Bool :=
  let cs := s.toList
  let edge (c : Option Char) : Bool := c.any (· = ' ')
  Tag.ofPlain s = .text && allowsSingle cs && !cs.any isTextBreak && !edge cs.head? && !edge cs.getLast? &&
    !hasIndicator true true cs && !(["---", "..."].contains (.ofList (cs.take 3)))

/-- The style of a text. A key must stay in its line. -/
def Style.ofText (s : String) (key : Bool) : Style :=
  if allowsPlain s then .plain
  else if allowsSingle s.toList && !(key && s.toList.any isTextBreak) then .single
  else .double

/-! ## Texts -/

/-- Runs of blanks, runs of line breaks, and what is between them. -/
def runs : List Char → List (List Char)
  | [] => []
  | c :: cs =>
    match runs cs with
    | (d :: ds) :: rest =>
      if (c = ' ') = (d = ' ') ∧ isTextBreak c = isTextBreak d then (c :: d :: ds) :: rest
      else [c] :: (d :: ds) :: rest
    | rest => [c] :: rest

/-- Writes a run of blanks; a single one may become a line break. -/
def writeBlanks (indent : Nat) (split : Bool) (run : List Char) (p : Page) : Page :=
  if run.length = 1 && lineWidth < p.column && split then p.indentTo indent else p.write (.ofList run)

/-- Writes a run of line breaks. The first line feed is doubled, since a single one would be folded. -/
def writeBreaks (indent : Nat) (run : List Char) (p : Page) : Page :=
  let p := if run.head? = some '\n' then p.endLine '\n' else p
  (run.foldl (fun p c => p.endLine c) p).indentTo indent

def writePlain (s : String) (indent : Nat) (split : Bool) (p : Page) : Page :=
  let p := if p.blank then p else p.write " "
  (runs s.toList).foldl (fun p run =>
    if run.head? = some ' ' then (writeBlanks indent split run p).inText else p.write (.ofList run)) p.inText

/-- Writes the runs of a text in single quotes, of which the first and the last are not broken. -/
def writeSingleRuns (indent : Nat) (split : Bool) : (first : Bool) → List (List Char) → Page → Page
  | _, [], p => p
  | first, run :: rest, p =>
    let p := match run.head? with
      | some ' ' => writeBlanks indent (split && !first && !rest.isEmpty) run p
      | some c =>
        if isTextBreak c then writeBreaks indent run p
        else p.write (.ofList (run.flatMap fun c => if c = '\'' then ['\'', '\''] else [c]))
      | none => p
    writeSingleRuns indent split false rest p

def writeSingle (s : String) (indent : Nat) (split : Bool) (p : Page) : Page :=
  (writeSingleRuns indent split true (runs s.toList) (p.mark "'" true)).mark "'" false

/-- The letter behind the backslash for a character, if it has one. -/
def escapeLetter? : Char → Option Char
  | '\x00' => some '0'
  | '\x07' => some 'a'
  | '\x08' => some 'b'
  | '\t' => some 't'
  | '\n' => some 'n'
  | '\x0b' => some 'v'
  | '\x0c' => some 'f'
  | '\r' => some 'r'
  | '\x1b' => some 'e'
  | '"' => some '"'
  | '\\' => some '\\'
  | '\x85' => some 'N'
  | '\xa0' => some '_'
  | '\u2028' => some 'L'
  | '\u2029' => some 'P'
  | _ => none

/-- The escape of a character that cannot stand in double quotes. -/
def escape? (c : Char) : Option String :=
  let code (letter : Char) (width : Nat) : String :=
    (String.ofList ('\\' :: letter :: Text.hexadecimal width c.toNat)).map fun d =>
      if d = letter then d else d.toUpper
  match escapeLetter? c with
  | some letter => some (.ofList ['\\', letter])
  | none =>
    if ' ' ≤ c && c ≤ '~' then none
    else some (if c.toNat < 256 then code 'x' 2 else if c.toNat < 65536 then code 'u' 4 else code 'U' 8)

/-- Breaks a line in double quotes; a blank that follows is escaped. -/
def breakDouble (indent : Nat) (following : Option Char) (p : Page) : Page :=
  let p := ((p.write "\\").indentTo indent).inText
  if following = some ' ' then p.write "\\" else p

/-- Writes characters in double quotes. `afterEscape` says whether an escape or the start of a line precedes. Lines are
broken before blanks, and around escapes, but not at the ends of the text. -/
def writeDoubleChars (indent : Nat) (split : Bool) : (first afterEscape : Bool) → List Char → Page → Page
  | _, _, [], p => p
  | first, afterEscape, c :: cs, p =>
    let inside := split && !first && !cs.isEmpty
    match escape? c with
    | some e =>
      let p := p.write e
      let p := if inside && lineWidth + 1 < p.column then breakDouble indent cs.head? p else p
      writeDoubleChars indent split false true cs p
    | none =>
      let p := if inside && (c = ' ' || afterEscape) && lineWidth < p.column then breakDouble indent (some c) p
        else p
      writeDoubleChars indent split false false cs (p.write (.singleton c))

def writeDouble (s : String) (indent : Nat) (split : Bool) (p : Page) : Page :=
  (writeDoubleChars indent split true false s.toList (p.mark "\"" true)).mark "\"" false

/-- Writes a text in its style. -/
def writeText (s : String) (indent : Nat) (key : Bool) (p : Page) : Page :=
  match Style.ofText s key with
  | .plain => writePlain s indent (!key) p
  | .single => writeSingle s indent (!key) p
  | .double => writeDouble s indent (!key) p

/-! ## Values -/

variable {K : Type} [RealText K]

/-- The text of a real number, with a point. -/
def realText (x : K) : String :=
  if RealText.isNan x then ".nan"
  else if RealText.isInfinite x then if Scalar.lt x 0 then "-.inf" else ".inf"
  else
    let s := RealText.write x
    if s.toList.contains '.' || !s.toList.contains 'e' then s
    else (s.splitOn "e").head! ++ ".0e" ++ Text.joined "e" (s.splitOn "e").tail

/-- The plain text of a value that is neither a text nor a collection. -/
def atomText : Value K → String
  | .null => "null"
  | .bool b => if b then "true" else "false"
  | .real x => realText x
  | v => v.plain

mutual

/-- The value with the entries of its maps in the order of their keys. -/
def sorted : Value K → Value K
  | .list items => .list (sortedItems items)
  | .map entries => .map ((sortedEntries entries).mergeSort fun d e => decide (d.1.plain ≤ e.1.plain))
  | v => v

def sortedItems : List (Value K) → List (Value K)
  | [] => []
  | v :: vs => sorted v :: sortedItems vs

def sortedEntries : List (Value K × Value K) → List (Value K × Value K)
  | [] => []
  | (k, v) :: es => (k, sorted v) :: sortedEntries es

end

/-- Whether a key can be written in front of its colon. -/
def isSimpleKey (s : String) : Bool :=
  !s.isEmpty && s.length + 5 < 128 && !s.toList.any isTextBreak

mutual

/-- Writes a value in a block at a column, at the outermost level if there is none. `inMap` says whether it stands
behind a key: a list there need not be indented. -/
def writeValue (column : Option Nat) (inMap : Bool) : Value K → Page → Page
  | .text s, p => writeText s ((column.map (· + 2)).getD 2) false p
  | .list [], p => (p.mark "[" true).mark "]" false
  | .list items, p =>
    let column := match column with
      | none => 0
      | some c => if inMap && !p.indented then c else c + 2
    writeItems column items p
  | .map [], p => (p.mark "\x7b" true).mark "\x7d" false
  | .map entries, p => writeEntries ((column.map (· + 2)).getD 0) entries p
  | v, p => writePlain (atomText v) ((column.map (· + 2)).getD 2) true p

def writeItems (column : Nat) : List (Value K) → Page → Page
  | [], p => p
  | v :: vs, p =>
    writeItems column vs (writeValue (some column) false v ((p.indentTo column).blockMark "-"))

def writeEntries (column : Nat) : List (Value K × Value K) → Page → Page
  | [], p => p
  | (k, v) :: es, p =>
    let key := k.plain
    let p := p.indentTo column
    let p :=
      if isSimpleKey key then (writeText key (column + 2) true p).mark ":" false
      else
        let p := writeText key (column + 2) false (p.blockMark "?")
        (p.indentTo column).blockMark ":"
    writeEntries column es (writeValue (some column) true v p)

end

/-- Whether the end of a document must be marked, since a plain text could go on. -/
def isOpen : Value K → Bool
  | .text s => Style.ofText s false = .plain
  | .list _ => false
  | .map _ => false
  | _ => true

end Yaml

/-- The document of a value. -/
def Value.toYaml {K : Type} [RealText K] (v : Value K) : String :=
  let p := (Yaml.writeValue none false (Yaml.sorted v) Yaml.Page.empty).indentTo 0
  if Yaml.isOpen v then p.text ++ "...\n" else p.text

end Magnetofluid
