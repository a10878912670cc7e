import Magnetofluid.Text.Character
import Magnetofluid.Yaml.Cursor

/-!
# Scalars of a document

The four ways to write a text: plain, in single or double quotes, and in a block of its own. Each reader starts at the
scalar and returns its text and the place after it. Line breaks inside a plain or quoted scalar are folded: a single
one becomes a blank, and of several the first is dropped.
-/

namespace Magnetofluid.Yaml

/-- What keeps a scalar from being read. -/
inductive Fault
  | malformed
  /-- An escape that names no character. -/
  | codePoint
deriving DecidableEq, Repr

/-- The outcome of reading a part of a document. -/
abbrev Read (α : Type) := Except Fault α

namespace Read

def fail {α : Type} : Read α := .error .malformed

def ofOption {α : Type} (x : Option α) : Read α := x.elim fail .ok

end Read

namespace Scalar

/-- The breaks after the first one, folded. -/
def folded (first : Char) (more : List Char) : List Char :=
  if first ≠ '\n' then first :: more else if more.isEmpty then [' '] else more

/-! ## Plain scalars -/

/-- Whether a plain scalar stops at a character, given the one after it. -/
def stopsPlain (flow : Bool) (c : Char) (ahead : Option Char) : Bool :=
  endsItem (some c) ||
    (c = ':' && (endsItem ahead || (flow && ahead.any (",[]\x7b\x7d".toList.contains ·)))) ||
    (flow && ",?[]\x7b\x7d".toList.contains c)

/-- A part of a plain scalar without blanks. -/
def plainWord (flow : Bool) : List Char → List Char
  | [] => []
  | c :: rest => if stopsPlain flow c rest.head? then [] else c :: plainWord flow rest

/-- The blanks between two parts of a plain scalar. -/
structure Gap where
  /-- What the blanks stand for; nothing if the scalar ends here. -/
  text : List Char
  cursor : Cursor
  /-- Whether the next part begins a line. -/
  broken : Bool

/-- Further line breaks and indentation after the first break, or nothing at an edge of the document. -/
def plainBreaks : (fuel : Nat) → Cursor → Option (List Char) × Cursor
  | 0, c => (some [], c)
  | fuel + 1, c =>
    if c.peek = some ' ' then plainBreaks fuel c.next
    else match c.takeBreak? with
      | none => (some [], c)
      | some (b, c) =>
        if c.atDocumentEdge then (none, c)
        else
          let (bs, c) := plainBreaks fuel c
          (bs.map (b :: ·), c)

/-- The gap at a place. -/
def gap (c : Cursor) : Gap :=
  let (blanks, c) := c.span (· = ' ')
  match c.takeBreak? with
  | none => ⟨blanks, c, false⟩
  | some (first, c) =>
    if c.atDocumentEdge then ⟨[], c, true⟩
    else
      let (more, c) := plainBreaks c.rest.length c
      ⟨(more.map (folded first)).getD [], c, true⟩

/-- A scalar that was read. -/
structure Plain where
  text : List Char
  cursor : Cursor
  /-- Whether it ended with a line. -/
  broken : Bool

/-- The parts of a plain scalar after those that were read and the gap behind them. A scalar goes on in the next line if
that is indented by `indent`. -/
def plainParts (flow : Bool) (indent : Int) : (fuel : Nat) → (gap : List Char) → Plain → Plain
  | 0, _, done => done
  | fuel + 1, blanks, done =>
    let word := plainWord flow done.cursor.rest
    if done.cursor.peek = some '#' || word.isEmpty then done
    else
      let g := gap (done.cursor.skip word.length)
      let done : Plain := ⟨done.text ++ blanks ++ word, g.cursor, g.broken⟩
      if g.text.isEmpty || g.cursor.peek = some '#' || (!flow && g.cursor.column < indent) then done
      else plainParts flow indent fuel g.text done

def plain (flow : Bool) (indent : Int) (c : Cursor) : Plain :=
  plainParts flow indent (c.rest.length + 1) [] ⟨[], c, false⟩

/-! ## Quoted scalars -/

/-- The line breaks after the first one in a quoted scalar. -/
def quotedBreaks : (fuel : Nat) → Cursor → Read (List Char × Cursor)
  | 0, _ => .fail
  | fuel + 1, c => do
    if c.atDocumentEdge then .fail
    else
      let c := c.skipWhile fun ch => ch = ' ' || ch = '\t'
      match c.takeBreak? with
      | none => return ([], c)
      | some (b, c) =>
        let (bs, c) ← quotedBreaks fuel c
        return (b :: bs, c)

/-- The blanks of a quoted scalar. -/
def quotedSpaces (c : Cursor) : Read (List Char × Cursor) := do
  let (blanks, c) := c.span fun ch => ch = ' ' || ch = '\t'
  if c.peek.isNone then .fail
  else match c.takeBreak? with
    | none => return (blanks, c)
    | some (first, c) =>
      let (more, c) ← quotedBreaks (c.rest.length + 1) c
      return (folded first more, c)

/-- The character that a letter stands for after a backslash. -/
def escaped? : Char → Option Char
  | '0' => some '\x00'
  | 'a' => some '\x07'
  | 'b' => some '\x08'
  | 't' | '\t' => some '\t'
  | 'n' => some '\n'
  | 'v' => some '\x0b'
  | 'f' => some '\x0c'
  | 'r' => some '\r'
  | 'e' => some '\x1b'
  | ' ' => some ' '
  | '"' => some '"'
  | '\\' => some '\\'
  | '/' => some '/'
  | 'N' => some '\x85'
  | '_' => some '\xa0'
  | 'L' => some '\u2028'
  | 'P' => some '\u2029'
  | _ => none

/-- The number of hexadecimal digits after a letter. -/
def escapeWidth? : Char → Option Nat
  | 'x' => some 2
  | 'u' => some 4
  | 'U' => some 8
  | _ => none

/-- The value of hexadecimal digits. -/
def hexadecimal? (cs : List Char) : Option Nat :=
  cs.foldlM (fun n c => (Text.hexDigit? c).map (16 * n + ·)) 0

/-- An escape; the cursor is behind the backslash. -/
def escape (c : Cursor) : Read (List Char × Cursor) := do
  let some ch := c.peek | .fail
  match escaped? ch, escapeWidth? ch with
  | some e, _ => return ([e], c.next)
  | none, some width =>
    let digits := c.next.rest.take width
    let some code := hexadecimal? digits | .fail
    if digits.length < width then .fail
    else if code.isValidChar then return ([Char.ofNat code], c.skip (width + 1))
    else .error .codePoint
  | none, none =>
    match c.takeBreak? with
    | none => .fail
    | some (_, c) => quotedBreaks (c.rest.length + 1) c

/-- The text up to the closing quote, and the place after it. -/
def quotedText (double : Bool) : (fuel : Nat) → Cursor → Read (List Char × Cursor)
  | 0, _ => .fail
  | fuel + 1, c => do
    let more (text : List Char) (c : Cursor) : Read (List Char × Cursor) := do
      let (rest, c) ← quotedText double fuel c
      return (text ++ rest, c)
    match c.rest with
    | [] => .fail
    | ch :: rest =>
      if ch = ' ' || ch = '\t' || isBreak ch then
        let (blanks, c) ← quotedSpaces c
        more blanks c
      else if double && ch = '\\' then
        let (text, c) ← escape c.next
        more text c
      else if double && ch = '"' then return ([], c.next)
      else if !double && ch = '\'' then
        if rest.head? = some '\'' then more ['\''] (c.skip 2) else return ([], c.next)
      else more [ch] c.next

def quoted (double : Bool) (c : Cursor) : Read (String × Cursor) := do
  let (text, c) ← quotedText double (c.rest.length + 1) c.next
  return (.ofList text, c)

/-! ## Block scalars -/

/-- What becomes of the line breaks at the end of a block scalar. -/
inductive Chomping
  | clip
  | strip
  | keep
deriving DecidableEq, Repr

/-- The header of a block scalar: how its end is treated, and its indentation if that is given. -/
structure Header where
  chomping : Chomping
  indentation : Option Nat

def chomping? : Char → Option Chomping
  | '+' => some .keep
  | '-' => some .strip
  | _ => none

def indentation? (c : Char) : Option Nat :=
  if c.isDigit && c ≠ '0' then some (c.toNat - '0'.toNat) else none

def header (c : Cursor) : Read (Header × Cursor) := do
  let (indicators, c) := c.span fun ch => ch = '+' || ch = '-' || ch.isDigit
  let h : Header ← match indicators with
    | [] => pure ⟨.clip, none⟩
    | [a] =>
      match chomping? a, indentation? a with
      | some k, _ => pure ⟨k, none⟩
      | none, some n => pure ⟨.clip, some n⟩
      | none, none => .fail
    | [a, b] =>
      match chomping? a, indentation? b, indentation? a, chomping? b with
      | some k, some n, _, _ => pure ⟨k, some n⟩
      | _, _, some n, some k => pure ⟨k, some n⟩
      | _, _, _, _ => .fail
    | _ => .fail
  if !endsWord c.peek then .fail
  else return (h, ← Read.ofOption c.skipIgnored?)

/-- The leading empty lines of a block scalar and the largest column that their blanks reach. -/
def blockStart : (fuel : Nat) → Cursor → (widest : Nat) → List Char × Nat × Cursor
  | 0, c, widest => ([], widest, c)
  | fuel + 1, c, widest =>
    if c.peek = some ' ' then blockStart fuel c.next (max widest (c.column + 1))
    else match c.takeBreak? with
      | none => ([], widest, c)
      | some (b, c) =>
        let (bs, widest, c) := blockStart fuel c widest
        (b :: bs, widest, c)

/-- The place after the indentation of a line, as far as it goes. -/
def skipIndent (indent : Nat) (c : Cursor) : Cursor :=
  c.skip ((c.rest.take (indent - c.column)).takeWhile (· = ' ')).length

/-- The empty lines before a line of a block scalar. -/
def blockBreaks (indent : Nat) : (fuel : Nat) → Cursor → List Char × Cursor
  | 0, c => ([], c)
  | fuel + 1, c =>
    let c := skipIndent indent c
    match c.takeBreak? with
    | none => ([], c)
    | some (b, c) =>
      let (bs, c) := blockBreaks indent fuel c
      (b :: bs, c)

/-- Whether a character keeps the break beside it from being folded. -/
def isSpace (c : Option Char) : Bool := c.any fun c => c = ' ' || c = '\t'

/-- The lines of a block scalar from a place on, where the given empty lines precede. -/
def blockLines (fold : Bool) (chomping : Chomping) (indent : Nat) :
    (fuel : Nat) → (breaks : List Char) → (last : List Char) → Cursor → List Char × Cursor
  | 0, _, _, c => ([], c)
  | fuel + 1, breaks, last, c =>
    if c.column = indent && c.peek.isSome then
      let spaced := isSpace c.peek
      let (line, c) := c.span (!isBreak ·)
      let (last, c) := match c.takeBreak? with
        | none => ([], c)
        | some (b, c) => ([b], c)
      let (next, c) := blockBreaks indent (c.rest.length + 1) c
      let joint :=
        if c.column = indent && c.peek.isSome then
          -- one break between two lines folds into a blank, more of them lose the first
          if fold && last = ['\n'] && !spaced && !isSpace c.peek then
            if next.isEmpty then [' '] else []
          else last
        else []
      let (rest, c) := blockLines fold chomping indent fuel next last c
      (breaks ++ line ++ joint ++ rest, c)
    else
      let tail := match chomping with
        | .clip => last
        | .strip => []
        | .keep => last ++ breaks
      (tail, c)

def block (fold : Bool) (parent : Int) (c : Cursor) : Read (String × Cursor) := do
  let (h, c) ← header c.next
  let least := (max (parent + 1) 1).toNat
  let (indent, breaks, c) := match h.indentation with
    | none =>
      let (breaks, widest, c) := blockStart (c.rest.length + 1) c 0
      (max least widest, breaks, c)
    | some n =>
      let indent := least + n - 1
      let (breaks, c) := blockBreaks indent (c.rest.length + 1) c
      (indent, breaks, c)
  let (text, c) := blockLines fold h.chomping indent (c.rest.length + 1) breaks [] c
  return (.ofList text, c)

end Scalar

end Magnetofluid.Yaml
