import Magnetofluid.Yaml.Token

/-!
# From text to tokens

The lexer appends tokens and never takes one back. Where something begins that may turn out to be the key of a
mapping it appends a slot that is settled later: a key is what is followed by a colon in the same line within 1024
characters. `Token.ofText` settles all slots and returns the tokens. Where an escape names no character it returns those
that stand before it and were settled by then, and says so after them, since it matters only if they are not at fault
themselves.
-/

namespace Magnetofluid.Yaml

/-- A token, or a place where a key may begin. -/
inductive Slot
  | token (t : Token)
  | possibleKey
  /-- A key, which may open a block mapping. -/
  | key (opens : Bool)
deriving DecidableEq, Repr

def Slot.tokens : Slot → List Token
  | token t => [t]
  | possibleKey => []
  | key false => [.key]
  | key true => [.blockMappingStart, .key]

/-- A possible key: the depth of flow collections around it, its slot and its place. A required one must turn out to
be a key. -/
structure PossibleKey where
  depth : Nat
  slot : Nat
  required : Bool
  index : Nat
  line : Nat
  column : Nat

structure Lexer where
  cursor : Cursor
  /-- How many flow collections are open. -/
  depth : Nat
  /-- The column of the innermost block collection, or `-1`. -/
  indent : Int
  /-- The columns of the block collections around it. -/
  outer : List Int
  /-- Whether a key may begin here. -/
  keyAllowed : Bool
  keys : List PossibleKey
  slots : Array Slot

namespace Lexer

def ofText (s : String) : Lexer := ⟨.ofText s, 0, -1, [], true, [], #[]⟩

def push (l : Lexer) (t : Token) : Lexer := { l with slots := l.slots.push (.token t) }

/-- Appends a token of `k` characters. -/
def mark (l : Lexer) (k : Nat) (t : Token) : Lexer := { l.push t with cursor := l.cursor.skip k }

/-- The possible key at the current depth. -/
def key? (l : Lexer) : Option PossibleKey := l.keys.find? (·.depth = l.depth)

/-- Gives up the possible key at the current depth. -/
def dropKey (l : Lexer) : Read Lexer :=
  match l.key? with
  | none => .ok l
  | some k => if k.required then .fail else .ok { l with keys := l.keys.filter (·.depth ≠ l.depth) }

/-- Whether a possible key lies in an earlier line or too far back. -/
def isStale (l : Lexer) (k : PossibleKey) : Bool := k.line ≠ l.cursor.line || 1024 < l.cursor.index - k.index

/-- Gives up the possible keys that lie in an earlier line or too far back. -/
def dropStaleKeys (l : Lexer) : Read Lexer :=
  if l.keys.any fun k => l.isStale k && k.required then .fail
  else .ok { l with keys := l.keys.filter fun k => !l.isStale k }

/-- Notes that a key may begin here. -/
def saveKey (l : Lexer) : Read Lexer := do
  if !l.keyAllowed then return l
  else
    let required := l.depth = 0 && l.indent = l.cursor.column
    let l ← l.dropKey
    let k : PossibleKey :=
      ⟨l.depth, l.slots.size, required, l.cursor.index, l.cursor.line, l.cursor.column⟩
    return { l with keys := k :: l.keys, slots := l.slots.push .possibleKey }

/-- Closes the block collections that lie to the right of a column. -/
def unwind (column : Int) (l : Lexer) : Lexer :=
  if l.depth ≠ 0 then l else close l.outer l
where
  close : List Int → Lexer → Lexer
    | [], l => l
    | o :: outer, l =>
      if column < l.indent then close outer { l.push .blockEnd with indent := o, outer }
      else l

/-- Opens a block collection at a column, unless one is open there. -/
def openBlock (column : Nat) (l : Lexer) : Bool × Lexer :=
  if l.indent < column then (true, { l with indent := column, outer := l.indent :: l.outer })
  else (false, l)

/-- Skips blanks, comments and line breaks. After a line break outside of flow collections a key may begin. -/
def skipToToken : (fuel : Nat) → Lexer → Lexer
  | 0, l => l
  | fuel + 1, l =>
    let c := l.cursor.skipBlanks.skipComment
    match c.takeBreak? with
    | none => { l with cursor := c }
    | some (_, c) =>
      skipToToken fuel { l with cursor := c, keyAllowed := l.depth = 0 || l.keyAllowed }

/-! ## Marks -/

def documentMark (t : Token) (l : Lexer) : Read Lexer := do
  let l ← (l.unwind (-1)).dropKey
  return { l.mark 3 t with keyAllowed := false }

def directive (l : Lexer) : Read Lexer := do
  let l ← (l.unwind (-1)).dropKey
  let (t, cursor) ← Token.readDirective l.cursor
  return { l.push t with cursor, keyAllowed := false }

def flowStart (t : Token) (l : Lexer) : Read Lexer := do
  let l ← l.saveKey
  return { l.mark 1 t with depth := l.depth + 1, keyAllowed := true }

def flowEnd (t : Token) (l : Lexer) : Read Lexer := do
  let l ← l.dropKey
  if l.depth = 0 then .fail
  else return { l.mark 1 t with depth := l.depth - 1, keyAllowed := false }

def flowEntry (l : Lexer) : Read Lexer := do
  let l ← l.dropKey
  return { l.mark 1 .flowEntry with keyAllowed := true }

/-- Opens a block collection for a mark that needs one, outside of flow collections. -/
def openFor (t : Token) (l : Lexer) : Read Lexer :=
  if l.depth ≠ 0 then .ok l
  else if !l.keyAllowed then .fail
  else match l.openBlock l.cursor.column with
    | (true, l) => .ok (l.push t)
    | (false, l) => .ok l

def blockEntry (l : Lexer) : Read Lexer := do
  let l ← (← l.openFor .blockSequenceStart).dropKey
  return { l.mark 1 .blockEntry with keyAllowed := true }

def complexKey (l : Lexer) : Read Lexer := do
  let l ← (← l.openFor .blockMappingStart).dropKey
  return { l.mark 1 .key with keyAllowed := l.depth = 0 }

/-- A colon: it settles the possible key before it, or stands by itself. -/
def value (l : Lexer) : Read Lexer := do
  match l.key? with
  | some k =>
    let l := { l with keys := l.keys.filter (·.depth ≠ l.depth) }
    let (opens, l) := if l.depth = 0 then l.openBlock k.column else (false, l)
    let l := { l with slots := l.slots.setIfInBounds k.slot (.key opens) }
    return { l.mark 1 .value with keyAllowed := false }
  | none =>
    let l ← l.openFor .blockMappingStart
    return { l.mark 1 .value with keyAllowed := l.depth = 0 }

/-! ## Names and scalars -/

def name (t : String → Token) (l : Lexer) : Read Lexer := do
  let l ← l.saveKey
  let (s, cursor) ← Token.readName l.cursor
  return { l.push (t s) with cursor, keyAllowed := false }

def tag (l : Lexer) : Read Lexer := do
  let l ← l.saveKey
  let (t, cursor) ← Token.readTag l.cursor
  return { l.push t with cursor, keyAllowed := false }

def blockScalar (fold : Bool) (l : Lexer) : Read Lexer := do
  let l ← l.dropKey
  let (s, cursor) ← Scalar.block fold l.indent l.cursor
  return { l.push (.scalar s false) with cursor, keyAllowed := true }

def quotedScalar (double : Bool) (l : Lexer) : Read Lexer := do
  let l ← l.saveKey
  let (s, cursor) ← Scalar.quoted double l.cursor
  return { l.push (.scalar s false) with cursor, keyAllowed := false }

def plainScalar (l : Lexer) : Read Lexer := do
  let l ← l.saveKey
  let p := Scalar.plain (l.depth ≠ 0) (l.indent + 1) l.cursor
  return { l.push (.scalar (.ofList p.text) true) with cursor := p.cursor, keyAllowed := p.broken }

/-- Whether a plain scalar may begin with a character, given the one after it. -/
def startsPlain (l : Lexer) (c : Char) (ahead : Option Char) : Bool :=
  !(endsItem (some c) || "-?:,[]\x7b\x7d#&*!|>'\"%@`".toList.contains c) ||
    (!endsItem ahead && (c = '-' || (l.depth = 0 && (c = '?' || c = ':'))))

/-! ## All tokens -/

/-- Appends what begins with a character. -/
def readFrom (l : Lexer) (ch : Char) : Read Lexer :=
  let ahead := l.cursor.peekAt 1
  let atStart := l.cursor.column = 0
  -- in flow collections the marks of keys and values may touch what follows them
  let alone := l.depth ≠ 0 || endsItem ahead
  match ch with
  | '%' => if atStart then l.directive else .fail
  | '[' => l.flowStart .flowSequenceStart
  | '\x7b' => l.flowStart .flowMappingStart
  | ']' => l.flowEnd .flowSequenceEnd
  | '\x7d' => l.flowEnd .flowMappingEnd
  | ',' => l.flowEntry
  | '*' => l.name .reference
  | '&' => l.name .anchor
  | '!' => l.tag
  | '\'' => l.quotedScalar false
  | '"' => l.quotedScalar true
  | '|' => if l.depth = 0 then l.blockScalar false else .fail
  | '>' => if l.depth = 0 then l.blockScalar true else .fail
  | '-' =>
    if atStart && l.cursor.atSeparator '-' then l.documentMark .documentStart
    else if endsItem ahead then l.blockEntry
    else l.plainScalar
  | '.' =>
    if atStart && l.cursor.atSeparator '.' then l.documentMark .documentEnd else l.plainScalar
  | '?' => if alone then l.complexKey else l.plainScalar
  | ':' => if alone then l.value else l.plainScalar
  | c => if l.startsPlain c ahead then l.plainScalar else .fail

/-- The slots before the first that may still become a key, and the end of reading after them. -/
def stopHere (l : Lexer) : Lexer :=
  let settled := ((l.keys.filter fun k => !l.isStale k).map (·.slot)).foldl min l.slots.size
  { l with slots := (l.slots.extract 0 settled).push (.token .badEscape) }

/-- Appends the tokens that begin at the next character; the answer says whether there was one. -/
def readNext (l : Lexer) : Read (Bool × Lexer) := do
  let l ← (skipToToken (l.cursor.rest.length + 1) l).dropStaleKeys
  let l := l.unwind l.cursor.column
  match l.cursor.peek with
  | none => return (false, ← (l.unwind (-1)).dropKey)
  | some ch => return (true, ← l.readFrom ch)

/-- Appends all tokens up to the end of the text or to an escape that names no character. Each step takes at least one
character. -/
def readAll : (fuel : Nat) → Lexer → Read Lexer
  | 0, _ => .fail
  | fuel + 1, l =>
    match l.readNext with
    | .error .codePoint => .ok l.stopHere
    | .error .malformed => .fail
    | .ok (false, l) => .ok l
    | .ok (true, l) => readAll fuel l

end Lexer

/-- The text without the byte order mark that it may begin with. -/
def withoutMark (c : Cursor) : Cursor := if c.peek = some '\ufeff' then c.next else c

def Token.ofText (s : String) : Read (List Token) := do
  if !s.toList.all isPrintable then .fail
  else
    let l := Lexer.ofText s
    let l ← { l with cursor := withoutMark l.cursor }.readAll (s.length + 1)
    return l.slots.toList.flatMap Slot.tokens

end Magnetofluid.Yaml
