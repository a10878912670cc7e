import Magnetofluid.Yaml.Scalar

/-!
# Tokens of a document

The tokens that a document is made of, and the readers of the tokens that are neither marks nor scalars: directives,
anchors and tags.
-/

namespace Magnetofluid.Yaml

inductive Directive
  | version (major minor : Nat)
  /-- What a tag handle stands for. -/
  | handle (name expansion : String)
  | other
deriving DecidableEq, Repr

inductive Token
  | directive (d : Directive)
  | documentStart
  | documentEnd
  | blockSequenceStart
  | blockMappingStart
  | blockEnd
  | flowSequenceStart
  | flowSequenceEnd
  | flowMappingStart
  | flowMappingEnd
  | blockEntry
  | flowEntry
  | key
  | value
  | reference (name : String)
  | anchor (name : String)
  | tag (handle : Option String) (suffix : String)
  | scalar (text : String) (plain : Bool)
  /-- Where reading ends, since an escape names no character. -/
  | badEscape
deriving DecidableEq, Repr

namespace Token

/-- The name behind the mark of an anchor or a reference. -/
def readName (c : Cursor) : Read (String × Cursor) := do
  let (name, c) := c.next.span isNameChar
  if name.isEmpty then .fail
  else if endsItem c.peek || c.peek.any ("?:,]\x7d%@`".toList.contains ·) then return (.ofList name, c)
  else .fail

/-! ## Tags -/

/-- Whether a character may stand in a tag. -/
def isTagChar (c : Char) : Bool :=
  c.isAlphanum || "-;/?:@&=+$,_.!~*'()[]%".toList.contains c

/-- The text of bytes. -/
def decode? (bytes : List Nat) : Option (List Char) :=
  (String.fromUTF8? ⟨(bytes.map fun b => b.toUInt8).toArray⟩).map String.toList

/-- The bytes of a run of escapes, and what follows it. -/
def escapedBytes : List Char → Read (List Nat × List Char)
  | '%' :: a :: b :: rest => do
    let some code := Scalar.hexadecimal? [a, b] | .fail
    let (codes, rest) ← escapedBytes rest
    return (code :: codes, rest)
  | '%' :: _ => .fail
  | cs => return ([], cs)

/-- The characters that a tag stands for, with its escapes resolved. -/
def unescaped : (fuel : Nat) → List Char → Read (List Char)
  | 0, _ => .fail
  | _, [] => return []
  | fuel + 1, c :: cs => do
    if c = '%' then
      let (bytes, rest) ← escapedBytes (c :: cs)
      let some text := decode? bytes | .fail
      return text ++ (← unescaped fuel rest)
    else return c :: (← unescaped fuel cs)

/-- The text of a tag. -/
def readUri (c : Cursor) : Read (String × Cursor) := do
  let (chars, c) := c.span isTagChar
  if chars.isEmpty then .fail
  else return (.ofList (← unescaped (chars.length + 1) chars), c)

/-- A tag handle: an exclamation mark, or two with a name between them. -/
def readHandle (c : Cursor) : Read (String × Cursor) := do
  if c.peek ≠ some '!' then .fail
  else if c.peekAt 1 = some ' ' then return ("!", c.next)
  else
    let (name, c) := c.next.span isNameChar
    if c.peek = some '!' then return (.ofList ('!' :: name ++ ['!']), c.next) else .fail

def readTag (c : Cursor) : Read (Token × Cursor) := do
  let (handle, suffix, c) ←
    match c.peekAt 1 with
    | some '<' =>
      let (suffix, c) ← readUri (c.skip 2)
      if c.peek = some '>' then pure (none, suffix, c.next) else .fail
    | ahead =>
      if endsItem ahead then pure (none, "!", c.next)
      else if (c.next.rest.takeWhile fun ch => !endsWord (some ch)).contains '!' then
        let (handle, c) ← readHandle c
        let (suffix, c) ← readUri c
        pure (some handle, suffix, c)
      else
        let (suffix, c) ← readUri c.next
        pure (some "!", suffix, c)
  if endsWord c.peek then return (.tag handle suffix, c) else .fail

/-! ## Directives -/

/-- A number of a version. -/
def readNumber (c : Cursor) : Read (Nat × Cursor) := do
  let (digits, c) := c.span Char.isDigit
  if digits.isEmpty then .fail
  else return (digits.foldl (fun n d => 10 * n + (d.toNat - '0'.toNat)) 0, c)

def readDirective (c : Cursor) : Read (Token × Cursor) := do
  let (name, c) := c.next.span isNameChar
  if name.isEmpty || !endsWord c.peek then .fail
  else
    let (d, c) ← match String.ofList name with
      | "YAML" =>
        let (major, c) ← readNumber c.skipBlanks
        if c.peek ≠ some '.' then .fail
        else
          let (minor, c) ← readNumber c.next
          if endsWord c.peek then pure (Directive.version major minor, c) else .fail
      | "TAG" =>
        let (name, c) ← readHandle c.skipBlanks
        if c.peek ≠ some ' ' then .fail
        else
          let (expansion, c) ← readUri c.skipBlanks
          if endsWord c.peek then pure (.handle name expansion, c) else .fail
      | _ => pure (.other, c.skipLine)
    return (.directive d, ← Read.ofOption c.skipIgnored?)

end Token

end Magnetofluid.Yaml
