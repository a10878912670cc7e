import Magnetofluid.Yaml.Lexer
import Magnetofluid.Yaml.Tag

/-!
# From tokens to nodes

A document as a tree: scalars, sequences and mappings, each with its tag. References are replaced by what they refer
to; a reference inside of its own anchor becomes a node that holds the number of the sequence or mapping under that
anchor. `Document.ofTokens` accepts the tokens of at most one document.
-/

namespace Magnetofluid.Yaml

/-- A part of a document. Sequences and mappings are numbered; what a reference repeats keeps its number. -/
inductive Node
  | scalar (tag : Tag) (text : String)
  | sequence (number : Nat) (tag : Tag) (items : List Node)
  | mapping (number : Nat) (tag : Tag) (entries : List (Node × Node))
  /-- A reference to a sequence or a mapping around it, by its number. -/
  | cycle (number : Nat)

/-- A document: its outermost node, and by number the sequences and mappings that have an anchor. -/
structure Document where
  root : Node
  anchored : List (Nat × Node)

namespace Node

/-- The node of nothing. -/
def empty : Node := .scalar .null ""

/-- The number of a sequence or a mapping. -/
def number? : Node → Option Nat
  | scalar .. => none
  | sequence number .. => some number
  | mapping number .. => some number
  | cycle number => some number

/-- What an anchor stands for. -/
inductive Anchored
  | node (n : Node)
  /-- A sequence or a mapping that is still being read. -/
  | unfinished (number : Nat)

/-- The state of reading: the tokens that remain, the handles of tags and the anchors so far, the next number, and the
numbered nodes that have an anchor. -/
structure Parser where
  tokens : List Token
  handles : List (String × String)
  anchors : List (String × Anchored)
  next : Nat
  anchored : List (Nat × Node)

/-- A part of reading. -/
abbrev Parse := StateT Parser Read

def fail {α : Type} : Parse α := fun _ => .fail

def peek : Parse (Option Token) := do
  match (← get).tokens.head? with
  | some .badEscape => fun _ => .error .codePoint
  | t => return t

/-- A number that was not given before. -/
def fresh : Parse Nat := modifyGet fun p => (p.next, { p with next := p.next + 1 })

/-- Takes a token off. -/
def take : Parse Unit := modify fun p => { p with tokens := p.tokens.tail }

/-- Takes a token off if it is the given one. -/
def accept (t : Token) : Parse Bool := do
  if (← peek) = some t then
    take
    return true
  else return false

/-- Takes off the given token. -/
def expect (t : Token) : Parse Unit := do if !(← accept t) then fail

/-! ## Tags and anchors -/

/-- A tag as it is written out, if one is. -/
structure Properties where
  anchor : Option String
  tag : Option String

/-- The full text of a tag. -/
def fullTag (handle : Option String) (suffix : String) : Parse String := do
  match handle with
  | none => return suffix
  | some h =>
    match (← get).handles.find? (·.1 = h) with
    | some (_, expansion) => return expansion ++ suffix
    | none => fail

/-- Takes off an anchor and a tag, in any order. -/
def properties : (fuel : Nat) → Properties → Parse Properties
  | 0, p => return p
  | fuel + 1, p => do
    match ← peek, p.anchor, p.tag with
    | some (.anchor name), none, _ =>
      take
      properties fuel { p with anchor := some name }
    | some (.tag handle suffix), _, none =>
      take
      properties fuel { p with tag := some (← fullTag handle suffix) }
    | _, _, _ => return p

namespace Properties

/-- The tag if it says anything. -/
def uri? (p : Properties) : Option String := p.tag.filter (· ≠ "!")

/-- The tag of a collection that is of the given kind unless another is written. -/
def tagOr (p : Properties) (kind : Tag) : Tag := (p.uri?.map Tag.ofUri).getD kind

/-- The tag of a scalar. One that is plain, or marked as if it were, goes by its text. -/
def tagOfScalar (p : Properties) (text : String) (plain : Bool) : Tag :=
  match p.uri? with
  | some uri => Tag.ofUri uri
  | none => if plain || p.tag.isSome then Tag.ofPlain text else .text

end Properties

/-- Sets what the anchor of a node stands for. -/
def setAnchor (p : Properties) (a : Anchored) : Parse Unit :=
  match p.anchor with
  | none => pure ()
  | some name => modify fun s => { s with anchors := (name, a) :: s.anchors }

/-- A finished node under its anchor. -/
def anchored (p : Properties) (n : Node) : Parse Node := do
  setAnchor p (.node n)
  if let (some _, some number) := (p.anchor, n.number?) then
    modify fun s => { s with anchored := (number, n) :: s.anchored }
  return n

/-- What a reference refers to. -/
def refer (name : String) : Parse Node := do
  match (← get).anchors.find? (·.1 = name) with
  | some (_, .node n) => return n
  | some (_, .unfinished number) => return .cycle number
  | none => fail

/-! ## Nodes -/

/-- Whether the next token is one of the given; the end counts as one. -/
def ahead (ts : List Token) : Parse Bool := return (← peek).all ts.contains

mutual

def node : (fuel : Nat) → (block indentless : Bool) → Parse Node
  | 0, _, _ => fail
  | fuel + 1, block, indentless => do
    if let some (.reference name) ← peek then
      take
      refer name
    else
      let p ← properties 2 ⟨none, none⟩
      let known := (← get).anchors
      if p.anchor.any fun a => known.any (·.1 = a) then fail
      -- the anchor is set before the items are read, so that an item can refer to what it is in
      let sequence (items : Parse (List Node)) : Parse Node := do
        let number ← fresh
        setAnchor p (.unfinished number)
        anchored p (.sequence number (p.tagOr .sequence) (← items))
      let mapping (entries : Parse (List (Node × Node))) : Parse Node := do
        let number ← fresh
        setAnchor p (.unfinished number)
        anchored p (.mapping number (p.tagOr .mapping) (← entries))
      match ← peek with
      | some .blockEntry =>
        if indentless then sequence (indentlessItems fuel) else leaf p
      | some (.scalar text plain) =>
        take
        anchored p (.scalar (p.tagOfScalar text plain) text)
      | some .flowSequenceStart =>
        take
        sequence (flowItems fuel true)
      | some .flowMappingStart =>
        take
        mapping (flowEntries fuel true)
      | some .blockSequenceStart =>
        if block then
          take
          sequence (blockItems fuel)
        else leaf p
      | some .blockMappingStart =>
        if block then
          take
          mapping (blockEntries fuel)
        else leaf p
      | _ => leaf p
where
  /-- A node that consists of an anchor or a tag alone. -/
  leaf (p : Properties) : Parse Node :=
    if p.anchor.isNone && p.tag.isNone then fail
    else anchored p (.scalar (p.tagOfScalar "" true) "")

def blockItems : (fuel : Nat) → Parse (List Node)
  | 0 => fail
  | fuel + 1 => do
    if ← accept .blockEntry then
      let item ← if ← ahead [.blockEntry, .blockEnd] then pure empty else node fuel true false
      return item :: (← blockItems fuel)
    else
      expect .blockEnd
      return []

/-- The items of a sequence in a mapping that is not indented further. -/
def indentlessItems : (fuel : Nat) → Parse (List Node)
  | 0 => fail
  | fuel + 1 => do
    if ← accept .blockEntry then
      let item ← if ← ahead [.blockEntry, .key, .value, .blockEnd] then pure empty
        else node fuel true false
      return item :: (← indentlessItems fuel)
    else return []

def blockEntries : (fuel : Nat) → Parse (List (Node × Node))
  | 0 => fail
  | fuel + 1 => do
    if ← accept .key then
      let stop := ahead [.key, .value, .blockEnd]
      let key ← if ← stop then pure empty else node fuel true true
      let value ← if ← accept .value then
          if ← stop then pure empty else node fuel true true
        else pure empty
      return (key, value) :: (← blockEntries fuel)
    else
      expect .blockEnd
      return []

/-- The items of a flow sequence. A key makes an item a mapping with one entry. -/
def flowItems : (fuel : Nat) → (first : Bool) → Parse (List Node)
  | 0, _ => fail
  | fuel + 1, first => do
    if ← accept .flowSequenceEnd then return []
    if !first then expect .flowEntry
    if ← accept .key then
      let key ← if ← ahead [.value, .flowEntry, .flowSequenceEnd] then pure empty
        else node fuel false false
      let value ← if ← accept .value then
          if ← ahead [.flowEntry, .flowSequenceEnd] then pure empty else node fuel false false
        else pure empty
      return .mapping (← fresh) .mapping [(key, value)] :: (← flowItems fuel false)
    else if ← accept .flowSequenceEnd then return []
    else
      let item ← node fuel false false
      return item :: (← flowItems fuel false)

/-- The entries of a flow mapping. -/
def flowEntries : (fuel : Nat) → (first : Bool) → Parse (List (Node × Node))
  | 0, _ => fail
  | fuel + 1, first => do
    if ← accept .flowMappingEnd then return []
    if !first then expect .flowEntry
    if ← accept .key then
      let stop := ahead [.value, .flowEntry, .flowMappingEnd]
      let key ← if ← stop then pure empty else node fuel false false
      let value ← if ← accept .value then
          if ← ahead [.flowEntry, .flowMappingEnd] then pure empty else node fuel false false
        else pure empty
      return (key, value) :: (← flowEntries fuel false)
    else if ← accept .flowMappingEnd then return []
    else
      let key ← node fuel false false
      return (key, empty) :: (← flowEntries fuel false)

end

/-! ## Documents -/

/-- The handles that need no directive. -/
def standardHandles : List (String × String) := [("!", "!"), ("!!", Tag.base)]

/-- Takes off the directives before a document. At most one may give a version, and that must begin with one. -/
def directives : (fuel : Nat) → (version : Bool) → (handles : List (String × String)) →
    Parse (List (String × String))
  | 0, _, _ => fail
  | fuel + 1, version, handles => do
    match ← peek with
    | some (.directive d) =>
      take
      match d with
      | .version major _ => if version || major ≠ 1 then fail else directives fuel true handles
      | .handle name expansion =>
        if handles.any (·.1 = name) then fail
        else directives fuel version ((name, expansion) :: handles)
      | .other => directives fuel version handles
    | _ => return handles

/-- Takes off the marks at the end of documents. -/
def documentEnds : (fuel : Nat) → Parse Unit
  | 0 => pure ()
  | fuel + 1 => do if ← accept .documentEnd then documentEnds fuel

/-- The document of the tokens, if there is one. -/
def document (fuel : Nat) : Parse (Option Node) := do
  let opening ← peek
  let n ← match opening with
    | none => return none
    | some (.directive _) | some .documentStart =>
      let handles ← directives fuel false []
      modify fun p => { p with handles := handles ++ standardHandles }
      expect .documentStart
      match ← peek with
      | some (.directive _) | some .documentStart | some .documentEnd | none => pure empty
      | _ => node fuel true false
    | _ => node fuel true false
  documentEnds fuel
  if (← peek).isSome then fail
  return some n

end Node

namespace Document

def ofTokens (ts : List Token) : Read (Option Document) := do
  let fuel := 2 * ts.length + 2
  let (root, p) ← (Node.document fuel).run ⟨ts, Node.standardHandles, [], 0, []⟩
  return root.map fun root => ⟨root, p.anchored⟩

def ofText (s : String) : Read (Option Document) := do ofTokens (← Token.ofText s)

end Document

end Magnetofluid.Yaml
