import Magnetofluid.Text.Complex
import Magnetofluid.Value.Cast
import Magnetofluid.Value.SetOrder
import Magnetofluid.Yaml.Constant
import Magnetofluid.Yaml.Node

/-!
# Values of documents

The value of a node by its tag. A mapping may take over entries of others by a merge key; its own entries come after
those and count. `Value.ofYaml` reads the value of a text.

A document is given its meaning in rounds. A sequence or a mapping is made empty in one round and filled in the next one,
in the order in which they were made; a scalar or a tuple is made at once. Of several failures the one of the earliest
round counts, and of one round the first.
-/

namespace Magnetofluid.Yaml

variable {K : Type} [RealText K]

/-- The outcome of giving a meaning to a scalar. -/
abbrev Meaning (K : Type) (α : Type) := Except (Failure K) α

/-- A document that makes no sense. -/
def nonsense {α : Type} : Meaning K α := .error .badDocument

/-! ## Scalars -/

/-- A text without underscores and without its sign, and whether that is a minus. -/
def withoutSign (s : String) : Meaning K (Bool × List Char) :=
  match s.toList.filter (· ≠ '_') with
  | [] => .error .index
  | '-' :: cs => .ok (true, cs)
  | '+' :: cs => .ok (false, cs)
  | cs => .ok (false, cs)

/-- Whether a letter after a zero announces a base. -/
def announces (base : Nat) (c : Char) : Bool :=
  (base = 2 && (c = 'b' || c = 'B')) || (base = 8 && (c = 'o' || c = 'O')) || (base = 16 && (c = 'x' || c = 'X'))

/-- The value of a digit in a base; decimal digits may be of any script. -/
def digitIn? (base : Nat) (c : Char) : Option Nat :=
  ((Text.digit? c).or (Text.hexDigit? c)).filter (· < base)

/-- The number of a text in a base: blanks and a sign may precede it, and the letter of the base after a zero. -/
def inBase (base : Nat) (cs : List Char) : Meaning K Int :=
  let (negative, cs) := Text.signOf (Text.trimBlanks cs)
  let cs := match cs with
    | '0' :: c :: rest => if announces base c then rest else cs
    | cs => cs
  let value : Option Nat := cs.foldlM (fun n c => (digitIn? base c).map (base * n + ·)) 0
  match cs, value with
  | _ :: _, some n => .ok (if negative then -n else n)
  | _, _ => .error .unreadable

/-- The parts of a text between colons. -/
def colonParts (cs : List Char) : List String := (String.ofList cs).splitOn ":"

/-- The integer of a part in base ten. -/
def decimalPart (s : String) : Meaning K Int := ((Value.text s : Value K).toInteger).mapError fun _ => .unreadable

/-- The real number of a part. -/
def realPart (s : String) : Meaning K K := (Text.real? s).elim (.error .unreadable) .ok

def integer (s : String) : Meaning K Int := do
  let (negative, cs) ← withoutSign s
  let n : Int ← match cs with
    | [] => throw .index
    | ['0'] => pure 0
    | '0' :: 'b' :: ds => inBase 2 ds
    | '0' :: 'x' :: ds => inBase 16 ds
    | '0' :: ds => inBase 8 ('0' :: ds)
    | cs => do
      let parts ← (colonParts cs).mapM decimalPart
      pure (parts.foldl (fun n d => 60 * n + d) 0)
  return if negative then -n else n

/-- The sum of real numbers, the last of which counts once and each other one sixty times what the one after it does. -/
def sexagesimalSum (parts : List K) : Meaning K K := do
  let (sum, _) ← parts.reverse.foldlM (fun ((sum, base) : K × Nat) x => do
    let some factor := RealText.ofInteger? (K := K) base | throw .overflow
    return (sum + x * factor, 60 * base)) ((0 : K), 1)
  return sum

def realNumber (s : String) : Meaning K K := do
  let (negative, cs) ← withoutSign s.toLower
  let x : K ← match String.ofList cs with
    | ".inf" => pure (RealText.infinity false)
    | ".nan" => return RealText.nan
    | text => do
      match colonParts text.toList with
      | [part] => realPart part
      | parts => sexagesimalSum (← parts.mapM realPart)
  return if negative then -x else x

def truth (s : String) : Meaning K Bool :=
  let word := s.toLower
  if ["yes", "true", "on"].contains word then .ok true
  else if ["no", "false", "off"].contains word then .ok false
  else .error .unknownWord

def monthDays (year month : Nat) : Nat :=
  if month = 2 then if year % 4 = 0 ∧ (year % 100 ≠ 0 ∨ year % 400 = 0) then 29 else 28
  else if [4, 6, 9, 11].contains month then 30 else 31

/-- The day or moment of a scalar. -/
def timestamp (s : String) : Meaning K (Value K) := do
  let some t := Tag.stamp? (Tag.withoutLineFeed s.toList) | throw .wrongStructure
  if t.year = 0 || t.month = 0 || 12 < t.month || t.day = 0 || monthDays t.year t.month < t.day then
    throw .unreadable
  match t.time with
  | none => return .date t.year t.month t.day
  | some (hour, minute, second, fraction, zone) =>
    let microsecond := Tag.numberOf ((fraction ++ List.replicate 6 '0').take 6)
    let zone := zone.map (·.getD 0)
    if 23 < hour || 59 < minute || 59 < second || zone.any fun z => 1440 ≤ z.natAbs then throw .unreadable
    return .moment ⟨t.year, t.month, t.day, hour, minute, second, microsecond, zone⟩

/-- The six bits that a character stands for in binary data. -/
def sextet? (c : Char) : Option Nat :=
  if 'A' ≤ c && c ≤ 'Z' then some (c.toNat - 65)
  else if 'a' ≤ c && c ≤ 'z' then some (c.toNat - 71)
  else if c.isDigit then some (c.toNat + 4)
  else if c = '+' then some 62
  else if c = '/' then some 63
  else none

/-- The bytes of sextets, of which `kept` are not used up yet; `none` if they end within a byte. -/
def bytesOf : (kept : List Nat) → (padding : Nat) → List Char → Option (List Nat)
  | kept, _, [] => if kept.isEmpty then some [] else none
  | kept, padding, c :: cs =>
    if c = '=' then
      if 2 ≤ kept.length && 4 ≤ kept.length + padding + 1 then
        match kept with
        | [a, b] => some [a * 4 + b / 16]
        | [a, b, d] => some [a * 4 + b / 16, b % 16 * 16 + d / 4]
        | _ => none
      else bytesOf kept (padding + 1) cs
    else match sextet? c, kept with
      | none, _ => bytesOf kept padding cs
      | some d, [a, b, e] =>
        (bytesOf [] 0 cs).map ([a * 4 + b / 16, b % 16 * 16 + e / 4, e % 4 * 64 + d] ++ ·)
      | some d, _ => bytesOf (kept ++ [d]) 0 cs

def binary (s : String) : Meaning K (Value K) :=
  if s.toList.all (·.toNat < 128) then ((bytesOf [] 0 s.toList).map Value.bytes).elim nonsense .ok
  else nonsense

def scalarValue (tag : Tag) (s : String) : Meaning K (Value K) :=
  match tag with
  | .null => .ok .null
  | .bool => return .bool (← truth s)
  | .int => return .int (← integer s)
  | .float => return .real (← realNumber s)
  | .complex => do
    let some (re, im) := Text.complex? s | throw .unreadable
    return .complex re im
  | .binary => binary s
  | .timestamp => timestamp s
  | .text => .ok (.text s)
  | .constant name => if s = "" then (constant? name).elim nonsense .ok else nonsense
  | _ => nonsense

/-! ## Rounds -/

/-- A failure and the round in which it comes up. -/
structure Halt (K : Type) where
  round : Nat
  cause : Failure K

/-- The outcome of giving a meaning to a part of a document. -/
abbrev Made (K α : Type) := Except (Halt K) α

namespace Made

variable {α β : Type}

/-- A failure in a round. -/
def halt (round : Nat) (cause : Failure K) : Made K α := .error ⟨round, cause⟩

/-- The outcome of a scalar in a round. -/
def ofMeaning (round : Nat) (x : Meaning K α) : Made K α := x.mapError (⟨round, ·⟩)

/-- Two parts one after the other. Of two failures the one of the earlier round counts, and of one round the first. -/
def both (x : Made K α) (y : Made K β) : Made K (α × β) :=
  match x, y with
  | .ok a, .ok b => .ok (a, b)
  | .error e, .ok _ => .error e
  | .ok _, .error f => .error f
  | .error e, .error f => .error (if f.round < e.round then f else e)

/-- Parts one after the other. -/
def all : List (Made K α) → Made K (List α)
  | [] => .ok []
  | x :: xs => (both x (all xs)).map fun (a, rest) => a :: rest

end Made

/-! ## Collections -/

/-- The entries of a mapping: those that it takes over, and its own. `misused` says whether a merge key stands for
anything but mappings. -/
structure Entries (K : Type) where
  merged : List (Made K (Value K × Value K))
  own : List (Made K (Value K × Value K))
  misused : Bool

namespace Entries

def none : Entries K := ⟨[], [], false⟩

/-- The entries of nothing that could be merged. -/
def misuse : Entries K := ⟨[], [], true⟩

/-- All entries in the order in which they count. -/
def all (es : Entries K) : List (Made K (Value K × Value K)) := es.merged ++ es.own

/-- The entries with more to take over. -/
def take (es taken : Entries K) : Entries K :=
  { es with merged := taken.all ++ es.merged, misused := es.misused || taken.misused }

/-- The map of entries that are made in a round. A merge key that is misused is noticed first. -/
def toMap (round : Nat) (es : Entries K) : Made K (List (Value K × Value K)) :=
  if es.misused then Made.halt round .badDocument else (Made.all es.all).map Value.ofPairs

end Entries

/-- Where in a document a value is made. -/
structure Site where
  round : Nat
  /-- The number of values around it. Those outside of a setting are never written as a whole. -/
  depth : Nat
  /-- The numbers of the sequences and mappings around it that are written with it. -/
  around : List Nat
  /-- The numbers of the tuples around it that are not made yet. -/
  unmade : List Nat
  /-- The numbers of the mappings that are being merged. -/
  merging : List Nat

namespace Site

/-- Outside of everything. -/
def outermost : Site := ⟨0, 0, [], [], []⟩

/-- The depth of the values of settings. -/
def settingDepth : Nat := 2

/-- The site of the parts of a collection. -/
def inside (s : Site) (number : Nat) : Site :=
  { s with
    round := s.round + 1
    depth := s.depth + 1
    around := if settingDepth ≤ s.depth then number :: s.around else s.around
    unmade := []
    merging := [number] }

/-- The site of the parts of a tuple. -/
def insideTuple (s : Site) (number : Nat) : Site :=
  { s.inside number with round := s.round, unmade := number :: s.unmade }

end Site

namespace Node

/-- Whether a node is marked as the key of merging or of a default. -/
def hasTag (t : Tag) : Node → Bool
  | .scalar tag _ => tag = t
  | .sequence _ tag _ => tag = t
  | .mapping _ tag _ => tag = t
  | .cycle _ => false

/-- The tag of a node, if it is no reference. -/
def tag? : Node → Option Tag
  | .scalar tag _ => some tag
  | .sequence _ tag _ => some tag
  | .mapping _ tag _ => some tag
  | .cycle _ => none

/-- The value of a sequence or mapping that begins again, by the tag of the node that it repeats. -/
def againValue (n : Node) : Value K :=
  match n with
  | .sequence _ .tuple _ => .again .tuple
  | .mapping .. => .again .map
  | _ => .again .list

/-- The sequences and mappings that references within themselves stand for. -/
structure Repeats (K : Type) where
  value : Site → Nat → Made K (Value K)
  entries : Site → Nat → Entries K
  /-- Whether a number is that of a tuple. -/
  isTuple : Nat → Bool

mutual

/-- The scalar under the default key of a mapping, if it has one. -/
def default? : List (Node × Node) → Meaning K (Option String)
  | [] => .ok none
  | (key, item) :: rest => if key.hasTag .default_ then scalarOf item else default? rest

/-- The text of a scalar, or that under the default key of a mapping. -/
def scalarOf : Node → Meaning K (Option String)
  | .scalar _ s => .ok (some s)
  | .mapping _ _ entries => default? entries
  | _ => nonsense

end

/-- The value of a scalar under the default key of a mapping. -/
def defaultValue (tag : Tag) (entries : List (Node × Node)) : Meaning K (Value K) := do
  let some s ← default? entries | nonsense
  scalarValue tag s

mutual

/-- Whether a node can be a part of a key. -/
def isHashable (isTuple : Nat → Bool) : Node → Bool
  | .cycle number => isTuple number
  | .scalar tag _ => !tag.isCollection
  | .sequence _ tag items => !tag.isCollection && areHashable isTuple items
  | .mapping _ tag _ => !tag.isCollection

def areHashable (isTuple : Nat → Bool) : List Node → Bool
  | [] => true
  | n :: ns => isHashable isTuple n && areHashable isTuple ns

end

/-- The value of a key, given the value of its node. Sequences, mappings and sets are no keys, and the mark of a default
value is a text here. -/
def keyValue (isTuple : Nat → Bool) (site : Site) (key : Node) (made : Made K (Value K)) : Made K (Value K) :=
  match key with
  | .cycle number => if isTuple number then made else Made.halt site.round .badDocument
  | .scalar .default_ s => .ok (.text s)
  | .mapping _ .default_ entries => Made.ofMeaning site.round (defaultValue .text entries)
  | n => if n.tag?.any Tag.isCollection then Made.halt site.round .badDocument else made

/-- An entry of a mapping. A tuple of what cannot be in a key is noticed when the entry is added. -/
def entry (isTuple : Nat → Bool) (site : Site) (key : Node) (k v : Made K (Value K)) : Made K (Value K × Value K) :=
  let made := Made.both (keyValue isTuple site key k) v
  if isHashable isTuple key then made
  else (Made.both made (Made.halt site.round .wrongType : Made K Unit)).map (·.1)

variable (repeats : Repeats K)

mutual

def value (site : Site) : Node → Made K (Value K)
  | .cycle number =>
    if site.unmade.contains number then Made.halt site.round .badDocument else repeats.value site number
  | .scalar tag s =>
    if tag.isCollection then Made.halt (site.round + 1) .badDocument
    else Made.ofMeaning site.round (scalarValue tag s)
  | .sequence number tag items =>
    if site.around.contains number then .ok (againValue (.sequence number tag items))
    else match tag with
      | .sequence => (values (site.inside number) items).map .list
      | .tuple => (values (site.insideTuple number) items).map .tuple
      | .orderedMap | .pairs => (singles (site.inside number) items).map .list
      | tag => Made.halt (if tag.isCollection then site.round + 1 else site.round) .badDocument
  | .mapping number tag entries =>
    if site.around.contains number then .ok (againValue (.mapping number tag entries))
    else match tag with
      | .mapping => ((mapEntries (site.inside number) entries).toMap (site.round + 1)).map .map
      | .set =>
        ((mapEntries (site.inside number) entries).toMap (site.round + 1)).map fun es =>
          .set (Value.setOrder (es.map (·.1)))
      | tag =>
        if tag.isCollection then Made.halt (site.round + 1) .badDocument
        else Made.ofMeaning site.round (defaultValue tag entries)

def values (site : Site) : List Node → Made K (List (Value K))
  | [] => .ok []
  | n :: ns => (Made.both (value site n) (values site ns)).map fun (v, vs) => v :: vs

/-- The pairs of mappings with one entry each. -/
def singles (site : Site) : List Node → Made K (List (Value K))
  | [] => .ok []
  | .mapping _ _ [(key, item)] :: ns =>
    (Made.both (Made.both (value site key) (value site item)) (singles site ns)).map fun ((k, v), vs) =>
      .tuple [k, v] :: vs
  | _ => Made.halt site.round .badDocument

def mapEntries (site : Site) : List (Node × Node) → Entries K
  | [] => .none
  | (key, item) :: rest =>
    let es := mapEntries site rest
    if key.hasTag .merge then es.take (merged site item)
    else { es with own := entry repeats.isTuple site key (value site key) (value site item) :: es.own }

/-- The entries that a merge key takes over: those of a mapping, or of several, the first of which counts most. -/
def merged (site : Site) : Node → Entries K
  | .mapping number _ entries =>
    if site.merging.contains number then .none
    else mapEntries { site with merging := number :: site.merging } entries
  | .sequence _ _ items => mergedItems site items
  | .cycle number => if site.merging.contains number then .none else repeats.entries site number
  | .scalar _ _ => .misuse

/-- The entries of each mapping of a list, those of the first one last. -/
def mergedItems (site : Site) : List Node → Entries K
  | [] => .none
  | n :: ns =>
    match n with
    | .sequence .. => .misuse
    | n => (merged site n).take (mergedItems site ns)

end

end Node

/-- The cause of a fault. -/
def Fault.failure : Fault → Failure K
  | malformed => .badDocument
  | codePoint => .unreadable

namespace Document

/-- The anchored node of a number. -/
def node? (d : Document) (number : Nat) : Option Node := (d.anchored.find? (·.1 = number)).map (·.2)

def isTuple (d : Document) (number : Nat) : Bool := (d.node? number).any fun n => n.tag? = some .tuple

/-- What references within themselves stand for, as far as they are followed. -/
def repeats (d : Document) : (fuel : Nat) → Node.Repeats K
  | 0 => ⟨fun _ _ => .ok (.again .list), fun _ _ => .none, d.isTuple⟩
  | fuel + 1 =>
    let inner := d.repeats fuel
    { value := fun site number => ((d.node? number).map (Node.value inner site)).getD (.ok (.again .list))
      entries := fun site number => ((d.node? number).map (Node.merged inner site)).getD .none
      isTuple := d.isTuple }

def value (d : Document) : Except (Failure K) (Value K) :=
  (Node.value (d.repeats (d.anchored.length + 4)) .outermost d.root).mapError (·.cause)

end Document

end Yaml

/-- The value of a document; nothing at all is the value of an empty one. -/
def Value.ofYaml {K : Type} [RealText K] (s : String) : Except (Failure K) (Value K) :=
  match Yaml.Document.ofText s with
  | .error fault => .error fault.failure
  | .ok none => .ok .null
  | .ok (some d) => d.value

end Magnetofluid
