import Magnetofluid.Yaml.Token

/-!
# Tags

What a node of a document is to become. A tag may be written out; for a plain scalar without one it follows from the
text: truth values, integers in four bases or with parts of sixty, reals with a point, nothing, dates, and the two
marks for merging and for default values. The marks of tags, anchors and references have no meaning as texts. All other
plain scalars are texts.
-/

namespace Magnetofluid.Yaml

/-- The tags that a document can give a meaning to. -/
inductive Tag
  | null
  | bool
  | int
  | float
  | binary
  | timestamp
  | text
  | sequence
  | mapping
  | set
  | orderedMap
  | pairs
  | tuple
  | complex
  /-- A constant by its name. -/
  | constant (name : String)
  | merge
  | default_
  | unknown
deriving DecidableEq, Repr

namespace Tag

/-- The common beginning of the tags with a meaning. -/
def base : String := "tag:yaml.org,2002:"

/-- The names behind the common beginning. -/
def names : List (String × Tag) :=
  [("null", null), ("bool", bool), ("int", int), ("float", float), ("binary", binary),
    ("timestamp", timestamp), ("str", text), ("seq", sequence), ("map", mapping), ("set", set),
    ("omap", orderedMap), ("pairs", pairs), ("merge", merge), ("value", default_),
    ("python/none", null), ("python/bool", bool), ("python/str", text), ("python/unicode", text),
    ("python/bytes", binary), ("python/int", int), ("python/long", int), ("python/float", float),
    ("python/complex", complex), ("python/list", sequence), ("python/tuple", tuple), ("python/dict", mapping)]

/-- The beginning of the tags of constants, behind the common beginning. -/
def constantBase : String := base ++ "python/name:"

/-- The tag of its full text. -/
def ofUri (uri : String) : Tag :=
  match names.find? fun p => base ++ p.1 = uri with
  | some (_, tag) => tag
  | none =>
    if uri.startsWith constantBase then constant (.ofList (uri.toList.drop constantBase.length)) else unknown

/-- Whether the values of a tag can hold others and change afterwards, so that they cannot be keys. -/
def isCollection : Tag → Bool
  | sequence | mapping | set | orderedMap | pairs => true
  | _ => false

/-! ## Forms of plain scalars -/

/-- What follows an optional sign. -/
def unsigned : List Char → List Char
  | '-' :: cs => cs
  | '+' :: cs => cs
  | cs => cs

def isBinaryDigit (c : Char) : Bool := c = '0' || c = '1' || c = '_'
def isOctalDigit (c : Char) : Bool := ('0' ≤ c && c ≤ '7') || c = '_'
def isHexDigit (c : Char) : Bool := (Text.hexDigit? c).isSome || c = '_'
def isDecimalDigit (c : Char) : Bool := c.isDigit || c = '_'

/-- Whether a text is not empty and all its characters satisfy a predicate. -/
def allOf (p : Char → Bool) (cs : List Char) : Bool := !cs.isEmpty && cs.all p

/-- What follows the parts of sixty `:0` to `:59` at the start of a text, and whether there are any. -/
def sexagesimal : List Char → Bool × List Char
  | ':' :: a :: b :: cs =>
    if a.isDigit && a ≤ '5' && b.isDigit then (true, (sexagesimal cs).2)
    else if a.isDigit then (true, (sexagesimal (b :: cs)).2)
    else (false, ':' :: a :: b :: cs)
  | [':', a] => if a.isDigit then (true, []) else (false, [':', a])
  | cs => (false, cs)
  termination_by cs => cs.length

def isInt (cs : List Char) : Bool :=
  match unsigned cs with
  | ['0'] => true
  | '0' :: 'b' :: ds => allOf isBinaryDigit ds
  | '0' :: 'x' :: ds => allOf isHexDigit ds
  | '0' :: ds => allOf isOctalDigit ds
  | d :: ds =>
    if d.isDigit then
      let rest := ds.dropWhile isDecimalDigit
      rest.isEmpty || sexagesimal rest = (true, [])
    else false
  | [] => false

/-- Whether a text is nothing or an exponent with its sign. -/
def isExponent : List Char → Bool
  | [] => true
  | e :: s :: ds => (e = 'e' || e = 'E') && (s = '+' || s = '-') && allOf Char.isDigit ds
  | _ => false

def isFloat (cs : List Char) : Bool :=
  let special (ds : List Char) (names : List String) : Bool := names.contains (.ofList ds)
  special cs [".nan", ".NaN", ".NAN"] || special (unsigned cs) [".inf", ".Inf", ".INF"] ||
    (match cs with
      | '.' :: d :: ds => d.isDigit && isExponent (ds.dropWhile isDecimalDigit)
      | _ => false) ||
    (match unsigned cs with
      | d :: ds =>
        d.isDigit && (match ds.dropWhile isDecimalDigit with
          | '.' :: ds => isExponent (ds.dropWhile isDecimalDigit)
          | rest => match sexagesimal rest with
            | (true, '.' :: ds) => ds.all isDecimalDigit
            | _ => false)
      | [] => false)

/-- A moment as it is written: year, month, day, and what may follow: hour, minute, second, the digits of a fraction,
and the zone, in minutes with a sign if one is written. -/
structure Stamp where
  year : Nat
  month : Nat
  day : Nat
  time : Option (Nat × Nat × Nat × List Char × Option (Option Int))

def numberOf (cs : List Char) : Nat := cs.foldl (fun n c => 10 * n + (c.toNat - '0'.toNat)) 0

/-- Between `low` and `high` digits at the start of a text, as many as there are, and what follows. -/
def digits? (low high : Nat) (cs : List Char) : Option (Nat × List Char) :=
  let ds := (cs.take high).takeWhile Char.isDigit
  if ds.length < low then none else some (numberOf ds, cs.drop ds.length)

/-- What follows a character. -/
def after? (c : Char) : List Char → Option (List Char)
  | d :: cs => if d = c then some cs else none
  | [] => none

/-- The zone at the end of a moment: none, universal time, or an offset. -/
def zone? (cs : List Char) : Option (Option (Option Int)) := do
  match cs.dropWhile fun c => c = ' ' || c = '\t' with
  | [] => if cs.isEmpty then some none else none
  | ['Z'] => some (some none)
  | s :: cs =>
    if s ≠ '+' ∧ s ≠ '-' then none
    let (hours, cs) ← digits? 1 2 cs
    let minutes ← match cs with
      | [] => some 0
      | cs => match ← digits? 2 2 (← after? ':' cs) with
        | (minutes, []) => some minutes
        | _ => none
    let offset : Int := 60 * hours + minutes
    some (some (some (if s = '-' then -offset else offset)))

/-- The moment of a text. -/
def stamp? (cs : List Char) : Option Stamp := do
  let (year, cs) ← digits? 4 4 cs
  let (month, cs) ← digits? 1 2 (← after? '-' cs)
  let (day, cs) ← digits? 1 2 (← after? '-' cs)
  if cs.isEmpty then return ⟨year, month, day, none⟩
  let cs ← match cs with
    | 'T' :: cs => some cs
    | 't' :: cs => some cs
    | c :: _ => if c = ' ' || c = '\t' then some (cs.dropWhile fun c => c = ' ' || c = '\t') else none
    | [] => none
  let (hour, cs) ← digits? 1 2 cs
  let (minute, cs) ← digits? 2 2 (← after? ':' cs)
  let (second, cs) ← digits? 2 2 (← after? ':' cs)
  let (fraction, cs) := match cs with
    | '.' :: cs => (cs.takeWhile Char.isDigit, cs.dropWhile Char.isDigit)
    | cs => ([], cs)
  return ⟨year, month, day, some (hour, minute, second, fraction, ← zone? cs)⟩

/-- Whether a plain scalar is a moment. A day alone must be written with ten characters. -/
def isStamp (cs : List Char) : Bool :=
  match stamp? cs with
  | some s => s.time.isSome || cs.length = 10
  | none => false

/-- The texts of the truth values. -/
def truths : List String :=
  ["yes", "Yes", "YES", "no", "No", "NO", "true", "True", "TRUE", "false", "False", "FALSE",
    "on", "On", "ON", "off", "Off", "OFF"]

/-- A text without the line feed that it may end with. -/
def withoutLineFeed (cs : List Char) : List Char := if cs.getLast? = some '\n' then cs.dropLast else cs

/-- The tag of a text that is not empty. -/
def ofWord (s : String) : Tag :=
  let cs := s.toList
  if truths.contains s then bool
  else if isFloat cs then float
  else if isInt cs then int
  else if s = "<<" then merge
  else if ["~", "null", "Null", "NULL"].contains s then null
  else if isStamp cs then timestamp
  else if s = "=" then default_
  else if ["!", "&", "*"].contains s then unknown
  else text

/-- The tag of a plain scalar. A line feed at its end does not count. -/
def ofPlain (s : String) : Tag :=
  if s = "" then null
  else match withoutLineFeed s.toList with
    | [] => text
    | cs => ofWord (.ofList cs)

end Tag

end Magnetofluid.Yaml
