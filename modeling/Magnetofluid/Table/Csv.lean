import Magnetofluid.Failure
import Magnetofluid.Value.Cast

/-!
# Tables with commas

A table of columns as lines of fields with commas between them. A field that holds a comma, a quote or a line feed is
written in quotes, and a quote in it is doubled. Missing values leave their fields empty; a line with one empty field is
a pair of quotes.

A column of numbers in which an item is real or missing is a column of real numbers, unless its integers need more than
64 bits before the first missing item; all other columns keep their items as they are.

* `ofValue`: the table that a value gives, by columns (`ofNamed`) or by lines (`ofRecords`, `ofLines`).
* `Table.text`: the text of a table.
* `numbers`: the numbers of such a text.
-/

namespace Magnetofluid.Csv

/-! ## Lines -/

/-- Whether a character must stand in quotes. -/
def isSpecial (c : Char) : Bool := c = ',' || c = '"' || c = '\n'

def quoted (s : String) : String :=
  .ofList ('"' :: s.toList.flatMap (fun c => if c = '"' then ['"', '"'] else [c]) ++ ['"'])

def field (s : String) : String := if s.toList.any isSpecial then quoted s else s

def line (fields : List String) : String :=
  match fields with
  | [""] => "\"\"\n"
  | fields => Text.joined "," (fields.map field) ++ "\n"

/-! ## Columns -/

variable {K : Type} [RealText K]

structure Column (K : Type) where
  name : String
  items : List (Value K)

/-- The text of an item in a column of mixed items. -/
def itemText : Value K → String
  | .null => ""
  | .real x => if RealText.isNan x then "" else RealText.write x
  | v => v.plain

/-- The text of an item in a column of real numbers. -/
def realText (v : Value K) : String :=
  match v with
  | .int i => ((RealText.ofInteger? i : Option K).map RealText.write).getD v.plain
  | v => itemText v

/-- Whether an item is missing or a number. -/
def isNumeric : Value K → Bool
  | .null => true
  | .int _ => true
  | .real _ => true
  | _ => false

def isInteger : Value K → Bool
  | .int _ => true
  | _ => false

/-- Whether integers fit into 64 bits, all of them with a sign or all of them without. -/
def fitWords (is : List Int) : Bool :=
  is.all (fun i => decide (-0x8000000000000000 ≤ i ∧ i < 0x8000000000000000)) ||
    is.all fun i => decide (0 ≤ i ∧ i < 0x10000000000000000)

/-- The integers before the first item that is not there. -/
def leadingIntegers (items : List (Value K)) : List Int :=
  (items.takeWhile fun v => !(v matches .null)).filterMap fun
    | .int i => some i
    | _ => none

/-- Whether the items of a column are written as real numbers. -/
def isReal (items : List (Value K)) : Bool :=
  items.all isNumeric && !items.all isInteger && fitWords (leadingIntegers items)

/-- The fields of a column. -/
def Column.fields (c : Column K) : List String := c.items.map (if isReal c.items then realText else itemText)

/-! ## Tables -/

structure Table (K : Type) where
  height : Nat
  columns : List (Column K)

/-- The text of a table: its names and its lines. -/
def Table.text (t : Table K) : String :=
  let fields := t.columns.map fun c => c.fields.toArray
  let row (i : Nat) : List String := fields.map fun f => f[i]?.getD ""
  String.join (line (t.columns.map (·.name)) :: (List.range t.height).map fun i => line (row i))

def sequence? : Value K → Option (List (Value K))
  | .list items => some items
  | .tuple items => some items
  | _ => none

def entries? : Value K → Option (List (Value K × Value K))
  | .map entries => some entries
  | _ => none

/-- The labels of maps in the order in which they come first. -/
def labels (maps : List (List (Value K × Value K))) : List (Value K) :=
  (Value.ofPairs (maps.flatten)).map (·.1)

/-- The item of a label; a label that is not there has NaN. -/
def labelled (entries : List (Value K × Value K)) (label : Value K) : Value K :=
  (Value.lookup? entries label).getD (.real RealText.nan)

/-- The table of named values. Sequences of one length are its columns, a single value stands in every line. Maps are
columns by label; sequences cannot stand beside them. -/
def ofNamed (named : List (String × Value K)) : Except (Failure K) (Table K) := do
  let sequences := named.filterMap fun e => sequence? e.2
  let maps := named.filterMap fun e => entries? e.2
  let lines := labels maps
  let height ← match sequences.map List.length, maps with
    | [], [] => if named.isEmpty then pure 0 else throw .shape
    | [], _ => pure lines.length
    | n :: ns, [] => if ns.all (· = n) then pure n else throw .shape
    | _, _ => throw .shape
  let items (v : Value K) : List (Value K) :=
    match sequence? v, entries? v with
    | some items, _ => items
    | none, some entries => lines.map (labelled entries)
    | none, none => List.replicate height v
  return ⟨height, named.map fun (name, v) => ⟨name, items v⟩⟩

/-- The table of lines that are maps: a column for each label. -/
def ofRecords (records : List (List (Value K × Value K))) : Table K :=
  ⟨records.length, (labels records).map fun label => ⟨label.plain, records.map fun r => labelled r label⟩⟩

/-- The table of lines that are sequences: its columns are numbered, and items that are not there are missing. -/
def ofLines (lines : List (List (Value K))) : Table K :=
  let width := (lines.map List.length).foldl max 0
  let column (j : Nat) : Column K := ⟨toString j, lines.map fun l => (l[j]?).getD .null⟩
  ⟨lines.length, (List.range width).map column⟩

/-- The table that a value gives. The first of several lines tells how all of them are read. -/
def ofValue : Value K → Except (Failure K) (Table K)
  | .null => .ok ⟨0, []⟩
  | .map entries => ofNamed (entries.map fun e => (e.1.plain, e.2))
  | .list [] => .ok ⟨0, []⟩
  | .list (.map first :: rest) => do
    return ofRecords (first :: (← rest.mapM fun v => (entries? v).elim (.error .wrongStructure) .ok))
  | .list (.list first :: rest) => do return ofLines (first :: (← rest.mapM Value.parts))
  | .list items => .ok ⟨items.length, [⟨"0", items⟩]⟩
  | _ => .error .shape

/-! ## Reading -/

/-- The number of a field; that of an empty one is NaN. -/
def fieldNumber (s : String) : Except (Failure K) K :=
  if s = "" then .ok RealText.nan else (Text.real? s).elim (.error .unreadable) .ok

/-- The names and the numbers of a table without quotes. -/
def numbers (s : String) : Except (Failure K) (List (String × List K)) :=
  match ((s.splitOn "\n").filter (· ≠ "")).map (·.splitOn ",") with
  | [] => .ok []
  | names :: rows => (names.zipIdx).mapM fun (name, j) => do
    return (name, ← rows.mapM fun row => fieldNumber ((row[j]?).getD ""))

end Magnetofluid.Csv
