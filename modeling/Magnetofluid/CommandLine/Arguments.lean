import Magnetofluid.Text.Character
import Magnetofluid.Text.Layout
import Magnetofluid.Text.Quoted
import Magnetofluid.Value.Basic

/-!
# Arguments of the command line

The program takes the name of an input file by `-i` or `--input`, and tells about itself by `-h` or `--help`. Long
options may be cut short as long as they stay apart; the value of an option may be attached to it or follow it; short
options may stand together. What follows two dashes is no option.

* `classify`: what an argument looks like.
* `parse`: the request that arguments make, or why they make none.
-/

namespace Magnetofluid.CommandLine

inductive Flag
  | help
  | input
deriving DecidableEq, Repr

/-- The options by their spellings. -/
def spellings : List (String × Flag) :=
  [("-h", .help), ("--help", .help), ("-i", .input), ("--input", .input)]

def Flag.name : Flag → String
  | help => "-h/--help"
  | input => "-i/--input"

/-- Why arguments make no request. -/
inductive Misuse
  /-- A shortened option that could be several. -/
  | ambiguous (argument : String) (candidates : List String)
  /-- An option without the value it needs. -/
  | valueMissing (flag : Flag)
  /-- A value for an option that takes none. -/
  | valueIgnored (flag : Flag) (value : String)
  /-- No input file. -/
  | inputMissing
  | unrecognized (arguments : List String)
deriving DecidableEq, Repr

/-- What is said of a misuse. -/
def Misuse.message : Misuse → String
  | ambiguous argument candidates =>
    "ambiguous option: " ++ argument ++ " could match " ++ Text.joined ", " candidates
  | valueMissing flag => "argument " ++ flag.name ++ ": expected one argument"
  | valueIgnored flag value => "argument " ++ flag.name ++ ": ignored explicit argument " ++ Text.quoted value
  | inputMissing => "the following arguments are required: " ++ Flag.input.name
  | unrecognized arguments => "unrecognized arguments: " ++ Text.joined " " arguments

/-- What an argument looks like. -/
inductive Shape
  /-- No option. -/
  | plain
  /-- The two dashes that end the options. -/
  | dashes
  /-- An option that the program does not have. -/
  | unknown
  /-- An option by itself. -/
  | bare (flag : Flag)
  /-- A long option and its value, after an equals sign. -/
  | assigned (flag : Flag) (value : String)
  /-- A short option with more characters after it, or after an equals sign after it. -/
  | attached (flag : Flag) (rest : String)
deriving DecidableEq, Repr

/-- The option of a spelling. -/
def flagOf? (spelling : String) : Option Flag := (spellings.find? (·.1 = spelling)).map (·.2)

/-- What stands before and after the first equals sign. -/
def splitAssignment (s : String) : String × Option String :=
  let cs := s.toList
  let value := match cs.dropWhile (· ≠ '=') with
    | [] => none
    | _ :: rest => some (.ofList rest)
  (.ofList (cs.takeWhile (· ≠ '=')), value)

/-- Whether a text is a negative number without an exponent, or one with a line feed after it. -/
def isNegativeNumber (cs : List Char) : Bool :=
  let isDigit (c : Char) : Bool := (Text.digit? c).isSome
  match cs with
  | '-' :: cs =>
    let cs := if cs.getLast? = some '\n' then cs.dropLast else cs
    match cs.dropWhile isDigit with
    | [] => !cs.isEmpty
    | '.' :: fraction => !fraction.isEmpty && fraction.all isDigit
    | _ => false
  | _ => false

/-- The shape of an argument that starts with two dashes and is no spelling. -/
def classifyLong (s : String) : Except Misuse Shape :=
  let (start, value) := splitAssignment s
  match spellings.filter fun e => e.1.startsWith start with
  | [] => .ok (if s.toList.contains ' ' then .plain else .unknown)
  | [e] => .ok (value.elim (.bare e.2) (.assigned e.2))
  | es => .error (.ambiguous s (es.map (·.1)))

/-- The shape of an argument that starts with one dash and is no spelling. -/
def classifyShort (s : String) : Shape :=
  match flagOf? (.ofList (s.toList.take 2)) with
  | some flag => .attached flag (.ofList (s.toList.drop 2))
  | none => if isNegativeNumber s.toList || s.toList.contains ' ' then .plain else .unknown

/-- The shape of an argument before two dashes. -/
def classify (s : String) : Except Misuse Shape :=
  match s.toList with
  | ['-', '-'] => .ok .dashes
  | '-' :: c :: _ =>
    match flagOf? s, splitAssignment s with
    | some flag, _ => .ok (.bare flag)
    | none, (start, some value) =>
      match flagOf? start with
      | some flag => .ok (if c = '-' then .assigned flag value else .attached flag value)
      | none => if c = '-' then classifyLong s else .ok (classifyShort s)
    | none, _ => if c = '-' then classifyLong s else .ok (classifyShort s)
  | _ => .ok .plain

/-- The shapes of arguments; all of them are plain after two dashes. -/
def classifyAll : List String → Except Misuse (List (String × Shape))
  | [] => .ok []
  | s :: rest => do
    match ← classify s with
    | .dashes => return (s, .dashes) :: rest.map fun s => (s, .plain)
    | shape => return (s, shape) :: (← classifyAll rest)

/-- What the arguments ask for. -/
inductive Request
  | help
  | run (input : String)
deriving DecidableEq, Repr

/-- Checks the characters after `-h`, which must be more short options. `hasNext` tells whether a plain argument
follows. -/
def checkCluster (hasNext : Bool) : List Char → Except Misuse Unit
  | ['h'] => .ok ()
  | 'h' :: cs => checkCluster hasNext cs
  | ['i'] => if hasNext then .ok () else .error (.valueMissing .input)
  | 'i' :: _ => .ok ()
  | cs => .error (.valueIgnored .help (.ofList cs))

/-- The request of arguments whose shapes are known, given the input file and the arguments left over so far. -/
def requestFrom (input : Option String) (others : List String) : List (String × Shape) → Except Misuse Request
  | [] =>
    match input with
    | none => .error .inputMissing
    | some name => if others.isEmpty then .ok (.run name) else .error (.unrecognized others)
  | (_, .bare .input) :: (name, .plain) :: rest => requestFrom (some name) others rest
  | (s, shape) :: rest =>
    match shape with
    | .bare .help => .ok .help
    | .bare .input => .error (.valueMissing .input)
    | .assigned .input name => requestFrom (some name) others rest
    | .assigned .help value => .error (.valueIgnored .help value)
    | .attached .input name => requestFrom (some name) others rest
    | .attached .help cs => do
      checkCluster (rest.head?.any fun e => e.2 = .plain) cs.toList
      return .help
    | .plain | .dashes | .unknown => requestFrom input (others ++ [s]) rest

/-- The request of arguments. -/
def parse (arguments : List String) : Except Misuse Request := do
  requestFrom none [] (← classifyAll arguments)

/-! ## Texts -/

/-- The line that shows how the program is used. -/
def usage : String := "usage: resmhd [-h] -i FILENAME"

/-- What the program tells about itself. -/
def helpLines : List String :=
  [usage, "", "options:", "  -h, --help            show this help message and exit", "",
    "required arguments:", "  -i FILENAME, --input FILENAME", "                        YAML input file"]

/-- What is said when the program is not used as it should be. -/
def Misuse.lines (m : Misuse) : List String :=
  usage :: Text.splitLines ("resmhd: error: " ++ m.message ++ "\n")

end Magnetofluid.CommandLine
