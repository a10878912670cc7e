import Magnetofluid.Value.Basic

/-!
# Constants of documents

The values that a document can ask for by name. Functions and types have no value of their own here; they are known by
their texts only.
-/

namespace Magnetofluid.Yaml

variable {K : Type} [RealText K]

/-- The constants of the modules of mathematics. -/
def realConstants : List (String × K) :=
  [("pi", Elementary.pi), ("e", 2.718281828459045), ("inf", RealText.infinity false), ("nan", RealText.nan)]

/-- The constants that need no module. -/
def plainConstants : List (String × Value K) :=
  [("None", .null), ("True", .bool true), ("False", .bool false), ("__debug__", .bool true),
    ("Ellipsis", .named "Ellipsis"), ("NotImplemented", .named "NotImplemented")]

/-- The functions that need no module. -/
def functionNames : List String :=
  ["__build_class__", "__import__", "abs", "aiter", "all", "anext", "any", "ascii", "bin", "breakpoint", "callable",
    "chr", "compile", "delattr", "dir", "divmod", "eval", "exec", "format", "getattr", "globals", "hasattr", "hash",
    "hex", "id", "input", "isinstance", "issubclass", "iter", "len", "locals", "max", "min", "next", "oct", "open",
    "ord", "pow", "print", "repr", "round", "setattr", "sorted", "sum", "vars"]

/-- The types that need no module. -/
def typeNames : List String :=
  ["bool", "bytearray", "bytes", "classmethod", "complex", "dict", "enumerate", "filter", "float", "frozenset", "int",
    "list", "map", "memoryview", "object", "property", "range", "reversed", "set", "slice", "staticmethod", "str",
    "super", "tuple", "type", "zip"]

/-- What has a name without a module. -/
def withoutModule? (name : String) : Option (Value K) :=
  match plainConstants.find? (·.1 = name) with
  | some (_, v) => some v
  | none =>
    if functionNames.contains name then some (.named ("<built-in function " ++ name ++ ">"))
    else if typeNames.contains name then some (.named ("<class '" ++ name ++ "'>"))
    else none

/-- What has a full name. -/
def constant? (name : String) : Option (Value K) :=
  match name.splitOn "." with
  | [name] => withoutModule? name
  | ["builtins", name] => withoutModule? name
  | ["math", "tau"] => some (.real 6.283185307179586)
  | ["math", name] => ((realConstants.find? (·.1 = name)).map (·.2)).map .real
  | ["numpy", name] => ((realConstants.find? (·.1 = name)).map (·.2)).map .real
  | ["sys", "maxsize"] => some (.int 0x7fffffffffffffff)
  | _ => none

end Magnetofluid.Yaml
