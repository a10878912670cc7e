import Magnetofluid.Model.Defaults
import Magnetofluid.Printing
import Magnetofluid.Text.Layout
import Magnetofluid.Value.Cast

/-!
# Entries of a section

The settings of a section are the entries of a map. This module holds what every section needs to be read and
written: an entry or its default, an entry by name, the check of a rule, and how entries are shown.
-/

namespace Magnetofluid.Settings

/-- The settings of a section. -/
abbrev Entries (K : Type) := List (Value K × Value K)

variable {K : Type} [RealText K]

/-- The value given for a name, or the default. -/
def given (es : Entries K) (name : String) (default : Value K) : Value K :=
  (Value.named? es name).getD default

def isGiven (es : Entries K) (name : String) : Bool := (Value.named? es name).isSome

def entry (name : String) (value : Value K) : Value K × Value K := (.text name, value)

/-- Refuses settings that break a rule. -/
def require (rule : SettingRule) (holds : Bool) : Except (Failure K) Unit :=
  if holds then .ok () else .error (.rejected rule)

/-- The choice that a text names, or the failure of a rule. -/
def choose {α : Type} (rule : SettingRule) (ofName? : String → Option α) (name : String) : Except (Failure K) α :=
  (ofName? name).elim (.error (.rejected rule)) .ok

/-! ### Listings

Settings are shown with one line for each, and one for each part of a setting that is a map. -/

def showItem (indent : String) (width : Nat) (key value : Value K) : Printing K Unit := do
  let text ← MonadExcept.ofExcept value.toText
  Printing.say (Text.lines (indent ++ "- " ++ Text.padRight width key.plain ++ ": " ++ text))

def showEntry (e : Value K × Value K) : Printing K Unit := do
  match e.2 with
  | .map parts => do
    Printing.say (Text.lines ("  - " ++ e.1.plain ++ ":"))
    parts.forM fun p => showItem "    " 23 p.1 p.2
  | v => showItem "  " 25 e.1 v

def showAll (entries : List (Value K × Value K)) : Printing K Unit := entries.forM showEntry

end Magnetofluid.Settings
