import Magnetofluid.CommandLine.Arguments
import Magnetofluid.Simulation.Configuration
import Magnetofluid.Simulation.Run

/-!
# The command

What the program does with its arguments: it runs the simulation of an input file, tells about itself, or says how it
is used.
-/

namespace Magnetofluid.CommandLine

variable {K : Type} [RealText K]

/-- How the program ends. -/
inductive Ending
  | ran
  | helped
  | misused (m : Misuse)
deriving DecidableEq, Repr

namespace Ending

/-- The code with which the program exits, if it does not simply end. -/
def exitCode? : Ending → Option Nat
  | ran => none
  | helped => some 0
  | misused _ => some 2

/-- The lines of complaint. -/
def complaint : Ending → List String
  | misused m => m.lines
  | _ => []

end Ending

def simulate (input : String) : Work K Unit := fun workspace =>
  match (Simulation.ofFile input).run workspace with
  | .error e workspace => .error e workspace
  | .ok ⟨_, simulation⟩ _ =>
    match (Simulation.run fun _ => []).run simulation with
    | .ok _ s => .ok () s.workspace
    | .error e s => .error e s.workspace

def command (arguments : List String) : Work K Ending := do
  match parse arguments with
  | .error m => return .misused m
  | .ok .help => do
    Workspace.say helpLines
    return .helped
  | .ok (.run input) => do
    simulate input
    return .ran

end Magnetofluid.CommandLine
