import Magnetofluid.Failure

/-!
# The blocks of a state

A state of the fluid is one vector made of three blocks of equal size: the stream function `phi`, the magnetic
flux `psi` and the vorticity `w`. The stream function obeys a constraint and has no rate of change of its own.

`Layout` says where the blocks lie; `Layout.check` accepts exactly the vectors that fit.
-/

namespace Magnetofluid

inductive Block
  | potential
  | flux
  | vorticity
deriving DecidableEq, Repr

namespace Block

/-- The blocks in the order in which they are stored. -/
def all : List Block := [potential, flux, vorticity]

/-- The number of blocks before a block. -/
def position : Block → Nat
  | potential => 0
  | flux => 1
  | vorticity => 2

def name : Block → String
  | potential => "phi"
  | flux => "psi"
  | vorticity => "w"

def ofName? (name : String) : Option Block := all.find? (·.name = name)

/-- Whether the block follows from the others at every moment. -/
def isAlgebraic : Block → Bool
  | potential => true
  | flux => false
  | vorticity => false

theorem ofName?_name (b : Block) : ofName? b.name = some b := by
  cases b <;> decide

end Block

/-- Three blocks of size `n`, one after the other. -/
structure Layout where
  n : Int
deriving DecidableEq, Repr

namespace Layout

def size (l : Layout) : Int := 3 * l.n

def start (l : Layout) (b : Block) : Int := b.position * l.n

/-- Where the block after a block begins. -/
def stop (l : Layout) (b : Block) : Int := (b.position + 1) * l.n

/-- Refuses an array that is no vector of the size of the state. -/
def check {K : Type} (l : Layout) (shape : List Nat) : Except (Failure K) Unit :=
  if shape.map (Int.ofNat ·) = [l.size] then .ok () else .error (.stateShape l.n shape)

/-- The layout in one line. -/
def summary (l : Layout) : String := "BlockLayout(n=" ++ toString l.n ++ ")"

end Layout

end Magnetofluid
