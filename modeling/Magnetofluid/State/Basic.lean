import Magnetofluid.Linear.Vector
import Magnetofluid.State.Layout

/-!
# States

A state by its three blocks, and the passage between a state and the single vector that holds the blocks one
after the other. `State.ofVec_toVec` and `State.toVec_ofVec`: the two are inverse to each other.
-/

namespace Magnetofluid

/-- A state of the fluid on `n` nodes: stream function, magnetic flux and vorticity. -/
structure State (K : Type) (n : Nat) where
  phi : Vec K n
  psi : Vec K n
  w : Vec K n

namespace State

variable {K : Type} {n : Nat}

def zeros [Scalar K] (n : Nat) : State K n := ⟨Vec.zeros n, Vec.zeros n, Vec.zeros n⟩

def block (s : State K n) : Block → Vec K n
  | .potential => s.phi
  | .flux => s.psi
  | .vorticity => s.w

def setBlock (s : State K n) (b : Block) (x : Vec K n) : State K n :=
  match b with
  | .potential => { s with phi := x }
  | .flux => { s with psi := x }
  | .vorticity => { s with w := x }

def toVec (s : State K n) : Vec K (3 * n) := Vec.stack s.phi s.psi s.w

/-- The place of an entry of a block in the vector of all blocks. -/
def place (b : Block) (i : Fin n) : Fin (3 * n) :=
  ⟨b.position * n + i, by cases b <;> simp [Block.position] <;> omega⟩

def ofVec (x : Vec K (3 * n)) : State K n where
  phi := .ofFn fun i => x.get (place .potential i)
  psi := .ofFn fun i => x.get (place .flux i)
  w := .ofFn fun i => x.get (place .vorticity i)

/-- The state of a vector of unchecked length. -/
def ofArray (n : Nat) (xs : Array K) : Except (Failure K) (State K n) :=
  match Vec.ofArray? (3 * n) xs with
  | some x => .ok (ofVec x)
  | none => .error (.stateShape n [xs.size])

theorem ofVec_toVec (s : State K n) : ofVec s.toVec = s := by
  obtain ⟨phi, psi, w⟩ := s
  simp only [ofVec, mk.injEq]
  refine ⟨?_, ?_, ?_⟩ <;> ext i h
  · simp [toVec, Vec.stack, place, Block.position]
  · simp [toVec, Vec.stack, place, Block.position]
  · simp [toVec, Vec.stack, place, Block.position, Vector.getElem_append,
      show ¬ 2 * n + i < n by omega, show ¬ 2 * n + i - n < n by omega,
      show 2 * n + i - n - n = i by omega]

theorem toVec_ofVec (x : Vec K (3 * n)) : (ofVec x).toVec = x := by
  ext i h
  simp only [toVec, Vec.stack, ofVec, place, Block.position, Vector.getElem_cast, Vector.getElem_append]
  split
  · split
    · simp
    · simp; congr 1; omega
  · simp; congr 1; omega

end State

end Magnetofluid
