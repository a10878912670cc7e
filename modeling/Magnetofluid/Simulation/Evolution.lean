import Magnetofluid.Model.Basic

/-!
# Steps in time

How a state is taken through one step in time. The implicit step solves for all three blocks at once; the explicit
schemes take flux and vorticity through the step and recover the stream function afterwards.
-/

namespace Magnetofluid

/-- How a step in time is taken. -/
inductive Integration
  /-- By the backward Euler method. -/
  | implicit
  /-- By the forward Euler method. -/
  | euler
  /-- By the midpoint rule. -/
  | midpoint
deriving DecidableEq, Repr

/-- A state on its way, and what the model remembers. -/
structure Evolution (K : Type) (n : Nat) where
  state : State K n
  memory : Memory K n

/-- An action on a state and the memory of the model. -/
abbrev Evolving (K : Type) (n : Nat) := EStateM (Failure K) (Evolution K n)

variable {K : Type} [Scalar K] {n : Nat}

/-- The state that a rate leads to within a time. -/
def State.advance (x : State K n) (dt : K) (rate : State K n) : State K n :=
  ⟨x.phi + Vec.scale dt rate.phi, x.psi + Vec.scale dt rate.psi, x.w + Vec.scale dt rate.w⟩

namespace Evolution

def evaluate {α : Type} (act : Action K n α) : Evolving K n α := fun s =>
  match act.run s.memory with
  | .ok a memory => .ok a { s with memory }
  | .error e memory => .error e { s with memory }

def advance (dt : K) (rate : State K n) : Evolving K n Unit :=
  modify fun s => { s with state := s.state.advance dt rate }

def recoverPotential (model : Model K n) : Evolving K n Unit := do
  let phi ← evaluate (model.potential (← get).state)
  modify fun s => { s with state := { s.state with phi } }

/-- Takes the state through a step. If the stream function of the new state cannot be recovered, the flux and the
vorticity have gone through the step and the stream function has not. -/
def takeStep (model : Model K n) (integration : Integration) (dt : Number K) : Evolving K n Unit := do
  let x := (← get).state
  match integration with
  | .implicit =>
    -- the stream function is an unknown of the step, and needs no recovery after it
    let rate ← evaluate (model.implicitRate dt x)
    advance (← MonadExcept.ofExcept dt.usable) rate
  | .euler =>
    let rate ← evaluate (model.rate x)
    advance (← MonadExcept.ofExcept dt.usable) rate
    recoverPotential model
  | .midpoint =>
    let rate ← evaluate (model.rate x)
    let size ← MonadExcept.ofExcept dt.usable
    let half := x.advance (0.5 * size) rate
    let phi ← evaluate (model.potential half)
    advance size (← evaluate (model.rate { half with phi }))
    recoverPotential model

end Evolution

end Magnetofluid
