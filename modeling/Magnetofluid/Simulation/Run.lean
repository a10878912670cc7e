import Magnetofluid.Simulation.Basic

/-!
# Runs

A run takes a simulation step by step to its end, or to the step in which a signal asks it to stop, and writes on the
way. When it is over, history and final state are saved and the solves are given up.
-/

namespace Magnetofluid

/-- The signals that a running simulation listens to. -/
inductive Signal
  | hangup
  | interrupt
  | user1
  | user2
  | terminate
deriving DecidableEq, Repr

namespace Signal

def all : List Signal := [hangup, interrupt, user1, user2, terminate]

def number : Signal → Int
  | hangup => 1
  | interrupt => 2
  | user1 => 10
  | user2 => 12
  | terminate => 15

/-- The signal whose number a value is. -/
def ofValue? {K : Type} [RealText K] (v : Value K) : Option Signal :=
  v.number?.bind fun x => all.find? fun s => Value.sameNumber x (.int s.number)

def stops : Signal → Bool
  | user2 => false
  | _ => true

end Signal

namespace Simulation

variable {K : Type} [RealText K] {m : Mesh K}

def receive (signal : Signal) : Simulating m Unit :=
  if signal.stops then modify fun s => { s with stopping := true } else return

/-- Whether the step that was just taken is one after which a run writes. -/
def isWriteDue : Simulating m Bool := do
  let p ← standing
  MonadExcept.ofExcept ((← setting (·.writeFreq)).divides p.step)

/-- Begins a run: starts the simulation, unless it was started before, and writes its first state. -/
def beginRun : Simulating m Unit := do
  if (← get).progress.isNone then start
  modify fun s => { s with stopping := false }
  printHeader
  write

def goesOn : Simulating m Bool := do
  if ← isFinished then return false
  return !(← get).stopping

/-- One step of a run, with the signals that arrive in it. -/
def turn (signals : List Signal) : Simulating m Unit := do
  update
  postUpdate
  signals.forM receive
  if ← isWriteDue then write

/-- Ends a run that began at a moment. -/
def endRun (began : Moment) : Simulating m Unit := do
  unless ← isWriteDue do write
  let p ← standing
  let elapsed := began.since (← get).workspace.now
  let rule := Text.repeated 33 "="
  tell rule
  tell ("Total walltime   :  " ++ Moment.durationText elapsed)
  tell ("(" ++ Moment.speedText p.step.toNat elapsed ++ " steps/s)")
  tell rule
  unlessSilent do
    saveHistory
    save ["state.npz"]
  evolve fun _ => Evolution.evaluate Model.release

/-- At most `fuel` steps of a run, of which `taken` are taken already. `signals` tells which signals arrive in which
step. -/
def turns (signals : Nat → List Signal) : (fuel taken : Nat) → Simulating m Unit
  | 0, _ => return
  | fuel + 1, taken => do
    if ← goesOn then
      turn (signals (taken + 1))
      turns signals fuel (taken + 1)

/-- How many times it has to be asked whether a run goes on. -/
def turnBound (s : Simulation m) : Nat :=
  match s.progress, s.schedule.maxIt with
  | some p, .ok maxIt => maxIt.stepsFrom p.step + 1
  | _, _ => 1

def run (signals : Nat → List Signal) : Simulating m Unit := do
  beginRun
  let s ← get
  turns signals s.turnBound 0
  endRun s.workspace.now

end Simulation

end Magnetofluid
