import Magnetofluid.Model.Operators
import Magnetofluid.Number
import Magnetofluid.State.Basic

/-!
# A backward-Euler step

The nonlinear system of one implicit step. Its unknown is the state at the end of the step; its residual has
the blocks

* `K phi + M w`, the constraint on the stream function,
* `M (psi - psi₀) / dt + N psi + D psi + E`,
* `M (w - w₀) / dt + N w + D w - B j`,

where `N` and `B` are the brackets of stream function and flux of the unknown and `j` is the current of its flux.
All essential rows are zero. `Step.gradient` is the linearisation with `N` held fixed and without the changes of
`N`, `B` and `j`; its essential rows are rows of the identity.
-/

namespace Magnetofluid

structure Step (K : Type) (n : Nat) where
  dt : Number K
  start : State K n

namespace Step

variable {K : Type} [Scalar K] {n : Nat}

/-- The rate at which a vector has changed from its start. -/
def rate (s : Step K n) (start x : Vec K n) : Vec K n :=
  let dt := s.dt.toScalar
  .ofFn fun i => (x.get i - start.get i) / dt

/-- The residual at a state, given the brackets of its stream function and its flux and its current. -/
def residual (s : Step K n) (ops : Operators K n) (forcing : Option (Vec K n)) (flow field : Sparse K n n)
    (j : Vec K n) (x : State K n) : State K n :=
  let constraint := ops.stiffnessSystem.mulVec x.phi + ops.massSystem.mulVec x.w
  let flux := ops.massSystem.mulVec (s.rate s.start.psi x.psi) + flow.mulVec x.psi
  let flux := Vec.plusProduct? flux ops.resistive x.psi
  let flux := match forcing with
    | none => flux
    | some e => flux + e
  let vorticity := ops.massSystem.mulVec (s.rate s.start.w x.w) + flow.mulVec x.w
  let vorticity := Vec.plusProduct? vorticity ops.viscous x.w - field.mulVec j
  ⟨Vec.zeroOn ops.ess constraint, Vec.zeroOn ops.ess flux, Vec.zeroOn ops.ess vorticity⟩

/-- A row with its columns in a block of the state. -/
def rowIn (b : Block) (row : SparseRow K n) : SparseRow K (3 * n) :=
  row.map fun (j, a) => (State.place b j, a)

/-- The matrix on states with three diagonal blocks and one block that takes vorticity to the constraint. -/
def blockMatrix (potential coupling flux vorticity : Sparse K n n) : Sparse K (3 * n) (3 * n) where
  rows := Vec.stack
    (potential.rows.zipWith (fun r s => rowIn .potential r ++ rowIn .vorticity s) coupling.rows)
    (flux.rows.map (rowIn .flux)) (vorticity.rows.map (rowIn .vorticity))

def essential (ess : Essential n) : Essential (3 * n) where
  marked := Vec.stack ess.marked ess.marked ess.marked

def gradient (s : Step K n) (ops : Operators K n) (flow : Sparse K n n) : Sparse K (3 * n) (3 * n) :=
  let perStep := ops.massSystem.scale (1 / s.dt.toScalar)
  let diffused (D : Option (Sparse K n n)) : Sparse K n n :=
    match D with
    | none => perStep + flow
    | some D => perStep + flow + D
  (blockMatrix ops.stiffnessSystem ops.massSystem (diffused ops.resistive) (diffused ops.viscous)).replaceRows
    (essential ops.ess) 1

end Step

end Magnetofluid
