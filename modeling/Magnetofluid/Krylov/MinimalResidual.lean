import Magnetofluid.Krylov.Settings
import Magnetofluid.Linear.Sparse

/-!
# Restarted generalised minimal residuals

Left-preconditioned GMRES. A cycle builds an orthonormal basis of the Krylov space by modified Gram-Schmidt and
keeps the triangular form of the projected matrix up to date by Givens rotations, so that the norm of the
preconditioned residual is known in every step.

The cycle stops at `innerTolerance` on that norm, the solve at `tolerance` on the norm of the true residual.
Between cycles the inner tolerance is tightened when it was met in vain and relaxed when it was not.
-/

namespace Magnetofluid.Krylov.MinimalResidual

variable {K : Type} [Scalar K] {n : Nat}

/-- A column of the triangular matrix: what stands above the diagonal, and the diagonal entry. -/
structure Column (K : Type) where
  above : List K
  diagonal : K

structure Rotation (K : Type) where
  c : K
  s : K

/-- The rotation that turns `(f, g)` into `(r, 0)`, and `r`. -/
def Rotation.annihilating (f g : K) : Rotation K × K :=
  if Scalar.isZero g then (⟨1, 0⟩, f)
  else if Scalar.isZero f then
    (⟨0, if Scalar.lt g 0 then -1 else 1⟩, Scalar.abs g)
  else
    let d := Scalar.sqrt (f * f + g * g)
    let r := if Scalar.lt f 0 then -d else d
    (⟨Scalar.abs f / d, g / r⟩, r)

/-- Applies the rotations of earlier columns to a new one, from the top: the rotated entries above the last,
and the last. -/
def rotateColumn : List (Rotation K) → K → List K → List K × K
  | [], a, _ => ([], a)
  | _ :: _, a, [] => ([], a)
  | ⟨c, s⟩ :: rotations, a, b :: rest =>
    let (above, last) := rotateColumn rotations (-s * a + c * b) rest
    ((c * a + s * b) :: above, last)

/-- The entries of `w` along the basis vectors, and what is left of `w` without them. -/
@[specialize] def orthogonalize (basis : List (Vec K n)) (w : Vec K n) : List K × Vec K n :=
  basis.foldl (fun (h, w) v =>
    let a := Vec.dot v w
    (h ++ [a], Vec.subScaled w a v)) ([], w)

/-- The state of a cycle. The lists of rotations and of basis vectors run from the first to the last, the
columns from the last to the first. -/
structure Cycle (K : Type) (n : Nat) where
  basis : List (Vec K n)
  /-- The basis vector of the next step. -/
  next : Vec K n
  rotations : List (Rotation K)
  columns : List (Column K)
  /-- The rotated right-hand side, from the last finished entry to the first. -/
  rhs : List K
  /-- The entry of the right-hand side that the next step rotates. -/
  pending : K
  residual : K
  breakdown : Bool

/-- One step of a cycle for the preconditioned product `apply`. -/
@[specialize] def Cycle.step (apply : Vec K n → Vec K n) (cy : Cycle K n) : Cycle K n :=
  let basis := cy.basis ++ [cy.next]
  let w := apply cy.next
  let before := Vec.norm w
  let (h, w) := orthogonalize basis w
  let left := Vec.norm w
  -- what is left may be rounding alone, and then there is no further direction
  let breakdown := Scalar.le left (Scalar.roundoff * before)
  let (below, next) := if breakdown then (0, w) else (left, Vec.scale (1 / left) w)
  let (above, last) := rotateColumn cy.rotations (h.headD 0) h.tail
  let (rotation, diagonal) := Rotation.annihilating last below
  let pending := -rotation.s * cy.pending
  { basis, next
    rotations := cy.rotations ++ [rotation]
    columns := ⟨above, diagonal⟩ :: cy.columns
    rhs := (rotation.c * cy.pending) :: cy.rhs
    pending
    residual := Scalar.abs pending
    breakdown }

/-- At most `steps` further steps of a cycle, until the residual is within the inner tolerance or the basis
cannot be extended. -/
@[specialize] def Cycle.iterate (apply : Vec K n → Vec K n) (innerTolerance : K) :
    (steps : Nat) → Cycle K n → Cycle K n
  | 0, cy => cy
  | steps + 1, cy =>
    let cy := cy.step apply
    if Scalar.le cy.residual innerTolerance || cy.breakdown then cy
    else iterate apply innerTolerance steps cy

/-- Backward substitution in the triangular system; the coordinates from the first to the last. -/
def substitute : List (Column K) → (rhs : List K) → (found : List K) → List K
  | column :: columns, g :: rhs, found =>
    let y := if Scalar.isZero g then g else g / column.diagonal
    let rhs := if Scalar.isZero y then rhs
      else List.zipWith (fun g a => g - y * a) rhs column.above.reverse
    substitute columns rhs (y :: found)
  | _, _, found => found

/-- The coordinates of the correction in the basis. A last column with a zero diagonal contributes nothing. -/
def Cycle.coordinates (cy : Cycle K n) : List K :=
  match cy.columns, cy.rhs with
  | column :: _, _ :: rhs =>
    if Scalar.isZero column.diagonal then substitute cy.columns (0 :: rhs) []
    else substitute cy.columns cy.rhs []
  | _, _ => []

@[specialize] def Cycle.correction (cy : Cycle K n) : Vec K n :=
  (List.zip cy.coordinates cy.basis).foldl (fun u (y, v) => Vec.addScaled u y v) (Vec.zeros n)

/-- What a solve keeps from one restart to the next. -/
structure State (K : Type) (n : Nat) where
  x : Vec K n
  r : Vec K n
  innerTolerance : K
  factor : K
  iterations : Nat

/-- The system of a solve: matrix, preconditioner, right-hand side, the tolerance on its residual and the
length of a cycle. -/
structure Problem (K : Type) (n : Nat) where
  matrix : Sparse K n n
  precondition : Vec K n → Vec K n
  rhs : Vec K n
  tolerance : K
  restart : Nat

/-- The cycle that starts from a residual. -/
@[specialize] def Problem.cycle (p : Problem K n) (s : State K n) : Cycle K n :=
  let z := p.precondition s.r
  let size := Vec.norm z
  Cycle.iterate (fun v => p.precondition (p.matrix.mulVec v)) s.innerTolerance p.restart
    { basis := [], next := Vec.scale (1 / size) z, rotations := [], columns := [], rhs := []
      pending := size, residual := 0, breakdown := false }

/-- At most `cycles` cycles. -/
@[specialize] def Problem.iterate (p : Problem K n) : (cycles : Nat) → State K n → Attempt K n
  | 0, s => ⟨s.x, s.iterations, false⟩
  | cycles + 1, s =>
    let cy := p.cycle s
    let x := s.x + cy.correction
    let r := p.rhs - p.matrix.mulVec x
    let size := Vec.norm r
    let iterations := s.iterations + cy.columns.length
    if Scalar.le size p.tolerance then ⟨x, iterations, true⟩
    else if cy.breakdown then ⟨x, iterations, false⟩
    else
      -- a cycle measures the preconditioned residual; its tolerance follows what came of it for the true one
      let factor := if Scalar.le cy.residual s.innerTolerance
        then Scalar.max Scalar.roundoff (0.25 * s.factor)
        else Scalar.min 1 (1.5 * s.factor)
      let innerTolerance := cy.residual * Scalar.min factor (p.tolerance / size)
      p.iterate cycles ⟨x, r, innerTolerance, factor, iterations⟩

/-- Solves `A x = b` from the guess `x₀` with cycles of at most `restart` steps. -/
@[specialize] def solve (A : Sparse K n n) (P : Vec K n → Vec K n) (rtol atol : K) (restart : Nat)
    (maxIter : Int) (b x₀ : Vec K n) : Attempt K n :=
  let size := Vec.norm b
  if Scalar.isZero size then ⟨b, 0, true⟩
  else
    let tolerance := Scalar.max atol (rtol * size)
    let r := if x₀.isZero then b else b - A.mulVec x₀
    if Scalar.lt (Vec.norm r) tolerance then ⟨x₀, 0, true⟩
    else
      let inner := Vec.norm (P b) * Scalar.min 1 (tolerance / size)
      Problem.iterate ⟨A, P, b, tolerance, Nat.min restart n⟩ maxIter.toNat ⟨x₀, r, inner, 1, 0⟩

end Magnetofluid.Krylov.MinimalResidual
