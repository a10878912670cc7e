import Magnetofluid.Krylov.Settings
import Magnetofluid.Linear.Sparse

/-!
# Preconditioned conjugate gradients

Each round begins with the stopping test `‖r‖ < tolerance`; a tolerance reached by the last allowed round is
therefore not noticed. The residual is carried along by its recurrence.
-/

namespace Magnetofluid.Krylov.ConjugateGradient

variable {K : Type} [Scalar K] {n : Nat}

/-- The iterate, its residual, and the last search direction with the inner product `r · z` it came from. -/
structure State (K : Type) (n : Nat) where
  x : Vec K n
  r : Vec K n
  last : Option (Vec K n × K)

/-- One round for the matrix `A` and the preconditioner `P`. -/
@[specialize] def step (A : Sparse K n n) (P : Vec K n → Vec K n) (s : State K n) : State K n :=
  let z := P s.r
  let rho := Vec.dot s.r z
  let p := match s.last with
    | none => z
    | some (p, rho') => Vec.scale (rho / rho') p + z
  let q := A.mulVec p
  let alpha := rho / Vec.dot p q
  { x := Vec.addScaled s.x alpha p
    r := Vec.subScaled s.r alpha q
    last := some (p, rho) }

/-- At most `rounds` rounds, of which `done` have been made before. A run out of rounds has converged only if
`exhausted` says so. -/
@[specialize] def iterate (A : Sparse K n n) (P : Vec K n → Vec K n) (tolerance : K) (exhausted : Bool) :
    (rounds : Nat) → (done : Nat) → State K n → Attempt K n
  | 0, done, s => ⟨s.x, done, exhausted⟩
  | rounds + 1, done, s =>
    if Scalar.lt (Vec.norm s.r) tolerance then ⟨s.x, done, true⟩
    else iterate A P tolerance exhausted rounds (done + 1) (step A P s)

/-- Solves `A x = b` from the guess `x₀`. A right-hand side of norm zero is its own solution; with no rounds
allowed the guess is taken as it is. -/
@[specialize] def solve (A : Sparse K n n) (P : Vec K n → Vec K n) (rtol atol : K) (maxIter : Int)
    (b x₀ : Vec K n) : Attempt K n :=
  let size := Vec.norm b
  if Scalar.isZero size then ⟨b, 0, true⟩
  else
    let r := if x₀.isZero then b else b - A.mulVec x₀
    iterate A P (Scalar.max atol (rtol * size)) (maxIter = 0) maxIter.toNat 0 ⟨x₀, r, none⟩

end Magnetofluid.Krylov.ConjugateGradient
