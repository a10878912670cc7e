import Magnetofluid.Linear.Factorization

/-!
# Algebraic multigrid

A hierarchy of ever smaller matrices for a sparse matrix, built from its entries alone: strong couplings,
a splitting of the unknowns into coarse and fine ones, interpolation of the fine unknowns from strong coarse
neighbours, and the coarse matrix `Pᵀ A P`. One V-cycle from zero, with a forward sweep of Gauss-Seidel before
and a backward sweep after the coarse correction, approximates the inverse.

Matrices with at most `Hierarchy.coarsest` unknowns are factorised.
-/

namespace Magnetofluid

variable {K : Type} [Scalar K]

namespace Sparse

/-- One Gauss-Seidel sweep over the unknowns in the given order. A row without diagonal leaves its unknown
as it is. -/
def relax {n : Nat} (A : Sparse K n n) (order : List (Fin n)) (b x : Vec K n) : Vec K n :=
  order.foldl (fun x i =>
    let d := A.entry i i
    if Scalar.isZero d then x
    else Vec.put x i (x.get i + (b.get i - SparseRow.dot (A.rows.get i) x) / d)) x

/-- The columns that row `i` is strongly coupled to: those off the diagonal with a magnitude of at least a
quarter of the largest. -/
def strongNeighbours {n : Nat} (A : Sparse K n n) (i : Fin n) : List (Fin n) :=
  let off := (SparseRow.dropZeros (A.rows.get i)).filter fun p => p.1 ≠ i
  let most := off.foldl (fun m p => Scalar.max m (Scalar.abs p.2)) 0
  (off.filter fun p => Scalar.le (0.25 * most) (Scalar.abs p.2)).map (·.1)

end Sparse

/-- The part an unknown plays in a coarsening. -/
inductive Role
  | undecided
  | coarse
  | fine
deriving DecidableEq

namespace Coarsening

variable {n : Nat}

/-- The unknown with the largest weight among those undecided. -/
def heaviest? (roles : Vector Role n) (weights : Vector Nat n) : Option (Fin n) :=
  (List.finRange n).foldl (fun best i =>
    if roles.get i = .undecided then
      match best with
      | none => some i
      | some k => if weights.get k < weights.get i then some i else some k
    else best) none

/-- Splits the unknowns: the undecided unknown on which most others depend becomes coarse, and those that
depend on it become fine, which raises the weight of their other strong neighbours. -/
def split (strong dependents : Vector (List (Fin n)) n) : (fuel : Nat) → Vector Role n →
    Vector Nat n → Vector Role n
  | 0, roles, _ => roles
  | fuel + 1, roles, weights =>
    match heaviest? roles weights with
    | none => roles
    | some k =>
      let fresh := (dependents.get k).filter fun i => roles.get i = .undecided ∧ i ≠ k
      let roles := fresh.foldl (fun r i => Vec.put r i .fine) (Vec.put roles k .coarse)
      let weights := fresh.foldl (fun w i => (strong.get i).foldl (fun w (j : Fin n) => Vec.put w j (w.get j + 1)) w) weights
      split strong dependents fuel roles weights

/-- The roles of the unknowns of a matrix. Fine unknowns without a strong coarse neighbour become
coarse. -/
def roles (A : Sparse K n n) : Vector Role n :=
  let strong : Vector (List (Fin n)) n := .ofFn A.strongNeighbours
  let dependents : Vector (List (Fin n)) n := (List.finRange n).foldl
    (fun d i => (strong.get i).foldl (fun d (j : Fin n) => Vec.put d j (i :: d.get j)) d) (Vector.replicate n [])
  let r := split strong dependents n (Vector.replicate n .undecided) (dependents.map (·.length))
  .ofFn fun i =>
    if r.get i = .fine ∧ ((strong.get i).any fun j => r.get j = .coarse) then .fine else .coarse

end Coarsening

/-- The levels of a multigrid method, from fine to coarse. -/
inductive Hierarchy (K : Type) : Nat → Type
  /-- A system small enough to be factorised. -/
  | direct {n : Nat} (factors : Factorization K n) : Hierarchy K n
  /-- A system that is only relaxed. -/
  | relaxed {n : Nat} (A : Sparse K n n) : Hierarchy K n
  /-- A system whose smooth errors are corrected on `m` coarse unknowns. -/
  | level {n m : Nat} (A : Sparse K n n) (interpolation : Sparse K n m) (coarse : Hierarchy K m) :
      Hierarchy K n

namespace Hierarchy

/-- The largest number of unknowns of a system that is factorised. -/
def coarsest : Nat := 10

/-- Interpolation from the coarse unknowns: a coarse unknown is taken over, a fine one is a mean of its
strong coarse neighbours, scaled to keep the row sum of the couplings. -/
def interpolation {n : Nat} (A : Sparse K n n) (roles : Vector Role n) (coarse : Array (Fin n)) :
    Sparse K n coarse.size where
  rows := .ofFn fun i =>
    let place (j : Fin n) : Option (Fin coarse.size) := coarse.finIdxOf? j
    if roles.get i = .coarse then (place i).toList.map (·, 1)
    else
      let strong := A.strongNeighbours i
      let off := (SparseRow.dropZeros (A.rows.get i)).filter fun p => p.1 ≠ i
      let chosen := off.filter fun p => roles.get p.1 = .coarse ∧ p.1 ∈ strong
      let total := off.foldl (fun s p => s + p.2) 0
      let kept := chosen.foldl (fun s p => s + p.2) 0
      let d := A.entry i i
      if Scalar.isZero kept || Scalar.isZero d then []
      else chosen.filterMap fun p => (place p.1).map (·, -(p.2 * total) / (kept * d))

/-- The matrix `Pᵀ A P`. -/
def galerkin {n m : Nat} (A : Sparse K n n) (P : Sparse K n m) : Sparse K m m :=
  .ofTriplets m m <| (List.finRange n).flatMap fun i =>
    (P.rows.get i).flatMap fun (p, u) =>
      (A.rows.get i).flatMap fun (j, a) => (P.rows.get j).map fun (q, v) => (p, q, u * a * v)

/-- The residual carried over to the coarse unknowns, `Pᵀ r`. -/
def carryDown {n m : Nat} (P : Sparse K n m) (r : Vec K n) : Vec K m :=
  (List.finRange n).foldl (fun s i =>
    (P.rows.get i).foldl (fun s p => Vec.put s p.1 (s.get p.1 + p.2 * r.get i)) s) (Vec.zeros m)

/-- The hierarchy of a matrix with at most `depth` coarsenings. -/
def build : (depth : Nat) → {n : Nat} → Sparse K n n → Hierarchy K n
  | 0, _, A => (Factorization.ofMatrix? A).elim (.relaxed A) .direct
  | depth + 1, n, A =>
    if n ≤ coarsest then (Factorization.ofMatrix? A).elim (.relaxed A) .direct
    else
      let roles := Coarsening.roles A
      let coarse := ((List.finRange n).filter fun i => roles.get i = .coarse).toArray
      if coarse.size < n then
        let P := interpolation A roles coarse
        .level A P (build depth (galerkin A P))
      else (Factorization.ofMatrix? A).elim (.relaxed A) .direct

def ofMatrix {n : Nat} (A : Sparse K n n) : Hierarchy K n := build n A

/-- One V-cycle from zero. -/
def cycle : {n : Nat} → Hierarchy K n → Vec K n → Vec K n
  | _, .direct factors, b => factors.solve b
  | n, .relaxed A, b =>
    A.relax (List.finRange n).reverse b (A.relax (List.finRange n) b (Vec.zeros n))
  | n, .level A P coarse, b =>
    let x := A.relax (List.finRange n) b (Vec.zeros n)
    let x := x + P.mulVec (coarse.cycle (carryDown P (b - A.mulVec x)))
    A.relax (List.finRange n).reverse b x

end Hierarchy

end Magnetofluid
