import Magnetofluid.Linear.Sparse

/-!
# Essential boundary data

Elimination of prescribed entries from a linear system `A x = b`. The system that results has the prescribed
values in its right-hand side and an identity row and column for each of them, so that it is symmetric when
`A` is.
-/

namespace Magnetofluid

/-- A set of positions whose values are prescribed. -/
structure Essential (n : Nat) where
  marked : Vector Bool n

namespace Essential

variable {n : Nat}

def contains (ess : Essential n) (i : Fin n) : Bool := ess.marked.get i

instance : Membership (Fin n) (Essential n) := ⟨fun ess i => ess.contains i = true⟩

instance (ess : Essential n) (i : Fin n) : Decidable (i ∈ ess) :=
  inferInstanceAs (Decidable (ess.contains i = true))

def ofList (is : List (Fin n)) : Essential n where
  marked := is.foldl (fun marked (i : Fin n) => Vec.put marked i true) (Vector.replicate n false)

/-- The set of the positions that a list of indices names; `none` if one names none. -/
def ofIndices? (n : Nat) (is : List Int) : Option (Essential n) :=
  (is.mapM (position? n)).map ofList

def toList (ess : Essential n) : List (Fin n) :=
  (List.finRange n).filter ess.contains

end Essential

variable {K : Type} [Scalar K] {n : Nat}

namespace Vec

/-- The vector with zeros at the essential positions. -/
def zeroOn (ess : Essential n) (x : Vec K n) : Vec K n :=
  .ofFn fun i => if i ∈ ess then 0 else x.get i

/-- The vector that agrees with `data` at the essential positions and with `x` elsewhere. -/
def overwriteOn (ess : Essential n) (data x : Vec K n) : Vec K n :=
  .ofFn fun i => if i ∈ ess then data.get i else x.get i

/-- The part of a vector on the essential positions, zero elsewhere. -/
def restrictTo (ess : Essential n) (x : Vec K n) : Vec K n :=
  .ofFn fun i => if i ∈ ess then x.get i else 0

end Vec

namespace Sparse

/-- The matrix without its essential rows and columns, with a unit diagonal in their place. -/
def eliminate (A : Sparse K n n) (ess : Essential n) : Sparse K n n where
  rows := .ofFn fun i =>
    if i ∈ ess then [(i, 1)]
    else SparseRow.dropZeros ((A.rows.get i).filter fun p => !ess.contains p.1)

/-- The right-hand side that goes with `eliminate`: interior rows are corrected by the prescribed values,
essential rows hold them. -/
def eliminateRhs (A : Sparse K n n) (ess : Essential n) (data b : Vec K n) : Vec K n :=
  Vec.overwriteOn ess data (b - A.mulVec (Vec.restrictTo ess data))

/-- A linear system with essential data eliminated: matrix, initial guess and right-hand side. -/
structure Eliminated (K : Type) (n : Nat) where
  matrix : Sparse K n n
  guess : Vec K n
  rhs : Vec K n

/-- Applies the essential data in `x` to `A x = b`. -/
def eliminateSystem (A : Sparse K n n) (ess : Essential n) (x b : Vec K n) : Eliminated K n where
  matrix := A.eliminate ess
  guess := x
  rhs := A.eliminateRhs ess x b

/-- Replaces the marked rows by `diag` times the rows of the identity. -/
def replaceRows (A : Sparse K n n) (marked : Essential n) (diag : K) : Sparse K n n where
  rows := .ofFn fun i =>
    if i ∈ marked then SparseRow.dropZeros [(i, diag * 1)]
    else SparseRow.add (SparseRow.dropZeros (A.rows.get i)) (SparseRow.dropZeros [(i, diag * 0)])

end Sparse

end Magnetofluid
