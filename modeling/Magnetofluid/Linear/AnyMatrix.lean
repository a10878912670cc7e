import Magnetofluid.Failure
import Magnetofluid.Linear.Elimination
import Magnetofluid.Tensor

/-!
# Matrices and vectors of unchecked size

The operations of `Linear.Elimination` for callers whose sizes and indices are not known to fit. Indices may be
negative, then they count from the end, and may repeat. Each operation reports an index out of range before
sizes that do not fit.
-/

namespace Magnetofluid

structure AnyMatrix (K : Type) where
  rows : Nat
  columns : Nat
  matrix : Sparse K rows columns

namespace AnyMatrix

variable {K : Type} [Scalar K]

/-- The matrix with `n` rows and columns, if it has that size. -/
def square? (n : Nat) : AnyMatrix K → Option (Sparse K n n)
  | ⟨rows, columns, A⟩ =>
    if h : rows = n ∧ columns = n then some (cast (by rw [h.1, h.2]) A) else none

/-- The matrix of dense rows. A vector is the only row of a matrix. -/
def ofTensor? : AnyTensor K → Option (AnyMatrix K)
  | ⟨[rows, columns], entries⟩ =>
    let entries : Vector (Vec K columns) rows := entries
    some ⟨rows, columns, .ofDense entries⟩
  | ⟨[columns], row⟩ =>
    let row : Vec K columns := row
    some ⟨1, columns, .ofDense (Vector.replicate 1 row)⟩
  | _ => none

def add? (A B : AnyMatrix K) : Except (Failure K) (AnyMatrix K) :=
  match A.square? A.rows, B.square? A.rows with
  | some A', some B' => .ok ⟨A.rows, A.rows, A' + B'⟩
  | _, _ => .error .shape

def diagonal (A : AnyMatrix K) : List K :=
  List.ofFn fun i : Fin (Nat.min A.rows A.columns) =>
    A.matrix.entry (i.castLE (Nat.min_le_left ..)) (i.castLE (Nat.min_le_right ..))

def mulVec? (A : AnyMatrix K) (x : Array K) : Except (Failure K) (Array K) :=
  (Vec.ofArray? A.columns x).elim (.error .shape) fun x => .ok (A.matrix.mulVec x).toArray

/-- The set of positions among `n` that indices name. -/
def essential (n : Nat) (indices : List Int) : Except (Failure K) (Essential n) :=
  (Essential.ofIndices? n indices).elim (.error .index) .ok

/-- A square matrix with the set that indices name among its rows. -/
def withEssential (A : AnyMatrix K) (indices : List Int) :
    Except (Failure K) (Sparse K A.rows A.rows × Essential A.rows) := do
  let ess ← essential A.rows indices
  match A.square? A.rows with
  | some B => return (B, ess)
  | none => throw .shape

/-- `Sparse.eliminate` for the rows and columns that indices name. -/
def eliminate? (A : AnyMatrix K) (indices : List Int) : Except (Failure K) (AnyMatrix K) := do
  let (B, ess) ← A.withEssential indices
  return ⟨_, _, B.eliminate ess⟩

/-- `Sparse.replaceRows` for the rows that indices name. -/
def replaceRows? (A : AnyMatrix K) (indices : List Int) (diag : K) :
    Except (Failure K) (AnyMatrix K) := do
  let (B, rows) ← A.withEssential indices
  return ⟨_, _, B.replaceRows rows diag⟩

/-- `Sparse.eliminateRhs` for the entries that indices name in `x` and in `b`. -/
def eliminateRhs? (A : AnyMatrix K) (indices : List Int) (x b : Array K) :
    Except (Failure K) (Array K) := do
  let some source := indices.mapM (position? x.size) | throw .index
  let some target := indices.mapM (position? b.size) | throw .index
  let data : Vec K b.size := (List.zip target source).foldl
    (fun d p => Vec.put d p.1 ((Vec.ofEntries x).get p.2)) (Vec.zeros b.size)
  match A.square? b.size with
  | some B => return (B.eliminateRhs (.ofList target) data (Vec.ofEntries b)).toArray
  | none => throw .shape

/-- `Sparse.eliminateSystem`: the matrix, the guess and the right-hand side. -/
def eliminateSystem? (A : AnyMatrix K) (indices : List Int) (x b : Array K) :
    Except (Failure K) (AnyMatrix K × Array K × Array K) := do
  let S ← A.eliminate? indices
  return (S, x, ← A.eliminateRhs? indices x b)

end AnyMatrix

end Magnetofluid
