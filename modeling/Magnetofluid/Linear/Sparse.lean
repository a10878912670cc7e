import Magnetofluid.Linear.Vector

/-!
# Sparse matrices

A sparse matrix stores, row by row, pairs of a column and a value; a column that is not stored holds zero.
Its meaning is `Sparse.entry`. Stored zeros matter only to numbers that are not finite: a stored zero times
NaN is NaN, a missing entry contributes nothing.

* `ofTriplets` sums the values given for one position and keeps every position that is named.
* Sums, differences and eliminations (`Linear.Elimination`) keep no zeros.
-/

namespace Magnetofluid

/-- The stored entries of one row. -/
abbrev SparseRow (K : Type) (n : Nat) := List (Fin n × K)

/-- A matrix with `m` rows and `n` columns, of which only some entries are stored. -/
structure Sparse (K : Type) (m n : Nat) where
  rows : Vector (SparseRow K n) m

variable {K : Type} [Scalar K] {m n : Nat}

namespace SparseRow

def entry (row : SparseRow K n) (j : Fin n) : K :=
  row.foldl (fun s p => if p.1 = j then s + p.2 else s) 0

@[specialize] def dot (row : SparseRow K n) (x : Vec K n) : K :=
  row.foldl (fun s p => s + p.2 * x.get p.1) 0

@[specialize] def insert (j : Fin n) (a : K) : SparseRow K n → SparseRow K n
  | [] => [(j, a)]
  | (k, b) :: row =>
    if j < k then (j, a) :: (k, b) :: row
    else if j = k then (k, b + a) :: row
    else (k, b) :: insert j a row

/-- Forgets stored zeros. -/
def dropZeros (row : SparseRow K n) : SparseRow K n :=
  row.filter fun p => !Scalar.isZero p.2

/-- The sum of two rows, without zeros. -/
def add (r s : SparseRow K n) : SparseRow K n :=
  (s.foldl (fun t p => insert p.1 p.2 t) r).dropZeros

/-- The difference of two rows, without zeros. -/
def sub (r s : SparseRow K n) : SparseRow K n :=
  (s.foldl (fun t p => insert p.1 (-p.2) t) r).dropZeros

end SparseRow

namespace Sparse

def entry (A : Sparse K m n) (i : Fin m) (j : Fin n) : K :=
  SparseRow.entry (A.rows.get i) j

/-- The matrix that sums the values given for each position. -/
def ofTriplets (m n : Nat) (ts : List (Fin m × Fin n × K)) : Sparse K m n where
  rows := ts.foldl (fun rows t => Vec.put rows t.1 (SparseRow.insert t.2.1 t.2.2 (rows.get t.1)))
    (Vector.replicate m [])

/-- The matrix of dense rows, of which the entries other than zero are stored. -/
def ofDense (rows : Vector (Vec K n) m) : Sparse K m n where
  rows := rows.map fun row =>
    SparseRow.dropZeros (List.ofFn fun j : Fin n => (j, row.get j))

@[specialize] def mulVec (A : Sparse K m n) (x : Vec K n) : Vec K m :=
  A.rows.map fun row => SparseRow.dot row x

def scale (c : K) (A : Sparse K m n) : Sparse K m n where
  rows := A.rows.map fun row => row.map fun p => (p.1, p.2 * c)

def add (A B : Sparse K m n) : Sparse K m n where
  rows := .ofFn fun i => SparseRow.add (A.rows.get i) (B.rows.get i)

def sub (A B : Sparse K m n) : Sparse K m n where
  rows := .ofFn fun i => SparseRow.sub (A.rows.get i) (B.rows.get i)

instance : Add (Sparse K m n) := ⟨add⟩
instance : Sub (Sparse K m n) := ⟨sub⟩

def diagonal (A : Sparse K n n) : Vec K n := .ofFn fun i => A.entry i i

def ofDiagonal (d : Vec K n) : Sparse K n n where
  rows := .ofFn fun i => [(i, d.get i)]

/-- The rows and columns picked out by two maps of positions; `col?` names the new place of a column,
if it has one. -/
def submatrix {p q : Nat} (A : Sparse K m n) (row : Fin p → Fin m) (col? : Fin n → Option (Fin q)) :
    Sparse K p q where
  rows := .ofFn fun i => (A.rows.get (row i)).filterMap fun (j, a) => (col? j).map (·, a)

theorem get_mulVec (A : Sparse K m n) (x : Vec K n) (i : Fin m) :
    (A.mulVec x).get i = SparseRow.dot (A.rows.get i) x := by
  simp [mulVec]

end Sparse

end Magnetofluid
