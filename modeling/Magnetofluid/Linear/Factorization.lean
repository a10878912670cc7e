import Magnetofluid.Linear.Sparse

/-!
# Triangular factorisation

Gaussian elimination of a sparse square matrix with partial pivoting. The columns are eliminated in order;
the rows that still wait are kept by the column of their first entry, so that a banded matrix is eliminated
within its band.

* `Factorization.ofMatrix?` fails exactly when some column is left without a pivot.
* `Factorization.solve` replays the row operations on a right-hand side and substitutes backwards.
-/

namespace Magnetofluid

variable {K : Type} [Scalar K] {n : Nat}

/-- The row `r - f s`, without zeros. -/
@[specialize] def SparseRow.subScaled (f : K) (r s : SparseRow K n) : SparseRow K n :=
  match r, s with
  | r, [] => r
  | [], (j, b) :: s => (j, -(f * b)) :: subScaled f [] s
  | (i, a) :: r, (j, b) :: s =>
    if i < j then (i, a) :: subScaled f r ((j, b) :: s)
    else if j < i then (j, -(f * b)) :: subScaled f ((i, a) :: r) s
    else
      let c := a - f * b
      if Scalar.isZero c then subScaled f r s else (i, c) :: subScaled f r s
  termination_by r.length + s.length

/-- A row of a matrix with the number it has there. -/
structure NumberedRow (K : Type) (n : Nat) where
  number : Fin n
  entries : SparseRow K n

/-- A row subtracted during elimination: `factor` times the row `source` was taken from `target`. -/
structure RowOperation (K : Type) (n : Nat) where
  source : Fin n
  target : Fin n
  factor : K

/-- A row of the upper triangular factor: the row number, the pivot with its column, and what stands right
of the pivot. -/
structure PivotRow (K : Type) (n : Nat) where
  number : Fin n
  column : Fin n
  pivot : K
  rest : SparseRow K n

/-- A factorised matrix: the row operations in the order they were made, and the pivot rows from the last
column to the first. -/
structure Factorization (K : Type) (n : Nat) where
  operations : Array (RowOperation K n)
  pivots : List (PivotRow K n)

namespace Factorization

/-- The state of an elimination: the rows that wait, by the column of their first entry, and the factors so
far. -/
structure Progress (K : Type) (n : Nat) where
  waiting : Vector (List (NumberedRow K n)) n
  factors : Factorization K n

/-- Puts a row among those that wait. A row without entries is dropped. -/
def enqueue (waiting : Vector (List (NumberedRow K n)) n) (row : NumberedRow K n) :
    Vector (List (NumberedRow K n)) n :=
  match row.entries with
  | [] => waiting
  | (j, _) :: _ => Vec.put waiting j (row :: waiting.get j)

/-- The magnitude of the first entry of a row. -/
def leading (row : NumberedRow K n) : K :=
  match row.entries with
  | [] => 0
  | (_, a) :: _ => Scalar.abs a

/-- Of a row and a list, the row with the largest leading magnitude and the other rows. -/
def selectPivot (row : NumberedRow K n) :
    List (NumberedRow K n) → NumberedRow K n × List (NumberedRow K n)
  | [] => (row, [])
  | other :: rows =>
    if Scalar.lt (leading row) (leading other) then
      let (best, rest) := selectPivot other rows
      (best, row :: rest)
    else
      let (best, rest) := selectPivot row rows
      (best, other :: rest)

def eliminateColumn (p : Progress K n) (j : Fin n) : Option (Progress K n) :=
  match p.waiting.get j with
  | [] => none
  | first :: others =>
    let (best, rest) := selectPivot first others
    match best.entries with
    | [] => none
    | (_, pivot) :: tail =>
      some <| rest.foldl (fun p row =>
        match row.entries with
        | [] => p
        | (_, a) :: entries =>
          -- the entries in the column cancel, so that only what stands right of them is subtracted
          let factor := a / pivot
          { waiting := enqueue p.waiting ⟨row.number, SparseRow.subScaled factor entries tail⟩
            factors := { p.factors with
              operations := p.factors.operations.push ⟨best.number, row.number, factor⟩ } })
        { p with factors := { p.factors with
            pivots := ⟨best.number, j, pivot, tail⟩ :: p.factors.pivots } }

/-- The factorisation of a matrix, if every column has a pivot. -/
def ofMatrix? (A : Sparse K n n) : Option (Factorization K n) := do
  let start := (List.finRange n).foldl
    (fun waiting i => enqueue waiting ⟨i, SparseRow.dropZeros (A.rows.get i)⟩) (Vector.replicate n [])
  let done ← (List.finRange n).foldlM eliminateColumn ⟨start, ⟨#[], []⟩⟩
  return done.factors

def solve (f : Factorization K n) (b : Vec K n) : Vec K n :=
  let y := f.operations.foldl
    (fun y op => Vec.put y op.target (y.get op.target - op.factor * y.get op.source)) b
  f.pivots.foldl
    (fun x p => Vec.put x p.column ((y.get p.number - SparseRow.dot p.rest x) / p.pivot)) (Vec.zeros n)

end Factorization

end Magnetofluid
