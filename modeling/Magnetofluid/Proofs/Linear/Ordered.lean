import Mathlib
import Magnetofluid.Proofs.Linear.Elimination

/-!
# Rows in the order of their columns

Rows are merged as lists, so that a row operation is the operation on entries only where no column is stored twice and
the columns increase.  Assembly inserts in order, and what is made of ordered rows afterwards stays in order.

* `SparseRow.Sorted`, `SparseRow.Normal`: the columns increase; no zero is stored either.
* `Sparse.sorted_ofTriplets`: an assembled matrix is in order.
* `Sparse.Sorted.scale`, `Sparse.Sorted.add`, `Sparse.Sorted.eliminate`, `Sparse.Sorted.replaceRows`,
  `Sparse.Sorted.submatrix`: so are matrices made of matrices in order.
-/

namespace Magnetofluid

variable {m n : ℕ}

namespace SparseRow

def Sorted (row : SparseRow ℝ n) : Prop := row.Pairwise fun p q => p.1 < q.1

/-- The columns of a row increase and no zero is stored. -/
structure Normal (row : SparseRow ℝ n) : Prop where
  sorted : row.Sorted
  ne_zero : ∀ p ∈ row, p.2 ≠ 0

theorem Sorted.cons {p : Fin n × ℝ} {row : SparseRow ℝ n} (h : row.Sorted) (hp : ∀ q ∈ row, p.1 < q.1) :
    Sorted (p :: row) :=
  List.Pairwise.cons hp h

theorem Sorted.head_lt {p : Fin n × ℝ} {row : SparseRow ℝ n} (h : Sorted (p :: row)) : ∀ q ∈ row, p.1 < q.1 :=
  (List.pairwise_cons.1 h).1

theorem Sorted.tail {p : Fin n × ℝ} {row : SparseRow ℝ n} (h : Sorted (p :: row)) : row.Sorted :=
  (List.pairwise_cons.1 h).2

theorem sorted_singleton (p : Fin n × ℝ) : Sorted [p] := List.pairwise_singleton _ p

theorem Normal.cons {p : Fin n × ℝ} {row : SparseRow ℝ n} (h : row.Normal) (hp : ∀ q ∈ row, p.1 < q.1)
    (hzero : p.2 ≠ 0) : Normal (p :: row) :=
  ⟨h.sorted.cons hp, List.forall_mem_cons.2 ⟨hzero, h.ne_zero⟩⟩

theorem Normal.tail {p : Fin n × ℝ} {row : SparseRow ℝ n} (h : Normal (p :: row)) : row.Normal :=
  ⟨h.sorted.tail, (List.forall_mem_cons.1 h.ne_zero).2⟩

/-- Insertion brings in no column but the one that is inserted. -/
theorem forall_column_insert {P : Fin n → Prop} {j : Fin n} {row : SparseRow ℝ n} (hj : P j)
    (hrow : ∀ p ∈ row, P p.1) (a : ℝ) : ∀ p ∈ row.insert j a, P p.1 := by
  induction row with
  | nil => exact List.forall_mem_singleton.2 hj
  | cons q row ih =>
    obtain ⟨hq, htail⟩ := List.forall_mem_cons.1 hrow
    unfold insert
    split_ifs
    · exact List.forall_mem_cons.2 ⟨hj, hrow⟩
    · exact List.forall_mem_cons.2 ⟨hq, htail⟩
    · exact List.forall_mem_cons.2 ⟨hq, ih htail⟩

theorem Sorted.insert {row : SparseRow ℝ n} (h : row.Sorted) (j : Fin n) (a : ℝ) : (row.insert j a).Sorted := by
  induction row with
  | nil => exact sorted_singleton _
  | cons q row ih =>
    obtain ⟨k, b⟩ := q
    unfold SparseRow.insert
    split_ifs with hlt heq
    · exact h.cons (List.forall_mem_cons.2 ⟨hlt, fun p hp => hlt.trans (h.head_lt p hp)⟩)
    · exact h.tail.cons h.head_lt
    · have hkj : k < j := lt_of_le_of_ne (not_lt.1 hlt) (Ne.symm heq)
      exact (ih h.tail).cons (forall_column_insert hkj h.head_lt a)

theorem Sorted.filter {row : SparseRow ℝ n} (h : row.Sorted) (keep : Fin n × ℝ → Bool) : Sorted (row.filter keep) :=
  List.Pairwise.filter keep h

theorem Sorted.dropZeros {row : SparseRow ℝ n} (h : row.Sorted) : row.dropZeros.Sorted := h.filter _

theorem Sorted.normal_dropZeros {row : SparseRow ℝ n} (h : row.Sorted) : row.dropZeros.Normal := by
  refine ⟨h.dropZeros, fun p hp => ?_⟩
  have hkeep := (List.mem_filter.1 hp).2
  simpa using hkeep

/-- In a sum only the first row need be in order: the other one is inserted. -/
theorem Sorted.add {r : SparseRow ℝ n} (h : r.Sorted) (s : SparseRow ℝ n) : (add r s).Sorted := by
  refine Sorted.dropZeros ?_
  induction s generalizing r with
  | nil => exact h
  | cons p s ih => exact ih (h.insert p.1 p.2)

/-- Columns renamed in their order. -/
theorem Sorted.filterMap {q : ℕ} {row : SparseRow ℝ n} (h : row.Sorted) {col? : Fin n → Option (Fin q)}
    (hcol : ∀ k k' j j', col? k = some j → col? k' = some j' → k < k' → j < j') :
    Sorted (row.filterMap fun p => (col? p.1).map (·, p.2)) := by
  refine List.pairwise_filterMap.2 (List.Pairwise.imp ?_ h)
  rintro p p' hlt e he e' he'
  obtain ⟨j, hj, rfl⟩ := Option.map_eq_some_iff.1 he
  obtain ⟨j', hj', rfl⟩ := Option.map_eq_some_iff.1 he'
  exact hcol _ _ _ _ hj hj' hlt

end SparseRow

namespace Sparse

def Sorted (A : Sparse ℝ m n) : Prop := ∀ i, (A.rows.get i).Sorted

theorem sorted_ofTriplets (ts : List (Fin m × Fin n × ℝ)) : (ofTriplets m n ts).Sorted := by
  -- the fold starts from any rows that are in order
  suffices h : ∀ rows : Vector (SparseRow ℝ n) m, (Sparse.mk rows).Sorted → (Sparse.mk (ts.foldl
      (fun rows t => Vec.put rows t.1 (SparseRow.insert t.2.1 t.2.2 (rows.get t.1))) rows)).Sorted by
    refine h _ fun i => ?_
    simp [SparseRow.Sorted]
  induction ts with
  | nil => exact fun _ h => h
  | cons t ts ih =>
    refine fun rows h => ih _ fun i => ?_
    show ((Vec.put rows t.1 _).get i).Sorted
    unfold Vec.put
    rw [Vec.get_eq_getElem, Vector.getElem_set]
    split_ifs
    · exact (h t.1).insert _ _
    · exact h i

variable {A : Sparse ℝ m n}

theorem Sorted.scale (h : A.Sorted) (c : ℝ) : (A.scale c).Sorted := by
  intro i
  have hrow : (A.scale c).rows.get i = (A.rows.get i).map fun p => (p.1, p.2 * c) := by simp [Sparse.scale]
  rw [hrow]
  exact List.pairwise_map.2 (h i)

theorem Sorted.add (h : A.Sorted) (B : Sparse ℝ m n) : (A + B).Sorted := by
  intro i
  have hrow : (A + B).rows.get i = SparseRow.add (A.rows.get i) (B.rows.get i) := by
    show (Vector.ofFn _).get i = _
    simp
  rw [hrow]
  exact (h i).add _

theorem Sorted.submatrix {p q : ℕ} (h : A.Sorted) (row : Fin p → Fin m) {col? : Fin n → Option (Fin q)}
    (hcol : ∀ k k' j j', col? k = some j → col? k' = some j' → k < k' → j < j') : (A.submatrix row col?).Sorted := by
  intro i
  have hrow : (A.submatrix row col?).rows.get i =
      (A.rows.get (row i)).filterMap fun p => (col? p.1).map (·, p.2) := by simp [Sparse.submatrix]
  rw [hrow]
  exact (h (row i)).filterMap hcol

theorem Sorted.eliminate {A : Sparse ℝ n n} (h : A.Sorted) (ess : Essential n) : (A.eliminate ess).Sorted := by
  intro i
  have hrow : (A.eliminate ess).rows.get i = if i ∈ ess then [(i, 1)]
      else SparseRow.dropZeros ((A.rows.get i).filter fun p => !ess.contains p.1) := by simp [Sparse.eliminate]
  rw [hrow]
  split_ifs
  · exact SparseRow.sorted_singleton _
  · exact ((h i).filter _).dropZeros

theorem Sorted.replaceRows {A : Sparse ℝ n n} (h : A.Sorted) (marked : Essential n) (diag : ℝ) :
    (A.replaceRows marked diag).Sorted := by
  intro i
  rw [get_rows_replaceRows]
  split_ifs
  · exact (SparseRow.sorted_singleton _).dropZeros
  · exact (h i).dropZeros.add _

end Sparse

end Magnetofluid
