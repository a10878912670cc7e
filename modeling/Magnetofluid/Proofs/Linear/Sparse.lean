import Mathlib
import Magnetofluid.Linear.Sparse
import Magnetofluid.Proofs.Linear.Vector

/-!
# Sparse matrices over the reals

A stored matrix means the matrix of its entries, `Sparse.toMatrix`.  Each operation on stored matrices is the
operation on matrices, because forgetting a stored zero and summing what is stored twice change no entry.

* `Sparse.values_mulVec`: the product with a vector is the product with the matrix.
* `Sparse.toMatrix_ofTriplets`: the sum of the values given for each position.
* `Sparse.toMatrix_add`, `Sparse.toMatrix_sub`, `Sparse.toMatrix_scale`: sums, differences and multiples.
* `Sparse.toMatrix_submatrix`: the rows and columns that are picked out.
-/

namespace Magnetofluid

open Matrix

variable {m n : ℕ}

namespace SparseRow

theorem entry_eq_sum (row : SparseRow ℝ n) (j : Fin n) :
    row.entry j = (row.map fun p => if p.1 = j then p.2 else 0).sum := by
  have h : (fun (s : ℝ) (p : Fin n × ℝ) => if p.1 = j then s + p.2 else s) =
      fun s p => s + if p.1 = j then p.2 else 0 := by
    funext s p
    split_ifs
    · rfl
    · exact (add_zero s).symm
  unfold entry
  rw [h]
  exact (foldl_add_eq _ row 0).trans (zero_add _)

@[simp] theorem entry_nil (j : Fin n) : SparseRow.entry ([] : SparseRow ℝ n) j = 0 := rfl

@[simp] theorem entry_cons (p : Fin n × ℝ) (row : SparseRow ℝ n) (j : Fin n) :
    SparseRow.entry (p :: row) j = (if p.1 = j then p.2 else 0) + row.entry j := by
  simp only [entry_eq_sum, List.map_cons, List.sum_cons]

theorem entry_append (r s : SparseRow ℝ n) (j : Fin n) :
    SparseRow.entry (r ++ s) j = r.entry j + s.entry j := by
  simp only [entry_eq_sum, List.map_append, List.sum_append]

theorem entry_insert (j k : Fin n) (a : ℝ) (row : SparseRow ℝ n) :
    (insert j a row).entry k = (if j = k then a else 0) + row.entry k := by
  induction row with
  | nil => simp [insert]
  | cons p row ih =>
    obtain ⟨c, b⟩ := p
    simp only [insert]
    split_ifs with h1 h2 h3
    all_goals simp_all
    all_goals ring

theorem entry_dropZeros (row : SparseRow ℝ n) (k : Fin n) : row.dropZeros.entry k = row.entry k := by
  induction row with
  | nil => rfl
  | cons p row ih =>
    unfold dropZeros at ih ⊢
    by_cases h : p.2 = 0
    · rw [List.filter_cons_of_neg (by simp [h]), ih, entry_cons, h, ite_self, zero_add]
    · rw [List.filter_cons_of_pos (by simp [h]), entry_cons, entry_cons, ih]

/-- Rows are added, or subtracted, by inserting the items of the second one, each with its value changed by `f`. -/
theorem entry_foldl_insert (f : ℝ →+ ℝ) (r s : SparseRow ℝ n) (k : Fin n) :
    SparseRow.entry (s.foldl (fun t p => insert p.1 (f p.2) t) r) k = r.entry k + f (s.entry k) := by
  induction s generalizing r with
  | nil => simp
  | cons p s ih =>
    rw [List.foldl_cons, ih, entry_insert, entry_cons, map_add]
    split_ifs
    · ring
    · rw [map_zero]; ring

@[simp] theorem entry_add (r s : SparseRow ℝ n) (k : Fin n) : (add r s).entry k = r.entry k + s.entry k := by
  unfold add
  rw [entry_dropZeros]
  exact entry_foldl_insert (AddMonoidHom.id ℝ) r s k

@[simp] theorem entry_sub (r s : SparseRow ℝ n) (k : Fin n) : (sub r s).entry k = r.entry k - s.entry k := by
  unfold sub
  rw [entry_dropZeros, sub_eq_add_neg]
  exact entry_foldl_insert (negAddMonoidHom (α := ℝ)) r s k

/-- The inner product of a stored row and a vector is that of the row's entries. -/
theorem dot_eq (row : SparseRow ℝ n) (x : Vec ℝ n) : row.dot x = (fun j => row.entry j) ⬝ᵥ x.values := by
  have h : row.dot x = (row.map fun p => p.2 * x.values p.1).sum :=
    (foldl_add_eq (fun p : Fin n × ℝ => p.2 * x.values p.1) row 0).trans (zero_add _)
  rw [h]
  induction row with
  | nil => simp [dotProduct]
  | cons p row ih =>
    have hrow := (foldl_add_eq (fun p : Fin n × ℝ => p.2 * x.values p.1) row 0).trans (zero_add _)
    rw [List.map_cons, List.sum_cons, ih hrow]
    simp only [dotProduct, entry_cons, add_mul, Finset.sum_add_distrib, ite_mul, zero_mul,
      Finset.sum_ite_eq, Finset.mem_univ, if_true]

theorem dot_append (r s : SparseRow ℝ n) (x : Vec ℝ n) : SparseRow.dot (r ++ s) x = r.dot x + s.dot x := by
  rw [dot_eq, dot_eq, dot_eq, ← add_dotProduct]
  exact congrArg (· ⬝ᵥ x.values) (funext fun j => entry_append r s j)

theorem dot_dropZeros (row : SparseRow ℝ n) (x : Vec ℝ n) : row.dropZeros.dot x = row.dot x := by
  rw [dot_eq, dot_eq]
  exact congrArg (· ⬝ᵥ x.values) (funext fun j => entry_dropZeros row j)

theorem dot_add (r s : SparseRow ℝ n) (x : Vec ℝ n) : (add r s).dot x = r.dot x + s.dot x := by
  rw [dot_eq, dot_eq, dot_eq, ← add_dotProduct]
  exact congrArg (· ⬝ᵥ x.values) (funext fun j => entry_add r s j)

theorem entry_map_mul (row : SparseRow ℝ n) (c : ℝ) (j : Fin n) :
    SparseRow.entry (row.map fun p => (p.1, p.2 * c)) j = c * row.entry j := by
  induction row with
  | nil => simp
  | cons p row ih =>
    rw [List.map_cons, entry_cons, ih, entry_cons]
    split_ifs
    · ring
    · ring

/-- A row with its columns renamed, where `col? k` is the new name of column `k`, if it has one, and `col j` the column
that is renamed to `j`. -/
theorem entry_filterMap {q : ℕ} {col? : Fin n → Option (Fin q)} {col : Fin q → Fin n}
    (hcol : ∀ k j, col? k = some j ↔ k = col j) (row : SparseRow ℝ n) (j : Fin q) :
    SparseRow.entry (row.filterMap fun p => (col? p.1).map (·, p.2)) j = row.entry (col j) := by
  induction row with
  | nil => rfl
  | cons p row ih =>
    rw [entry_cons, List.filterMap_cons]
    by_cases hj : p.1 = col j
    · rw [(hcol p.1 j).2 hj, if_pos hj]
      exact (entry_cons _ _ _).trans (congrArg₂ (· + ·) (if_pos rfl) ih)
    · rw [if_neg hj, zero_add, ← ih]
      cases hk : col? p.1 with
      | none => rfl
      | some k =>
        have hkj : k ≠ j := fun hkj => hj ((hcol p.1 j).1 (hkj ▸ hk))
        exact (entry_cons _ _ _).trans ((congrArg (· + _) (if_neg hkj)).trans (zero_add _))

theorem dot_singleton (j : Fin n) (a : ℝ) (x : Vec ℝ n) : SparseRow.dot [(j, a)] x = a * x.values j :=
  zero_add _

end SparseRow

namespace Sparse

noncomputable def toMatrix (A : Sparse ℝ m n) : Matrix (Fin m) (Fin n) ℝ := .of A.entry

theorem toMatrix_apply (A : Sparse ℝ m n) (i : Fin m) (j : Fin n) :
    A.toMatrix i j = SparseRow.entry (A.rows.get i) j := rfl

/-- An entry is the value of the form at two unit fields. -/
theorem entry_eq_form (A : Sparse ℝ m n) (i : Fin m) (j : Fin n) :
    A.entry i j = Pi.single i 1 ⬝ᵥ A.toMatrix *ᵥ Pi.single j 1 := by
  rw [single_one_dotProduct, mulVec_single_one]
  rfl

theorem isSymm_of_form {A : Sparse ℝ n n} (h : ∀ x y, x ⬝ᵥ A.toMatrix *ᵥ y = y ⬝ᵥ A.toMatrix *ᵥ x) :
    A.toMatrix.IsSymm :=
  IsSymm.ext fun i j => (entry_eq_form A j i).trans ((h _ _).trans (entry_eq_form A i j).symm)

@[simp] theorem values_mulVec (A : Sparse ℝ m n) (x : Vec ℝ n) :
    (A.mulVec x).values = A.toMatrix *ᵥ x.values := by
  funext i
  exact (get_mulVec A x i).trans (SparseRow.dot_eq _ x)

/-- A matrix determines its argument if it takes the zero vector alone to zero. -/
theorem injective_of_mulVec_eq_zero {A : Sparse ℝ m n} (h : ∀ v : Vec ℝ n, (A.mulVec v).values = 0 → v.values = 0) :
    Function.Injective (A.toMatrix *ᵥ ·) := by
  refine (injective_iff_map_eq_zero (mulVecLin A.toMatrix)).2 fun z hz => ?_
  have hvalues : (A.mulVec (.ofFn z)).values = 0 := by
    rw [values_mulVec, Vec.values_ofFn]
    exact hz
  exact (Vec.values_ofFn z).symm.trans (h _ hvalues)

@[simp] theorem toMatrix_sub (A B : Sparse ℝ m n) : (A - B).toMatrix = A.toMatrix - B.toMatrix := by
  ext i j
  have h : (A - B).rows.get i = SparseRow.sub (A.rows.get i) (B.rows.get i) := by
    show (Vector.ofFn _).get i = _
    simp
  rw [Matrix.sub_apply, toMatrix_apply, toMatrix_apply, toMatrix_apply, h, SparseRow.entry_sub]

@[simp] theorem toMatrix_add (A B : Sparse ℝ m n) : (A + B).toMatrix = A.toMatrix + B.toMatrix := by
  ext i j
  have h : (A + B).rows.get i = SparseRow.add (A.rows.get i) (B.rows.get i) := by
    show (Vector.ofFn _).get i = _
    simp
  rw [Matrix.add_apply, toMatrix_apply, toMatrix_apply, toMatrix_apply, h, SparseRow.entry_add]

@[simp] theorem toMatrix_scale (c : ℝ) (A : Sparse ℝ m n) : (A.scale c).toMatrix = c • A.toMatrix := by
  ext i j
  rw [Matrix.smul_apply, smul_eq_mul, toMatrix_apply, toMatrix_apply, ← SparseRow.entry_map_mul]
  simp [scale]

theorem toMatrix_submatrix {p q : ℕ} (A : Sparse ℝ m n) (row : Fin p → Fin m) {col? : Fin n → Option (Fin q)}
    {col : Fin q → Fin n} (hcol : ∀ k j, col? k = some j ↔ k = col j) :
    (A.submatrix row col?).toMatrix = A.toMatrix.submatrix row col := by
  ext i j
  rw [Matrix.submatrix_apply, toMatrix_apply, toMatrix_apply, ← SparseRow.entry_filterMap hcol]
  simp [submatrix]

/-! ### Triplets -/

theorem toMatrix_ofTriplets (ts : List (Fin m × Fin n × ℝ)) :
    (ofTriplets m n ts).toMatrix = (ts.map fun t => Matrix.single t.1 t.2.1 t.2.2).sum := by
  -- the fold starts from any rows, to which the values of the triplets are added
  have key : ∀ rows : Vector (SparseRow ℝ n) m,
      (Sparse.mk (ts.foldl (fun rows t => Vec.put rows t.1 (SparseRow.insert t.2.1 t.2.2 (rows.get t.1)))
        rows)).toMatrix = (Sparse.mk rows).toMatrix + (ts.map fun t => Matrix.single t.1 t.2.1 t.2.2).sum := by
    induction ts with
    | nil => intro rows; simp
    | cons t ts ih =>
      intro rows
      rw [List.foldl_cons, ih, List.map_cons, List.sum_cons, ← add_assoc]
      congr 1
      ext i j
      simp only [toMatrix_apply, Matrix.add_apply, Matrix.single_apply, Vec.put, Vec.get_eq_getElem,
        Vector.getElem_set]
      by_cases hi : t.1 = i
      · subst hi
        simp [SparseRow.entry_insert, add_comm]
      · have hi' : t.1.val ≠ i.val := fun h => hi (Fin.ext h)
        simp [hi, hi']
  refine (key _).trans ?_
  have hzero : (Sparse.mk (Vector.replicate m ([] : SparseRow ℝ n))).toMatrix = 0 := by
    ext i j
    simp [toMatrix_apply]
  rw [hzero, zero_add]

/-- The bilinear form of triplets, summed triplet by triplet. -/
theorem dotProduct_ofTriplets_mulVec (ts : List (Fin m × Fin n × ℝ)) (x : Fin m → ℝ) (y : Fin n → ℝ) :
    x ⬝ᵥ (ofTriplets m n ts).toMatrix *ᵥ y = (ts.map fun t => x t.1 * t.2.2 * y t.2.1).sum := by
  rw [toMatrix_ofTriplets]
  induction ts with
  | nil => simp
  | cons t ts ih =>
    have hsingle : x ⬝ᵥ Pi.single t.1 (t.2.2 * y t.2.1) = x t.1 * t.2.2 * y t.2.1 := by
      rw [dotProduct_single, mul_assoc]
    rw [List.map_cons, List.sum_cons, Matrix.add_mulVec, dotProduct_add, ih, List.map_cons, List.sum_cons,
      Matrix.single_mulVec, ← hsingle]
    rfl

end Sparse

end Magnetofluid
