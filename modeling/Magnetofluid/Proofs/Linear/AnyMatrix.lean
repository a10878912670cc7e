import Mathlib
import Magnetofluid.Linear.AnyMatrix
import Magnetofluid.Proofs.Linear.Positive

/-!
# Elimination of essential data that a list of indices names

Indices come in any order, may repeat, and count from the end when they are negative.

* `position?_eq_some_iff`, `exists_mapM_position?`: the positions that valid indices name.
* `Essential.mem_ofList`, `Vec.get_foldl_put`: a set of positions, and a vector, filled in index by index.
* `AnyMatrix.eliminateSystem?_solutions`: the solutions of an eliminated system are the vectors with the prescribed
  values that obey the other rows of the given one; the matrix stays symmetric, and it stays positive definite.
-/

namespace Magnetofluid

open Matrix

variable {n : ℕ}

/-! ### Positions by index -/

/-- An index names the position that it is, or the one that it counts to from the end. -/
def Names (k : ℤ) (i : Fin n) : Prop := k = i ∨ k = i - n

/-- A position that one of the indices names. -/
def NamedBy (indices : List ℤ) (i : Fin n) : Prop := ∃ k ∈ indices, Names k i

def ValidIndex (n : ℕ) (k : ℤ) : Prop := -n ≤ k ∧ k < n

theorem position?_eq_some_iff {k : ℤ} {i : Fin n} : position? n k = some i ↔ Names k i := by
  have hi := i.isLt
  unfold position? Names
  by_cases hk : k < 0
  · by_cases h : 0 ≤ k + n ∧ k + n < n
    · simp only [hk, if_true, h, and_self, dite_true, Option.some.injEq, Fin.ext_iff]
      omega
    · simp only [hk, if_true, h, dite_false, reduceCtorEq, false_iff]
      omega
  · by_cases h : 0 ≤ k ∧ k < n
    · simp only [hk, if_false, h, and_self, dite_true, Option.some.injEq, Fin.ext_iff]
      omega
    · simp only [hk, if_false, h, dite_false, reduceCtorEq, false_iff]
      omega

theorem ValidIndex.exists_position? {k : ℤ} (h : ValidIndex n k) : ∃ i, position? n k = some i := by
  obtain ⟨hlow, hhigh⟩ := h
  by_cases hk : k < 0
  · exact ⟨⟨(k + n).toNat, by omega⟩, position?_eq_some_iff.2 (.inr (by simp only; omega))⟩
  · exact ⟨⟨k.toNat, by omega⟩, position?_eq_some_iff.2 (.inl (by simp only; omega))⟩

theorem exists_mapM_position? {indices : List ℤ} (h : ∀ k ∈ indices, ValidIndex n k) :
    ∃ is, indices.mapM (position? n) = some is ∧ ∀ i, i ∈ is ↔ NamedBy indices i := by
  induction indices with
  | nil => exact ⟨[], rfl, fun i => by simp [NamedBy]⟩
  | cons k indices ih =>
    obtain ⟨j, hj⟩ := (h k List.mem_cons_self).exists_position?
    obtain ⟨is, his, hmem⟩ := ih fun k hk => h k (List.mem_cons_of_mem _ hk)
    refine ⟨j :: is, by rw [List.mapM_cons, hj, his]; rfl, fun i => ?_⟩
    have hhead : i = j ↔ Names k i := by
      rw [← position?_eq_some_iff, hj, Option.some.injEq, eq_comm]
    rw [List.mem_cons, hmem, hhead]
    unfold NamedBy
    rw [List.exists_mem_cons_iff]

/-! ### Sets and vectors filled in index by index -/

namespace Vec

/-- Entries that are set one after the other, each to a value that its position determines. -/
theorem get_foldl_put {α : Type} (f : Fin n → α) (is : List (Fin n)) (x : Vector α n) (j : Fin n) :
    (is.foldl (fun x i => put x i (f i)) x).get j = if j ∈ is then f j else x.get j := by
  induction is generalizing x with
  | nil => rfl
  | cons i is ih =>
    rw [List.foldl_cons, ih, get_put]
    by_cases hj : j ∈ is
    · rw [if_pos hj, if_pos (List.mem_cons_of_mem _ hj)]
    · rw [if_neg hj]
      by_cases hij : i = j
      · rw [if_pos hij, if_pos (hij ▸ List.mem_cons_self), hij]
      · rw [if_neg hij, if_neg (by rw [List.mem_cons]; exact fun h => h.elim (Ne.symm hij) hj)]

end Vec

theorem Essential.mem_ofList {is : List (Fin n)} {i : Fin n} : i ∈ Essential.ofList is ↔ i ∈ is := by
  show (is.foldl (fun marked i => Vec.put marked i true) (Vector.replicate n false)).get i = true ↔ _
  rw [Vec.get_foldl_put (fun _ => true)]
  simp

namespace AnyMatrix

theorem square?_self (A : Sparse ℝ n n) : (⟨n, n, A⟩ : AnyMatrix ℝ).square? n = some A := dif_pos ⟨rfl, rfl⟩

theorem eliminate?_eq_ok (A : Sparse ℝ n n) {indices : List ℤ} {is : List (Fin n)}
    (h : indices.mapM (position? n) = some is) :
    eliminate? ⟨n, n, A⟩ indices = .ok ⟨n, n, A.eliminate (.ofList is)⟩ := by
  have hess : essential (K := ℝ) n indices = .ok (.ofList is) := by
    unfold essential Essential.ofIndices?
    rw [h]
    rfl
  unfold eliminate? withEssential
  rw [hess, square?_self]
  rfl

/-- Entries that are copied at the positions which the same indices name in two vectors of one size. -/
theorem get_foldl_copy {m : ℕ} (hm : m = n) {indices : List ℤ} {source : List (Fin m)} {target : List (Fin n)}
    (hsource : indices.mapM (position? m) = some source) (htarget : indices.mapM (position? n) = some target)
    (x : Vec ℝ m) (data : Vec ℝ n) {i : Fin n} (hi : i ∈ target) :
    ((List.zip target source).foldl (fun d p => Vec.put d p.1 (x.get p.2)) data).get i = x.get (i.cast hm.symm) := by
  subst hm
  obtain rfl : source = target := Option.some.inj (hsource.symm.trans htarget)
  have hzip : List.zip source source = source.map fun i => (i, i) := by
    rw [List.map_prod_left_eq_zip, List.map_id']
  rw [hzip, List.foldl_map, Vec.get_foldl_put, if_pos hi]
  rfl

/-- The right-hand side for a vector `x` with as many entries as `b`. -/
theorem exists_eliminateRhs? (A : Sparse ℝ n n) {indices : List ℤ} {is : List (Fin n)}
    (h : indices.mapM (position? n) = some is) (x b : Vec ℝ n) :
    ∃ data : Vec ℝ n, (∀ i ∈ is, data.values i = x.values i) ∧
      eliminateRhs? ⟨n, n, A⟩ indices x.toArray b.toArray = .ok (A.eliminateRhs (.ofList is) data b).toArray := by
  obtain ⟨x, hx⟩ := x
  obtain ⟨b, rfl⟩ := b
  obtain ⟨source, hsource⟩ : ∃ source, indices.mapM (position? x.size) = some source := by
    rw [hx]
    exact ⟨is, h⟩
  refine ⟨_, fun i hi => get_foldl_copy hx hsource h (Vec.ofEntries x) (Vec.zeros b.size) hi, ?_⟩
  unfold eliminateRhs?
  rw [hsource, h, square?_self]
  rfl

/-- **Elimination of essential data is equivalent to the constrained problem.**  For a square system and valid indices,
in any order, with repeats and from either end, elimination gives a system `S X = B` whose solutions are the vectors
that agree with `x` at the positions named and obey `A X = b` in all other rows.  The guess is `x` itself, `S` is
symmetric when `A` is, and its form is positive when that of `A` is. -/
theorem eliminateSystem?_solutions (A : Sparse ℝ n n) (indices : List ℤ) (hindices : ∀ k ∈ indices, ValidIndex n k)
    (x b : Vec ℝ n) :
    ∃ (S : Sparse ℝ n n) (B : Vec ℝ n),
      eliminateSystem? ⟨n, n, A⟩ indices x.toArray b.toArray = .ok (⟨n, n, S⟩, x.toArray, B.toArray) ∧
      (∀ X : Vec ℝ n, S.mulVec X = B ↔
        (∀ i, NamedBy indices i → X.values i = x.values i) ∧
          ∀ i, ¬ NamedBy indices i → (A.mulVec X).values i = b.values i) ∧
      (A.toMatrix.IsSymm → S.toMatrix.IsSymm) ∧
      ((∀ v, v ≠ 0 → 0 < v ⬝ᵥ A.toMatrix *ᵥ v) → ∀ v, v ≠ 0 → 0 < v ⬝ᵥ S.toMatrix *ᵥ v) ∧
      (A.toMatrix.PosDef → S.toMatrix.PosDef) := by
  obtain ⟨is, his, hnamed⟩ := exists_mapM_position? hindices
  obtain ⟨data, hdata, hrhs⟩ := exists_eliminateRhs? A his x b
  have hmem : ∀ i, i ∈ Essential.ofList is ↔ NamedBy indices i := fun i => Essential.mem_ofList.trans (hnamed i)
  refine ⟨A.eliminate (.ofList is), A.eliminateRhs (.ofList is) data b, ?_, fun X => ?_, ?_, ?_, ?_⟩
  · unfold eliminateSystem?
    rw [eliminate?_eq_ok A his, hrhs]
    rfl
  · rw [Sparse.eliminate_mulVec_eq_rhs_iff, Sparse.values_mulVec]
    simp only [hmem]
    refine and_congr_left' (forall₂_congr fun i hi => ?_)
    rw [hdata i ((hnamed i).2 hi)]
  · exact fun hsymm => Sparse.isSymm_eliminate hsymm _
  · exact fun hpos v hv => Essential.Positive.eliminate_form_pos (fun v _ => hpos v) hv
  · intro hpos
    have hsymm : A.toMatrix.IsSymm := isHermitian_iff_isSymm.1 hpos.isHermitian
    refine Essential.Positive.posDef_eliminate (fun v _ hv => ?_) hsymm
    exact hpos.dotProduct_mulVec_pos hv

def secondDifference : Sparse ℝ 3 3 :=
  ⟨.ofFn fun i => (List.finRange 3).map fun j =>
    (j, if i = j then 1 + 1 else if i.val = j + 1 ∨ j.val = i + 1 then -1 else 0)⟩

/-- Both ends prescribed, by three indices for two positions. -/
theorem eliminateSystem?_solutions_secondDifference :
    (∀ k ∈ [-1, 0, -3], ValidIndex 3 k) ∧
      ∃ (S : Sparse ℝ 3 3) (B : Vec ℝ 3),
        eliminateSystem? ⟨3, 3, secondDifference⟩ [-1, 0, -3] #[1, 9, 3] #[5, 0, 5] =
          .ok (⟨3, 3, S⟩, #[1, 9, 3], B.toArray) ∧ S.mulVec #v[1, 2, 3] = B := by
  have hvalid : ∀ k ∈ [-1, 0, -3], ValidIndex 3 k := by
    unfold ValidIndex
    decide
  obtain ⟨S, B, hsystem, hsolution, -⟩ :=
    eliminateSystem?_solutions secondDifference [-1, 0, -3] hvalid #v[1, 9, 3] #v[5, 0, 5]
  refine ⟨hvalid, S, B, hsystem, (hsolution _).2 ⟨fun i hi => ?_, fun i hi => ?_⟩⟩
  · fin_cases i
    · rfl
    · exact absurd hi (by unfold NamedBy Names; decide)
    · rfl
  · fin_cases i
    · exact absurd ⟨0, by decide, .inl rfl⟩ hi
    · refine (Sparse.get_mulVec _ _ 1).trans ?_
      show SparseRow.dot [(0, -1), (1, 1 + 1), (2, -1)] (#v[1, 2, 3] : Vec ℝ 3) = 0
      norm_num [SparseRow.dot]
    · exact absurd ⟨-1, by decide, .inr rfl⟩ hi

end AnyMatrix

end Magnetofluid
