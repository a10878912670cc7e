import Mathlib
import Magnetofluid.Linear.Factorization
import Magnetofluid.Proofs.Linear.Ordered

/-!
# Gaussian elimination is exact

Over the reals a factorisation solves the systems of the matrix it was made of, and there is one exactly when the matrix
is not singular.  Rows change while they wait, so that the proof follows the content `R i` of each row by its number,
which the stored rows only copy.

* `Reduced`: the rows hold what the row operations make of the matrix.
* `Queued`: each row that begins right of the eliminated columns waits, once, at the column it begins with.
* `Staircase`: the pivot rows are an upper triangle.  Backward substitution solves it, and nothing else does
  (`Staircase.backSubstitute_solves`, `Staircase.backSubstitute_eq`).
* `Stage`: all of that in the middle of an elimination.  One row less keeps it (`Stage.subtract`), one column less keeps
  it or shows a vector that the matrix takes to zero (`Stage.column`), and so does the whole sweep (`Stage.sweep`).
* `solve_mulVec`, `mulVec_solve`, `exists_ofMatrix?_iff`: what the elimination gives.
-/

namespace Magnetofluid

open Matrix

variable {n : ℕ}

/-! ### Row operations -/

namespace SparseRow

theorem dot_cons (p : Fin n × ℝ) (row : SparseRow ℝ n) (x : Vec ℝ n) :
    dot (p :: row) x = p.2 * x.values p.1 + row.dot x :=
  (dot_append [p] row x).trans (congrArg (· + _) (dot_singleton p.1 p.2 x))

theorem dot_zeros (row : SparseRow ℝ n) : row.dot (Vec.zeros n) = 0 := by
  rw [dot_eq, Vec.values_zeros, dotProduct_zero]

/-- Only the entries that are stored count. -/
theorem dot_congr {row : SparseRow ℝ n} {x y : Vec ℝ n} (h : ∀ p ∈ row, x.values p.1 = y.values p.1) :
    row.dot x = row.dot y := by
  induction row with
  | nil => rfl
  | cons p row ih =>
    obtain ⟨hp, hrow⟩ := List.forall_mem_cons.1 h
    rw [dot_cons, dot_cons, hp, ih hrow]

theorem dot_subScaled (f : ℝ) (r s : SparseRow ℝ n) (x : Vec ℝ n) :
    (subScaled f r s).dot x = r.dot x - f * s.dot x := by
  have hnil : SparseRow.dot ([] : SparseRow ℝ n) x = 0 := rfl
  fun_induction subScaled f r s with
  | case1 r => rw [hnil, mul_zero, sub_zero]
  | case2 j b s ih =>
    rw [dot_cons, ih, dot_cons, hnil]
    ring
  | case3 i a r j b s hlt ih =>
    rw [dot_cons, ih, dot_cons (i, a) r]
    ring
  | case4 i a r j b s hlt hgt ih =>
    rw [dot_cons, ih, dot_cons (j, b) s]
    ring
  | case5 i a r j b s hlt hgt c hc ih =>
    obtain rfl : i = j := le_antisymm (not_lt.1 hgt) (not_lt.1 hlt)
    have hzero : a - f * b = 0 := by simpa using hc
    rw [ih, dot_cons (i, a) r, dot_cons (i, b) s]
    linear_combination -x.values i * hzero
  | case6 i a r j b s hlt hgt c hc ih =>
    obtain rfl : i = j := le_antisymm (not_lt.1 hgt) (not_lt.1 hlt)
    rw [dot_cons, ih, dot_cons (i, a) r, dot_cons (i, b) s]
    ring

/-- A difference has no columns but those of its rows. -/
theorem forall_column_subScaled {P : Fin n → Prop} (f : ℝ) {r s : SparseRow ℝ n} (hr : ∀ p ∈ r, P p.1)
    (hs : ∀ p ∈ s, P p.1) : ∀ p ∈ subScaled f r s, P p.1 := by
  fun_induction subScaled f r s with
  | case1 r => exact hr
  | case2 j b s ih =>
    obtain ⟨hj, hs⟩ := List.forall_mem_cons.1 hs
    exact List.forall_mem_cons.2 ⟨hj, ih hr hs⟩
  | case3 i a r j b s hlt ih =>
    obtain ⟨hi, hr⟩ := List.forall_mem_cons.1 hr
    exact List.forall_mem_cons.2 ⟨hi, ih hr hs⟩
  | case4 i a r j b s hlt hgt ih =>
    obtain ⟨hj, hs⟩ := List.forall_mem_cons.1 hs
    exact List.forall_mem_cons.2 ⟨hj, ih hr hs⟩
  | case5 i a r j b s hlt hgt c hc ih =>
    exact ih (List.forall_mem_cons.1 hr).2 (List.forall_mem_cons.1 hs).2
  | case6 i a r j b s hlt hgt c hc ih =>
    obtain ⟨hi, hr⟩ := List.forall_mem_cons.1 hr
    exact List.forall_mem_cons.2 ⟨hi, ih hr (List.forall_mem_cons.1 hs).2⟩

theorem Normal.subScaled {f : ℝ} (hf : f ≠ 0) {r s : SparseRow ℝ n} (hr : r.Normal) (hs : s.Normal) :
    (subScaled f r s).Normal := by
  fun_induction SparseRow.subScaled f r s with
  | case1 r => exact hr
  | case2 j b s ih =>
    have hb : b ≠ 0 := hs.ne_zero _ List.mem_cons_self
    exact (ih hr hs.tail).cons (forall_column_subScaled f nofun hs.sorted.head_lt) (neg_ne_zero.2 (mul_ne_zero hf hb))
  | case3 i a r j b s hlt ih =>
    have ha : a ≠ 0 := hr.ne_zero _ List.mem_cons_self
    have hright : ∀ p ∈ (j, b) :: s, i < p.1 :=
      List.forall_mem_cons.2 ⟨hlt, fun p hp => hlt.trans (hs.sorted.head_lt p hp)⟩
    exact (ih hr.tail hs).cons (forall_column_subScaled f hr.sorted.head_lt hright) ha
  | case4 i a r j b s hlt hgt ih =>
    have hb : b ≠ 0 := hs.ne_zero _ List.mem_cons_self
    have hright : ∀ p ∈ (i, a) :: r, j < p.1 :=
      List.forall_mem_cons.2 ⟨hgt, fun p hp => hgt.trans (hr.sorted.head_lt p hp)⟩
    exact (ih hr hs.tail).cons (forall_column_subScaled f hright hs.sorted.head_lt)
      (neg_ne_zero.2 (mul_ne_zero hf hb))
  | case5 i a r j b s hlt hgt c hc ih => exact ih hr.tail hs.tail
  | case6 i a r j b s hlt hgt c hc ih =>
    obtain rfl : i = j := le_antisymm (not_lt.1 hgt) (not_lt.1 hlt)
    have hc' : c ≠ 0 := by simpa using hc
    exact (ih hr.tail hs.tail).cons (forall_column_subScaled f hr.sorted.head_lt hs.sorted.head_lt) hc'

def lead? (row : SparseRow ℝ n) : Option (Fin n) := row.head?.map Prod.fst

theorem lead?_eq_some_iff {row : SparseRow ℝ n} {j : Fin n} :
    row.lead? = some j ↔ ∃ a tail, row = (j, a) :: tail := by
  cases row with
  | nil => simp [lead?]
  | cons p row =>
    obtain ⟨k, a⟩ := p
    simp [lead?]

theorem Sorted.lt_of_lead?_ne {row : SparseRow ℝ n} (h : row.Sorted) {j : Fin n} (hle : ∀ e ∈ row, j ≤ e.1)
    (hlead : row.lead? ≠ some j) : ∀ e ∈ row, j < e.1 := by
  cases row with
  | nil => exact nofun
  | cons p row =>
    have hp : j < p.1 :=
      lt_of_le_of_ne (hle p List.mem_cons_self) fun hj => hlead (congrArg some hj.symm)
    exact List.forall_mem_cons.2 ⟨hp, fun e he => hp.trans (h.head_lt e he)⟩

end SparseRow

noncomputable def RowOperation.apply (op : RowOperation ℝ n) (y : Vec ℝ n) : Vec ℝ n :=
  Vec.put y op.target (y.get op.target - op.factor * y.get op.source)

theorem RowOperation.values_apply (op : RowOperation ℝ n) (y : Vec ℝ n) (i : Fin n) :
    (op.apply y).values i =
      if op.target = i then y.values op.target - op.factor * y.values op.source else y.values i :=
  Vec.get_put y op.target i _

/-- An operation that takes one row from another one loses nothing. -/
theorem RowOperation.eq_zeros_of_apply {op : RowOperation ℝ n} (hop : op.source ≠ op.target) {y : Vec ℝ n}
    (h : op.apply y = Vec.zeros n) : y = Vec.zeros n := by
  have hvalues : ∀ i, (op.apply y).values i = 0 := fun i => by rw [h, Vec.values_zeros, Pi.zero_apply]
  have hother : ∀ i, op.target ≠ i → y.values i = 0 := by
    intro i hi
    rw [← hvalues i, RowOperation.values_apply, if_neg hi]
  have htarget : y.values op.target = 0 := by
    have hrow := hvalues op.target
    rwa [RowOperation.values_apply, if_pos rfl, hother _ hop.symm, mul_zero, sub_zero] at hrow
  refine Vec.values_injective (funext fun i => ?_)
  rw [Vec.values_zeros]
  by_cases hi : op.target = i
  · exact hi ▸ htarget
  · exact hother i hi

namespace Factorization

noncomputable def replay (ops : Array (RowOperation ℝ n)) (b : Vec ℝ n) : Vec ℝ n :=
  ops.foldl (fun y op => op.apply y) b

@[simp] theorem replay_push (ops : Array (RowOperation ℝ n)) (op : RowOperation ℝ n) (b : Vec ℝ n) :
    replay (ops.push op) b = op.apply (replay ops b) := by
  simp [replay]

theorem eq_zeros_of_replay {ops : Array (RowOperation ℝ n)} (hops : ∀ op ∈ ops, op.source ≠ op.target) {b : Vec ℝ n}
    (h : replay ops b = Vec.zeros n) : b = Vec.zeros n := by
  obtain ⟨ops⟩ := ops
  replace h : ops.foldl (fun y op => op.apply y) b = Vec.zeros n := by simpa [replay] using h
  replace hops : ∀ op ∈ ops, op.source ≠ op.target := by simpa using hops
  induction ops generalizing b with
  | nil => exact h
  | cons op ops ih =>
    obtain ⟨hop, hops⟩ := List.forall_mem_cons.1 hops
    exact RowOperation.eq_zeros_of_apply hop (ih h hops)

end Factorization

/-! ### Backward substitution -/

/-- A pivot with what stands right of it. -/
def PivotRow.row (p : PivotRow ℝ n) : SparseRow ℝ n := (p.column, p.pivot) :: p.rest

namespace Factorization

/-- Substitution of the unknowns of pivot rows, from the last column to the first, in a vector that holds the others. -/
noncomputable def backSubstitute (y : Vec ℝ n) (pivots : List (PivotRow ℝ n)) (x : Vec ℝ n) : Vec ℝ n :=
  pivots.foldl (fun x p => Vec.put x p.column ((y.get p.number - SparseRow.dot p.rest x) / p.pivot)) x

theorem solve_eq (f : Factorization ℝ n) (b : Vec ℝ n) :
    f.solve b = backSubstitute (replay f.operations b) f.pivots (Vec.zeros n) := rfl

/-- The pivot rows of the first `k` columns, from the last one, are an upper triangle. -/
inductive Staircase : ℕ → List (PivotRow ℝ n) → Prop
  | nil : Staircase 0 []
  | cons {p : PivotRow ℝ n} {pivots : List (PivotRow ℝ n)} (hpivot : p.pivot ≠ 0) (hrest : ∀ e ∈ p.rest, p.column < e.1)
      (hpivots : Staircase p.column.val pivots) : Staircase (p.column.val + 1) (p :: pivots)

namespace Staircase

variable {k : ℕ} {pivots : List (PivotRow ℝ n)}

theorem column_lt (h : Staircase k pivots) : ∀ p ∈ pivots, p.column.val < k := by
  induction h with
  | nil => exact nofun
  | cons _ _ _ ih => exact List.forall_mem_cons.2 ⟨Nat.lt_succ_self _, fun q hq => (ih q hq).trans (Nat.lt_succ_self _)⟩

/-- One step of the substitution, for a pivot row whose other unknowns the vector holds. -/
theorem values_put {p : PivotRow ℝ n} (hpivot : p.pivot ≠ 0) {x z : Vec ℝ n} {c : ℝ} (hz : p.row.dot z = c)
    (hrest : ∀ e ∈ p.rest, x.values e.1 = z.values e.1) :
    Vec.values (Vec.put x p.column ((c - p.rest.dot x) / p.pivot)) p.column = z.values p.column := by
  have hrow : p.pivot * z.values p.column + p.rest.dot z = c := (SparseRow.dot_cons _ _ z).symm.trans hz
  refine (Vec.get_put _ _ _ _).trans ?_
  rw [if_pos rfl, SparseRow.dot_congr hrest, ← hrow, add_sub_cancel_right, mul_div_cancel_left₀ _ hpivot]

/-- What obeys the pivot rows is found again from its entries right of them. -/
theorem backSubstitute_eq (h : Staircase k pivots) {x y z : Vec ℝ n}
    (hz : ∀ p ∈ pivots, p.row.dot z = y.values p.number)
    (hx : ∀ j : Fin n, k ≤ j.val → x.values j = z.values j) : backSubstitute y pivots x = z := by
  induction h generalizing x with
  | nil => exact Vec.values_injective (funext fun j => hx j (Nat.zero_le _))
  | @cons p pivots hpivot hrest _ ih =>
    obtain ⟨hp, hpivots⟩ := List.forall_mem_cons.1 hz
    -- one more entry agrees: the one that this row determines from the entries right of it
    refine ih hpivots fun j hj => ?_
    rcases eq_or_ne p.column j with rfl | hne
    · exact values_put hpivot hp fun e he => hx e.1 (hrest e he)
    · refine (Vec.get_put _ _ _ _).trans ?_
      rw [if_neg hne]
      exact hx j (lt_of_le_of_ne hj (Fin.val_ne_of_ne hne))

/-- Backward substitution keeps the entries right of the pivot rows and obeys all of these. -/
theorem backSubstitute_solves (h : Staircase k pivots) (y x : Vec ℝ n) :
    (∀ j : Fin n, k ≤ j.val → (backSubstitute y pivots x).values j = x.values j) ∧
      ∀ p ∈ pivots, p.row.dot (backSubstitute y pivots x) = y.values p.number := by
  induction h generalizing x with
  | nil => exact ⟨fun _ _ => rfl, nofun⟩
  | @cons p pivots hpivot hrest _ ih =>
    let x' : Vec ℝ n := Vec.put x p.column ((y.get p.number - p.rest.dot x) / p.pivot)
    have hx' : ∀ j, x'.values j = if p.column = j then (y.get p.number - p.rest.dot x) / p.pivot else x.values j :=
      fun j => Vec.get_put _ _ _ _
    obtain ⟨hkept, hpivots⟩ := ih x'
    have hresult : backSubstitute y (p :: pivots) x = backSubstitute y pivots x' := rfl
    rw [hresult]
    have hright : ∀ j, p.column < j → (backSubstitute y pivots x').values j = x.values j := by
      intro j hj
      rw [hkept j hj.le, hx', if_neg hj.ne]
    refine ⟨hright, List.forall_mem_cons.2 ⟨?_, hpivots⟩⟩
    refine (SparseRow.dot_cons _ _ _).trans ?_
    rw [SparseRow.dot_congr fun e he => hright e.1 (hrest e he), hkept p.column le_rfl, hx', if_pos rfl,
      mul_div_cancel₀ _ hpivot, sub_add_cancel]
    rfl

end Staircase

/-! ### Rows that wait -/

/-- The rows hold what the operations make of the matrix. -/
structure Reduced (A : Sparse ℝ n n) (ops : Array (RowOperation ℝ n)) (R : Fin n → SparseRow ℝ n) : Prop where
  dot_eq : ∀ x i, (R i).dot x = (replay ops (A.mulVec x)).values i
  distinct : ∀ op ∈ ops, op.source ≠ op.target
  normal : ∀ i, (R i).Normal

/-- The rows that begin at one of the columns from `k` on wait there, each of them once. -/
structure Queued (k : ℕ) (waiting : Vector (List (NumberedRow ℝ n)) n) (R : Fin n → SparseRow ℝ n) : Prop where
  mem_iff : ∀ j : Fin n, k ≤ j.val →
    ∀ row, row ∈ waiting.get j ↔ row.entries = R row.number ∧ row.entries.lead? = some j
  nodup : ∀ j : Fin n, k ≤ j.val → (waiting.get j).Nodup

variable {A : Sparse ℝ n n} {ops : Array (RowOperation ℝ n)} {R : Fin n → SparseRow ℝ n}

/-- Subtracting a row that begins with a pivot from another row that begins at its column. -/
theorem Reduced.subtract (h : Reduced A ops R) {s t c : Fin n} (hne : s ≠ t) {pivot a : ℝ}
    {tail entries : SparseRow ℝ n} (hs : R s = (c, pivot) :: tail) (ht : R t = (c, a) :: entries) :
    Reduced A (ops.push ⟨s, t, a / pivot⟩) (Function.update R t (SparseRow.subScaled (a / pivot) entries tail)) := by
  have hsource : SparseRow.Normal ((c, pivot) :: tail) := hs ▸ h.normal s
  have htarget : SparseRow.Normal ((c, a) :: entries) := ht ▸ h.normal t
  have hpivot : pivot ≠ 0 := hsource.ne_zero _ List.mem_cons_self
  have ha : a ≠ 0 := htarget.ne_zero _ List.mem_cons_self
  refine ⟨fun x i => ?_, fun op hop => ?_, fun i => ?_⟩
  · rw [replay_push, RowOperation.values_apply]
    rcases eq_or_ne t i with rfl | hi
    · rw [if_pos rfl, Function.update_self, SparseRow.dot_subScaled, ← h.dot_eq, ← h.dot_eq, hs, ht,
        SparseRow.dot_cons, SparseRow.dot_cons]
      -- the entries at the common column cancel
      field_simp
      ring
    · rw [if_neg hi, Function.update_of_ne hi.symm]
      exact h.dot_eq x i
  · rcases Array.mem_push.1 hop with hop | rfl
    · exact h.distinct op hop
    · exact hne
  · rcases eq_or_ne t i with rfl | hi
    · rw [Function.update_self]
      exact htarget.tail.subScaled (div_ne_zero ha hpivot) hsource.tail
    · rw [Function.update_of_ne hi.symm]
      exact h.normal i

theorem Reduced.mulVec_eq_zeros (h : Reduced A ops R) {x : Vec ℝ n} (hx : ∀ i, (R i).dot x = 0) :
    A.mulVec x = Vec.zeros n := by
  refine eq_zeros_of_replay h.distinct (Vec.values_injective (funext fun i => ?_))
  rw [← h.dot_eq, hx i, Vec.values_zeros, Pi.zero_apply]

theorem get_enqueue (waiting : Vector (List (NumberedRow ℝ n)) n) (row : NumberedRow ℝ n) (j : Fin n) :
    (enqueue waiting row).get j =
      if row.entries.lead? = some j then row :: waiting.get j else waiting.get j := by
  obtain ⟨i, entries⟩ := row
  cases entries with
  | nil => simp [enqueue, SparseRow.lead?]
  | cons e entries =>
    refine (Vec.get_put _ _ _ _).trans ?_
    have hlead : (SparseRow.lead? (e :: entries) = some j) ↔ e.1 = j := by simp [SparseRow.lead?]
    rcases eq_or_ne e.1 j with rfl | hne
    · rw [if_pos rfl, if_pos (hlead.2 rfl)]
    · rw [if_neg hne, if_neg (mt hlead.1 hne)]

theorem Queued.mono {k l : ℕ} {waiting : Vector (List (NumberedRow ℝ n)) n} (h : Queued k waiting R) (hkl : k ≤ l) :
    Queued l waiting R :=
  ⟨fun j hj => h.mem_iff j (hkl.trans hj), fun j hj => h.nodup j (hkl.trans hj)⟩

/-- A row that did not wait is given its new content and put among those that wait. -/
theorem Queued.enqueue {k : ℕ} {waiting : Vector (List (NumberedRow ℝ n)) n} (h : Queued k waiting R) {i : Fin n}
    (hi : ∀ j, (R i).lead? = some j → j.val < k) (entries : SparseRow ℝ n) :
    Queued k (Factorization.enqueue waiting ⟨i, entries⟩) (Function.update R i entries) := by
  have hnumber : ∀ j : Fin n, k ≤ j.val → ∀ row ∈ waiting.get j, row.number ≠ i := by
    rintro j hj row hrow rfl
    obtain ⟨hentries, hlead⟩ := (h.mem_iff j hj row).1 hrow
    exact absurd (hi j (hentries ▸ hlead)) (not_lt.2 hj)
  refine ⟨fun j hj row => ?_, fun j hj => ?_⟩
  · rw [get_enqueue]
    rcases eq_or_ne row.number i with rfl | hne
    · have hold : row ∉ waiting.get j := fun hrow => hnumber j hj row hrow rfl
      rw [Function.update_self]
      obtain ⟨number, old⟩ := row
      split_ifs with hlead
      · simp only [List.mem_cons, hold, or_false, NumberedRow.mk.injEq, true_and]
        exact ⟨fun heq => ⟨heq, heq ▸ hlead⟩, And.left⟩
      · exact ⟨fun hrow => absurd hrow hold, fun hnew => absurd (hnew.1 ▸ hnew.2) hlead⟩
    · rw [Function.update_of_ne hne, ← h.mem_iff j hj]
      split_ifs
      · exact List.mem_cons.trans (or_iff_right fun heq => hne (heq ▸ rfl))
      · rfl
  · rw [get_enqueue]
    split_ifs
    · exact List.nodup_cons.2 ⟨fun hrow => hnumber j hj _ hrow rfl, h.nodup j hj⟩
    · exact h.nodup j hj

/-- Rows put among those that wait one after the other. -/
theorem queued_foldl_enqueue (content : Fin n → SparseRow ℝ n) (is : List (Fin n)) (his : is.Nodup)
    {waiting : Vector (List (NumberedRow ℝ n)) n} (h : Queued 0 waiting R) (hR : ∀ i ∈ is, R i = []) :
    Queued 0 (is.foldl (fun waiting i => Factorization.enqueue waiting ⟨i, content i⟩) waiting)
      fun i => if i ∈ is then content i else R i := by
  induction is generalizing waiting R with
  | nil => simpa using h
  | cons i is ih =>
    obtain ⟨hi, his⟩ := List.nodup_cons.1 his
    obtain ⟨hRi, hR⟩ := List.forall_mem_cons.1 hR
    have hne : ∀ k ∈ is, k ≠ i := fun k hk hki => hi (hki ▸ hk)
    have hqueued := h.enqueue (i := i) (by simp [hRi, SparseRow.lead?]) (content i)
    have hrest := ih his hqueued fun k hk => by rw [Function.update_of_ne (hne k hk), hR k hk]
    refine Eq.subst (motive := fun R => Queued 0 _ R) (funext fun k => ?_) hrest
    by_cases hk : k ∈ is
    · rw [if_pos hk, if_pos (List.mem_cons_of_mem _ hk)]
    · rw [if_neg hk]
      rcases eq_or_ne k i with rfl | hki
      · rw [Function.update_self, if_pos List.mem_cons_self]
      · rw [Function.update_of_ne hki, if_neg (by simp [hk, hki])]

theorem selectPivot_perm (row : NumberedRow ℝ n) (rows : List (NumberedRow ℝ n)) :
    ((selectPivot row rows).1 :: (selectPivot row rows).2).Perm (row :: rows) := by
  induction rows generalizing row with
  | nil => exact .refl _
  | cons other rows ih =>
    unfold selectPivot
    split_ifs
    · exact (List.Perm.swap _ _ _).trans ((ih other).cons row)
    · exact (List.Perm.swap _ _ _).trans (((ih row).cons other).trans (.swap _ _ _))

/-! ### Elimination -/

/-- A row that copies the content of its number is given by the number. -/
theorem row_eq_of_number {row row' : NumberedRow ℝ n} (h : row.entries = R row.number)
    (h' : row'.entries = R row'.number) (hnumber : row.number = row'.number) : row = row' := by
  obtain ⟨number, entries⟩ := row
  obtain ⟨number', entries'⟩ := row'
  obtain rfl : number = number' := hnumber
  exact congrArg _ (h.trans h'.symm)

/-- Subtracts the right multiple of a pivot row from a row that begins at its column. -/
noncomputable def subtract (q : PivotRow ℝ n) (p : Progress ℝ n) (row : NumberedRow ℝ n) : Progress ℝ n :=
  match row.entries with
  | [] => p
  | (_, a) :: entries =>
    { waiting := Factorization.enqueue p.waiting ⟨row.number, SparseRow.subScaled (a / q.pivot) entries q.rest⟩
      factors := { p.factors with operations := p.factors.operations.push ⟨q.number, row.number, a / q.pivot⟩ } }

theorem subtract_of_entries {q : PivotRow ℝ n} {p : Progress ℝ n} {row : NumberedRow ℝ n} {c : Fin n} {a : ℝ}
    {entries : SparseRow ℝ n} (h : row.entries = (c, a) :: entries) :
    subtract q p row =
      { waiting := Factorization.enqueue p.waiting ⟨row.number, SparseRow.subScaled (a / q.pivot) entries q.rest⟩
        factors := { p.factors with
          operations := p.factors.operations.push ⟨q.number, row.number, a / q.pivot⟩ } } := by
  unfold subtract
  rw [h]

/-- One more pivot row. -/
def Progress.pushPivot (p : Progress ℝ n) (q : PivotRow ℝ n) : Progress ℝ n :=
  { p with factors := { p.factors with pivots := q :: p.factors.pivots } }

theorem eliminateColumn_eq (p : Progress ℝ n) (j : Fin n) :
    eliminateColumn p j =
      match p.waiting.get j with
      | [] => none
      | first :: others =>
        match (selectPivot first others).1.entries with
        | [] => none
        | (_, pivot) :: tail =>
          let q := ⟨(selectPivot first others).1.number, j, pivot, tail⟩
          some ((selectPivot first others).2.foldl (subtract q) (p.pushPivot q)) := by
  unfold eliminateColumn
  cases p.waiting.get j with
  | nil => rfl
  | cons first others =>
    simp only
    cases (selectPivot first others).1.entries with
    | nil => rfl
    | cons e tail =>
      refine congrArg some (congrArg (fun step => List.foldl step _ _) (funext fun p => funext fun row => ?_))
      unfold subtract
      cases row.entries with
      | nil => rfl
      | cons e entries => rfl

/-- Where an elimination stands when the columns before `k` have their pivots, and the rows `todo` still begin at the
last one of these. -/
structure Stage (A : Sparse ℝ n n) (k : ℕ) (todo : List (NumberedRow ℝ n)) (p : Progress ℝ n)
    (R : Fin n → SparseRow ℝ n) : Prop where
  reduced : Reduced A p.factors.operations R
  queued : Queued k p.waiting R
  stairs : Staircase k p.factors.pivots
  pivots : ∀ q ∈ p.factors.pivots, R q.number = q.row
  /-- A row is a pivot row, is still to be done, or has no entry left in the columns before `k`. -/
  left : ∀ i, (∃ q ∈ p.factors.pivots, q.number = i) ∨ (∃ row ∈ todo, row.number = i) ∨ ∀ e ∈ R i, k ≤ e.1.val
  nodup : todo.Nodup
  entries : ∀ row ∈ todo, row.entries = R row.number
  number : ∀ row ∈ todo, ∀ q ∈ p.factors.pivots, q.number ≠ row.number
  lead : ∀ row ∈ todo, ∃ c : Fin n, row.entries.lead? = some c ∧ c.val + 1 = k

namespace Stage

variable {k : ℕ} {todo : List (NumberedRow ℝ n)} {p : Progress ℝ n}

/-- One row less to be done: its content is what remains of it right of the pivot. -/
theorem subtract {row : NumberedRow ℝ n} (h : Stage A k (row :: todo) p R) {q : PivotRow ℝ n}
    (hq : q ∈ p.factors.pivots) (hk : q.column.val + 1 = k) : ∃ R', Stage A k todo (subtract q p row) R' := by
  obtain ⟨hrow, htodo⟩ := List.nodup_cons.1 h.nodup
  obtain ⟨hentries, hentriesRest⟩ := List.forall_mem_cons.1 h.entries
  obtain ⟨hnumber, hnumberRest⟩ := List.forall_mem_cons.1 h.number
  obtain ⟨⟨c, hlead, hc⟩, hleadRest⟩ := List.forall_mem_cons.1 h.lead
  obtain rfl : c = q.column := Fin.ext (by omega)
  obtain ⟨a, entries, hcontent⟩ := SparseRow.lead?_eq_some_iff.1 hlead
  have hR : R row.number = (q.column, a) :: entries := hentries.symm.trans hcontent
  have hother : ∀ row' ∈ todo, row'.number ≠ row.number := by
    intro row' hrow' hsame
    exact hrow (row_eq_of_number (hentriesRest row' hrow') hentries hsame ▸ hrow')
  rw [subtract_of_entries hcontent]
  refine ⟨Function.update R row.number (SparseRow.subScaled (a / q.pivot) entries q.rest), ?_⟩
  have hpivotRow := h.pivots q hq
  refine
    { reduced := h.reduced.subtract (hnumber q hq) hpivotRow hR
      queued := h.queued.enqueue (fun j hj => ?_) _
      stairs := h.stairs
      pivots := fun q' hq' => ?_
      left := fun i => ?_
      nodup := htodo
      entries := fun row' hrow' => ?_
      number := hnumberRest
      lead := hleadRest }
  · rw [hR] at hj
    obtain rfl : q.column = j := Option.some.inj hj
    omega
  · exact (Function.update_of_ne (hnumber q' hq') _ _).trans (h.pivots q' hq')
  · rcases eq_or_ne i row.number with rfl | hi
    · have hright : ∀ e ∈ SparseRow.subScaled (a / q.pivot) entries q.rest, q.column < e.1 :=
        SparseRow.forall_column_subScaled _ (hR ▸ h.reduced.normal row.number).sorted.head_lt
          (hpivotRow ▸ h.reduced.normal q.number).sorted.head_lt
      rw [Function.update_self]
      exact .inr (.inr fun e he => hk ▸ hright e he)
    · rw [Function.update_of_ne hi]
      rcases h.left i with hpivot | ⟨row', hrow', rfl⟩ | hcolumns
      · exact .inl hpivot
      · rcases List.mem_cons.1 hrow' with rfl | hrow'
        · exact absurd rfl hi
        · exact .inr (.inl ⟨row', hrow', rfl⟩)
      · exact .inr (.inr hcolumns)
  · rw [Function.update_of_ne (hother row' hrow')]
    exact hentriesRest row' hrow'

theorem foldl_subtract (h : Stage A k todo p R) {q : PivotRow ℝ n} (hq : q ∈ p.factors.pivots)
    (hk : q.column.val + 1 = k) : ∃ R', Stage A k [] (todo.foldl (Factorization.subtract q) p) R' := by
  induction todo generalizing p R with
  | nil => exact ⟨R, h⟩
  | cons row todo ih =>
    obtain ⟨R', h'⟩ := h.subtract hq hk
    refine ih h' ?_
    -- a row operation leaves the pivots alone
    unfold Factorization.subtract
    split
    · exact hq
    · exact hq

/-- One of the rows that wait at a column becomes its pivot row, and the others are to be done. -/
theorem pushPivot {j : Fin n} (h : Stage A j.val [] p R) {best : NumberedRow ℝ n} {rest : List (NumberedRow ℝ n)}
    (hperm : (best :: rest).Perm (p.waiting.get j)) {pivot : ℝ} {tail : SparseRow ℝ n}
    (hbest : best.entries = (j, pivot) :: tail) :
    Stage A (j.val + 1) rest (p.pushPivot ⟨best.number, j, pivot, tail⟩) R := by
  have hmem : ∀ row, row ∈ best :: rest ↔ row.entries = R row.number ∧ row.entries.lead? = some j :=
    fun row => hperm.mem_iff.trans (h.queued.mem_iff j le_rfl row)
  obtain ⟨hbestRest, hrest⟩ := List.nodup_cons.1 (hperm.nodup_iff.2 (h.queued.nodup j le_rfl))
  have hR : R best.number = (j, pivot) :: tail := ((hmem best).1 List.mem_cons_self).1.symm.trans hbest
  have hnormal : SparseRow.Normal ((j, pivot) :: tail) := hR ▸ h.reduced.normal best.number
  have hbefore := h.stairs.column_lt
  refine
    { reduced := h.reduced
      queued := h.queued.mono (Nat.le_succ _)
      stairs := Staircase.cons (p := ⟨best.number, j, pivot, tail⟩) (hnormal.ne_zero _ List.mem_cons_self)
        hnormal.sorted.head_lt h.stairs
      pivots := List.forall_mem_cons.2 ⟨hR, h.pivots⟩
      left := fun i => ?_
      nodup := hrest
      entries := fun row hrow => ((hmem row).1 (List.mem_cons_of_mem _ hrow)).1
      number := fun row hrow => List.forall_mem_cons.2 ⟨fun hsame => ?_, fun q hq hsame => ?_⟩
      lead := fun row hrow => ⟨j, ((hmem row).1 (List.mem_cons_of_mem _ hrow)).2, rfl⟩ }
  · rcases h.left i with ⟨q, hq, hi⟩ | ⟨row, hrow, -⟩ | hcolumns
    · exact .inl ⟨q, List.mem_cons_of_mem _ hq, hi⟩
    · exact absurd hrow List.not_mem_nil
    · -- a row that begins at the column waits there; any other one begins right of it
      by_cases hlead : (R i).lead? = some j
      · rcases List.mem_cons.1 ((hmem ⟨i, R i⟩).2 ⟨rfl, hlead⟩) with heq | hrow
        · exact .inl ⟨_, List.mem_cons_self, heq ▸ rfl⟩
        · exact .inr (.inl ⟨_, hrow, rfl⟩)
      · exact .inr (.inr ((h.reduced.normal i).sorted.lt_of_lead?_ne hcolumns hlead))
  · have hcontent := ((hmem row).1 (List.mem_cons_of_mem _ hrow)).1
    exact hbestRest (row_eq_of_number ((hmem best).1 List.mem_cons_self).1 hcontent hsame ▸ hrow)
  · obtain ⟨hentries, hlead⟩ := (hmem row).1 (List.mem_cons_of_mem _ hrow)
    rw [hentries, ← hsame, h.pivots q hq] at hlead
    have hcolumn : q.column = j := Option.some.inj hlead
    exact absurd (hcolumn ▸ hbefore q hq) (lt_irrefl _)

/-- Where no row begins at the next column, the pivot rows leave its unknown free and the others do not know it. -/
theorem exists_kernel {j : Fin n} (h : Stage A j.val [] p R) (hempty : p.waiting.get j = []) :
    ∃ x : Vec ℝ n, x ≠ Vec.zeros n ∧ A.mulVec x = Vec.zeros n := by
  obtain ⟨hkept, hpivots⟩ := h.stairs.backSubstitute_solves (Vec.zeros n) (.ofFn (Pi.single j 1))
  let x := backSubstitute (Vec.zeros n) p.factors.pivots (.ofFn (Pi.single j 1))
  -- right of the pivot rows the substitution keeps the unit vector of the free unknown
  have hunit : ∀ i : Fin n, j ≤ i → x.values i = Pi.single (M := fun _ => ℝ) j 1 i := by
    intro i hi
    rw [hkept i hi, Vec.values_ofFn]
  refine ⟨x, fun hx => ?_, h.reduced.mulVec_eq_zeros fun i => ?_⟩
  · have hone := hunit j le_rfl
    rw [hx, Vec.values_zeros, Pi.single_eq_same] at hone
    exact zero_ne_one hone
  · rcases h.left i with ⟨q, hq, rfl⟩ | ⟨row, hrow, -⟩ | hcolumns
    · rw [h.pivots q hq, hpivots q hq, Vec.values_zeros, Pi.zero_apply]
    · exact absurd hrow List.not_mem_nil
    · have hlead : (R i).lead? ≠ some j := by
        intro hlead
        have hrow := (h.queued.mem_iff j le_rfl ⟨i, R i⟩).2 ⟨rfl, hlead⟩
        exact absurd (hempty ▸ hrow) List.not_mem_nil
      have hright := (h.reduced.normal i).sorted.lt_of_lead?_ne hcolumns hlead
      rw [← SparseRow.dot_zeros (R i)]
      refine SparseRow.dot_congr fun e he => ?_
      rw [hunit e.1 (hright e he).le, Pi.single_eq_of_ne (hright e he).ne', Vec.values_zeros, Pi.zero_apply]

/-- One column: it gets a pivot, or the matrix takes some vector to zero. -/
theorem column {j : Fin n} (h : Stage A j.val [] p R) :
    (∃ p' R', eliminateColumn p j = some p' ∧ Stage A (j.val + 1) [] p' R') ∨
      eliminateColumn p j = none ∧ ∃ x : Vec ℝ n, x ≠ Vec.zeros n ∧ A.mulVec x = Vec.zeros n := by
  rw [eliminateColumn_eq]
  cases hwaiting : p.waiting.get j with
  | nil => exact .inr ⟨rfl, h.exists_kernel hwaiting⟩
  | cons first others =>
    have hperm : ((selectPivot first others).1 :: (selectPivot first others).2).Perm (p.waiting.get j) :=
      hwaiting ▸ selectPivot_perm first others
    have hbest := (h.queued.mem_iff j le_rfl _).1 (hperm.mem_iff.1 List.mem_cons_self)
    obtain ⟨pivot, tail, hentries⟩ := SparseRow.lead?_eq_some_iff.1 hbest.2
    obtain ⟨R', h'⟩ := (h.pushPivot hperm hentries).foldl_subtract List.mem_cons_self rfl
    simp only [hentries]
    exact .inl ⟨_, R', rfl, h'⟩

/-- Columns in their order. -/
theorem sweep {cols : List (Fin n)} (h : Stage A k [] p R) (hcols : cols.map Fin.val = List.range' k cols.length) :
    (∃ p' R', cols.foldlM eliminateColumn p = some p' ∧ Stage A (k + cols.length) [] p' R') ∨
      cols.foldlM eliminateColumn p = none ∧ ∃ x : Vec ℝ n, x ≠ Vec.zeros n ∧ A.mulVec x = Vec.zeros n := by
  induction cols generalizing k p R with
  | nil => exact .inl ⟨p, R, rfl, h⟩
  | cons j cols ih =>
    rw [List.map_cons, List.length_cons, List.range'_succ, List.cons.injEq] at hcols
    obtain ⟨rfl, hcols⟩ := hcols
    rw [List.foldlM_cons]
    rcases h.column with ⟨p', R', hp', h'⟩ | ⟨hnone, hkernel⟩
    · rw [hp', List.length_cons, ← Nat.add_assoc, Nat.add_right_comm]
      exact ih h' hcols
    · rw [hnone]
      exact .inr ⟨rfl, hkernel⟩

/-- At the end the factors find every argument of the matrix again. -/
theorem solve_mulVec (h : Stage A n [] p R) (x : Vec ℝ n) : p.factors.solve (A.mulVec x) = x := by
  rw [solve_eq]
  refine h.stairs.backSubstitute_eq (fun q hq => ?_) fun j hj => absurd j.isLt (not_lt.2 hj)
  rw [← h.pivots q hq, h.reduced.dot_eq]

end Stage

theorem stage_start (hA : A.Sorted) :
    Stage A 0 [] ⟨(List.finRange n).foldl
        (fun waiting i => enqueue waiting ⟨i, SparseRow.dropZeros (A.rows.get i)⟩) (Vector.replicate n []), ⟨#[], []⟩⟩
      fun i => SparseRow.dropZeros (A.rows.get i) where
  reduced := by
    refine ⟨fun x i => ?_, by simp, fun i => (hA i).normal_dropZeros⟩
    rw [SparseRow.dot_dropZeros, ← Sparse.get_mulVec]
    rfl
  queued := by
    have hnone : Queued 0 (Vector.replicate n []) fun _ => ([] : SparseRow ℝ n) :=
      ⟨fun j _ row => by simp [SparseRow.lead?]; rintro h; simp [h], fun j _ => by simp⟩
    simpa using queued_foldl_enqueue (fun i => SparseRow.dropZeros (A.rows.get i)) _ (List.nodup_finRange n) hnone
      fun _ _ => rfl
  stairs := .nil
  pivots := nofun
  left := fun _ => .inr (.inr fun _ _ => Nat.zero_le _)
  nodup := List.nodup_nil
  entries := nofun
  number := nofun
  lead := nofun

/-- Elimination gives factors that find every argument of the matrix again, or the matrix takes some vector to zero. -/
theorem ofMatrix?_cases (hA : A.Sorted) :
    (∃ f, ofMatrix? A = some f ∧ ∀ x, f.solve (A.mulVec x) = x) ∨
      ofMatrix? A = none ∧ ∃ x : Vec ℝ n, x ≠ Vec.zeros n ∧ A.mulVec x = Vec.zeros n := by
  have hcols : (List.finRange n).map Fin.val = List.range' 0 (List.finRange n).length := by
    rw [List.length_finRange, ← List.range_eq_range', List.map_coe_finRange_eq_range]
  unfold ofMatrix?
  dsimp only
  rcases (stage_start hA).sweep hcols with ⟨p, R, hp, h⟩ | ⟨hnone, hkernel⟩
  · rw [List.length_finRange, Nat.zero_add] at h
    exact .inl ⟨p.factors, by rw [hp]; rfl, h.solve_mulVec⟩
  · exact .inr ⟨by rw [hnone]; rfl, hkernel⟩

variable {f : Factorization ℝ n}

theorem solve_mulVec (hA : A.Sorted) (hf : ofMatrix? A = some f) (x : Vec ℝ n) : f.solve (A.mulVec x) = x := by
  rcases ofMatrix?_cases hA with ⟨f', hf', hsolve⟩ | ⟨hnone, -⟩
  · obtain rfl : f' = f := Option.some.inj (hf'.symm.trans hf)
    exact hsolve x
  · exact absurd (hnone.symm.trans hf) nofun

end Factorization

namespace Sparse

/-- What undoes a square matrix on the one side undoes it on the other. -/
theorem mulVec_of_leftInverse {A : Sparse ℝ n n} {g : Vec ℝ n → Vec ℝ n} (h : ∀ x, g (A.mulVec x) = x) :
    IsUnit A.toMatrix ∧ ∀ b, A.mulVec (g b) = b := by
  have hinjective : Function.Injective (A.toMatrix *ᵥ ·) := by
    refine injective_of_mulVec_eq_zero fun v hv => ?_
    have hzero : A.mulVec v = A.mulVec (Vec.zeros n) := by
      refine Vec.values_injective (hv.trans ?_)
      rw [values_mulVec, Vec.values_zeros, Matrix.mulVec_zero]
    rw [← h v, hzero, h, Vec.values_zeros]
  have hunit : IsUnit A.toMatrix := mulVec_injective_iff_isUnit.1 hinjective
  refine ⟨hunit, fun b => ?_⟩
  obtain ⟨z, hz⟩ := mulVec_surjective_iff_isUnit.2 hunit b.values
  have hb : A.mulVec (.ofFn z) = b := by
    refine Vec.values_injective ?_
    rw [values_mulVec, Vec.values_ofFn]
    exact hz
  rw [← hb, h]

end Sparse

namespace Factorization

variable {A : Sparse ℝ n n} {f : Factorization ℝ n}

theorem mulVec_solve (hA : A.Sorted) (hf : ofMatrix? A = some f) (b : Vec ℝ n) : A.mulVec (f.solve b) = b :=
  (Sparse.mulVec_of_leftInverse (solve_mulVec hA hf)).2 b

/-- There are factors exactly when the matrix is not singular. -/
theorem exists_ofMatrix?_iff (hA : A.Sorted) : (∃ f, ofMatrix? A = some f) ↔ IsUnit A.toMatrix := by
  constructor
  · rintro ⟨f, hf⟩
    exact (Sparse.mulVec_of_leftInverse (solve_mulVec hA hf)).1
  · intro hunit
    rcases ofMatrix?_cases hA with ⟨f, hf, -⟩ | ⟨-, x, hne, hx⟩
    · exact ⟨f, hf⟩
    · refine absurd (Vec.values_injective (mulVec_injective_iff_isUnit.2 hunit ?_)) hne
      show A.toMatrix *ᵥ x.values = A.toMatrix *ᵥ (Vec.zeros n).values
      rw [← Sparse.values_mulVec, hx, Vec.values_zeros, Matrix.mulVec_zero]

end Factorization

end Magnetofluid
