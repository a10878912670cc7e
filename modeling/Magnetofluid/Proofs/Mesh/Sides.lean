import Mathlib
import Magnetofluid.Proofs.Mesh.Edges

/-!
# Sums over the sides of triangles

Each corner of a triangle lies opposite one of its sides.  What is summed over all sides of all triangles is a sum over
the edges of the grid, of which those of one triangle are the boundary edges.

* `Grid.side`, `Grid.exists_side`: the sides of a triangle, and that they are all of its edges.
* `Grid.sum_sides`: a sum over the sides of all triangles, edge by edge.
* `Grid.sum_boundary`: a sum over the boundary edges, each of which has one triangle.
-/

namespace Magnetofluid.Grid

variable {g : Grid}

/-! ### Sides -/

def side (g : Grid) (t : Fin g.triangles) (b : Fin 3) : Sym2 (Fin g.nodes) :=
  s(g.corner t (b + second), g.corner t (b + third))

theorem side_not_isDiag (t : Fin g.triangles) (b : Fin 3) : ¬ (g.side t b).IsDiag := by
  have hne : ∀ b : Fin 3, b + second ≠ b + third := by decide
  rw [side, Sym2.mk_isDiag_iff]
  exact fun h => hne b (corner_injective t h)

theorem mem_owners_side (t : Fin g.triangles) (b : Fin 3) : t ∈ g.owners (g.side t b) :=
  mem_owners.2 ⟨⟨_, rfl⟩, ⟨_, rfl⟩⟩

/-- A side has all corners but the one opposite to it. -/
theorem corner_mem_side_iff {t : Fin g.triangles} {a b : Fin 3} : g.corner t a ∈ g.side t b ↔ a ≠ b := by
  have hothers : ∀ a b : Fin 3, a = b + second ∨ a = b + third ↔ a ≠ b := by decide
  rw [side, Sym2.mem_iff, (corner_injective t).eq_iff, (corner_injective t).eq_iff, hothers]

theorem eq_corner_of_notMem_side {t : Fin g.triangles} {b : Fin 3} {k : Fin g.nodes} (hk : g.HasCorner t k)
    (hside : k ∉ g.side t b) : k = g.corner t b := by
  obtain ⟨a, rfl⟩ := hk
  rw [corner_mem_side_iff, not_not] at hside
  rw [hside]

theorem side_injective (t : Fin g.triangles) : Function.Injective (g.side t) := by
  intro a b hab
  by_contra hne
  have hmem : g.corner t a ∈ g.side t b := corner_mem_side_iff.2 hne
  rw [← hab] at hmem
  exact corner_mem_side_iff.1 hmem rfl

theorem exists_side {t : Fin g.triangles} {z : Sym2 (Fin g.nodes)} (hz : ¬ z.IsDiag) (ht : t ∈ g.owners z) :
    ∃ b, g.side t b = z := by
  have hopposite : ∀ a a' : Fin 3, a ≠ a' → ∃ b : Fin 3, s(b + second, b + third) = s(a, a') := by decide
  induction z using Sym2.ind with
  | _ p q =>
    obtain ⟨⟨a, rfl⟩, ⟨a', rfl⟩⟩ := mem_owners.1 ht
    have hne : a ≠ a' := fun h => hz (by rw [h]; exact Sym2.mk_isDiag_iff.2 rfl)
    obtain ⟨b, hb⟩ := hopposite a a' hne
    exact ⟨b, congrArg (Sym2.map (g.corner t)) hb⟩

theorem card_owners_of_mem {t : Fin g.triangles} {z : Sym2 (Fin g.nodes)} (hz : ¬ z.IsDiag) (ht : t ∈ g.owners z) :
    (g.owners z).card = 1 ∨ (g.owners z).card = 2 := by
  induction z using Sym2.ind with
  | _ p q => exact card_owners (fun h => hz (Sym2.mk_isDiag_iff.2 h)) ht

/-! ### Sums -/

/-- The pairs of different nodes that so many triangles share. -/
def shared (g : Grid) (count : ℕ) : Finset (Sym2 (Fin g.nodes)) := {z | ¬ z.IsDiag ∧ (g.owners z).card = count}

theorem mem_shared {z : Sym2 (Fin g.nodes)} {count : ℕ} :
    z ∈ g.shared count ↔ ¬ z.IsDiag ∧ (g.owners z).card = count := by
  simp [shared]

section Sums

variable (f : Fin g.triangles → Sym2 (Fin g.nodes) → ℝ)

/-- What the triangles of a pair of nodes contribute to a sum. -/
def ownerSum (z : Sym2 (Fin g.nodes)) : ℝ := ∑ t ∈ g.owners z, f t z

theorem sum_side (t : Fin g.triangles) : ∑ b, f t (g.side t b) = ∑ z with ¬ z.IsDiag ∧ t ∈ g.owners z, f t z := by
  refine Finset.sum_nbij (g.side t) (fun b _ => ?_) ((side_injective t).injOn) (fun z hz => ?_) fun _ _ => rfl
  · simpa using ⟨side_not_isDiag t b, mem_owners_side t b⟩
  · obtain ⟨hdiag, ht⟩ : ¬ z.IsDiag ∧ t ∈ g.owners z := by simpa using hz
    obtain ⟨b, rfl⟩ := exists_side hdiag ht
    simp

theorem disjoint_shared (g : Grid) : Disjoint (g.shared 1) (g.shared 2) := by
  refine Finset.disjoint_left.2 fun z h1 h2 => ?_
  have h12 := (mem_shared.1 h1).2.symm.trans (mem_shared.1 h2).2
  exact absurd h12 (by decide)

/-- Nodes that are in no triangle together do not count. -/
theorem sum_owners : ∑ z with ¬ z.IsDiag, ownerSum f z =
    ∑ z ∈ g.shared 1, ownerSum f z + ∑ z ∈ g.shared 2, ownerSum f z := by
  rw [← Finset.sum_union g.disjoint_shared]
  symm
  refine Finset.sum_subset (fun z hz => ?_) fun z hz hnot => ?_
  · obtain hz | hz := Finset.mem_union.1 hz <;> simpa using (mem_shared.1 hz).1
  · have hdiag : ¬ z.IsDiag := by simpa using hz
    simp only [Finset.mem_union, mem_shared, hdiag, not_false_eq_true, true_and] at hnot
    exact Finset.sum_eq_zero fun t ht => absurd (card_owners_of_mem hdiag ht) hnot

/-- A sum over the sides of all triangles, edge by edge. -/
theorem sum_sides : ∑ t, ∑ b, f t (g.side t b) =
    ∑ z ∈ g.shared 1, ownerSum f z + ∑ z ∈ g.shared 2, ownerSum f z := by
  rw [← sum_owners]
  simp only [sum_side, ownerSum]
  refine Finset.sum_comm' fun t z => ?_
  simp [and_comm]

/-- A sum over the boundary edges, each with its triangle. -/
theorem sum_boundary : (g.boundary.map fun e => f e.cell e.ends).sum = ∑ z ∈ g.shared 1, ownerSum f z := by
  have hterm : ∀ e ∈ g.boundary, f e.cell e.ends = ownerSum f e.ends := by
    intro e he
    rw [ownerSum, owners_of_mem_boundary he, Finset.sum_singleton]
  have hfinset : (g.boundary.map BoundaryEdge.ends).toFinset = g.shared 1 := by
    ext z
    rw [List.mem_toFinset, mem_boundary_iff, mem_shared]
  rw [List.map_congr_left hterm, ← hfinset, List.sum_toFinset _ g.nodup_boundary, List.map_map]
  rfl

end Sums

end Magnetofluid.Grid
