import Mathlib
import Magnetofluid.Proofs.Mesh.Grid

/-!
# Edges of a grid

Which triangles two nodes share, and the list of the boundary edges.  In columns and rows a triangle holds the nodes
that satisfy three inequalities, `Grid.hasCorner_lower` and `Grid.hasCorner_upper`; what is said of edges follows from
these for all three directions of an edge at once.

* `Grid.card_owners`: two nodes of a triangle are nodes of one or of two triangles.
* `Grid.card_owners_eq_one_iff`: of one only if they are on the same side of the rectangle.
* `Grid.nodup_boundary`, `Grid.mem_boundary_iff`, `Grid.owners_of_mem_boundary`: the boundary edges are these pairs,
  each of them once, and each with its triangle.
* `Grid.conforming`: all of this together.
-/

namespace Magnetofluid.Grid

variable (g : Grid)

/-! ### Corners -/

def HasCorner (t : Fin g.triangles) (k : Fin g.nodes) : Prop := ∃ a, g.corner t a = k

instance (t : Fin g.triangles) : DecidablePred (g.HasCorner t) := fun k => by unfold HasCorner; infer_instance

variable {g}

theorem node_eq_iff {i : Fin (g.nx + 1)} {j : Fin (g.ny + 1)} {k : Fin g.nodes} :
    g.node i j = k ↔ (g.column k).val = i ∧ (g.row k).val = j := by
  constructor
  · rintro rfl
    rw [column_node, row_node]
    exact ⟨rfl, rfl⟩
  · rintro ⟨hi, hj⟩
    rw [← Fin.ext hi, ← Fin.ext hj, node_column_row]

theorem node_inj {i i' : Fin (g.nx + 1)} {j j' : Fin (g.ny + 1)} : g.node i j = g.node i' j' ↔ i = i' ∧ j = j' := by
  rw [node_eq_iff, column_node, row_node, Fin.val_inj, Fin.val_inj, @eq_comm _ i, @eq_comm _ j]

theorem node_bijective (g : Grid) :
    Function.Bijective fun c : Fin (g.nx + 1) × Fin (g.ny + 1) => g.node c.1 c.2 :=
  ⟨fun _ _ h => Prod.ext_iff.2 (node_inj.1 h), fun k => ⟨(g.column k, g.row k), g.node_column_row k⟩⟩

theorem eq_of_column_row {p q : Fin g.nodes} (hc : (g.column p).val = g.column q) (hr : (g.row p).val = g.row q) :
    p = q := by
  rw [← g.node_column_row p, node_eq_iff]
  exact ⟨hc.symm, hr.symm⟩

theorem hasCorner_iff {t : Fin g.triangles} {k : Fin g.nodes} :
    g.HasCorner t k ↔ g.corner t first = k ∨ g.corner t second = k ∨ g.corner t third = k := by
  simp [HasCorner, Fin.exists_fin_succ, first, second, third]

/-- A lower triangle holds the nodes that are neither left of its square nor below it, nor above its own diagonal. -/
theorem hasCorner_lower {i : Fin g.nx} {j : Fin g.ny} {k : Fin g.nodes} : g.HasCorner (g.lower i j) k ↔
    i.val ≤ g.column k ∧ j.val ≤ g.row k ∧ (g.column k).val + g.row k ≤ i + j + 1 := by
  rw [hasCorner_iff, corner_lower_first, corner_lower_second, corner_lower_third, node_eq_iff, node_eq_iff,
    node_eq_iff]
  simp only [Fin.val_castSucc, Fin.val_succ]
  omega

/-- An upper triangle holds the nodes that are neither right of its square nor above it, nor below its own diagonal. -/
theorem hasCorner_upper {i : Fin g.nx} {j : Fin g.ny} {k : Fin g.nodes} : g.HasCorner (g.upper i j) k ↔
    (g.column k).val ≤ i + 1 ∧ (g.row k).val ≤ j + 1 ∧ i.val + j + 1 ≤ g.column k + g.row k := by
  rw [hasCorner_iff, corner_upper_first, corner_upper_second, corner_upper_third, node_eq_iff, node_eq_iff,
    node_eq_iff]
  simp only [Fin.val_castSucc, Fin.val_succ]
  omega

theorem corner_injective (t : Fin g.triangles) : Function.Injective (g.corner t) := by
  have hdistinct : g.corner t first ≠ g.corner t second ∧ g.corner t first ≠ g.corner t third ∧
      g.corner t second ≠ g.corner t third := by
    obtain ⟨i, j, rfl | rfl⟩ := g.eq_lower_or_upper t
    · rw [corner_lower_first, corner_lower_second, corner_lower_third]
      simp [node_eq_iff]
    · rw [corner_upper_first, corner_upper_second, corner_upper_third]
      simp [node_eq_iff]
  obtain ⟨h12, h13, h23⟩ := hdistinct
  intro a b hab
  match a, b with
  | 0, 0 | 1, 1 | 2, 2 => rfl
  | 0, 1 => exact absurd hab h12
  | 0, 2 => exact absurd hab h13
  | 1, 2 => exact absurd hab h23
  | 1, 0 => exact absurd hab.symm h12
  | 2, 0 => exact absurd hab.symm h13
  | 2, 1 => exact absurd hab.symm h23

/-! ### Triangles of two nodes -/

/-- The triangles that have all nodes of a pair. -/
def owners (g : Grid) (z : Sym2 (Fin g.nodes)) : Finset (Fin g.triangles) := {t | ∀ k ∈ z, g.HasCorner t k}

theorem mem_owners {t : Fin g.triangles} {p q : Fin g.nodes} :
    t ∈ g.owners s(p, q) ↔ g.HasCorner t p ∧ g.HasCorner t q := by
  simp [owners]

/-- Two nodes are at most one column, one row and one falling diagonal apart. -/
structure Near (p q : Fin g.nodes) : Prop where
  column_le : (g.column p).val ≤ g.column q + 1
  le_column : (g.column q).val ≤ g.column p + 1
  row_le : (g.row p).val ≤ g.row q + 1
  le_row : (g.row q).val ≤ g.row p + 1
  diagonal_le : (g.column p).val + g.row p ≤ g.column q + g.row q + 1
  le_diagonal : (g.column q).val + g.row q ≤ g.column p + g.row p + 1

theorem near_of_hasCorner {t : Fin g.triangles} {p q : Fin g.nodes} (hp : g.HasCorner t p) (hq : g.HasCorner t q) :
    Near p q := by
  obtain ⟨i, j, rfl | rfl⟩ := g.eq_lower_or_upper t
  · rw [hasCorner_lower] at hp hq
    constructor <;> omega
  · rw [hasCorner_upper] at hp hq
    constructor <;> omega

section Pair

variable {p q : Fin g.nodes}

theorem column_ne_or_row_ne (hpq : p ≠ q) : (g.column p).val ≠ g.column q ∨ (g.row p).val ≠ g.row q := by
  by_contra h
  rw [not_or, not_not, not_not] at h
  exact hpq (eq_of_column_row h.1 h.2)

theorem lower_unique {i i' : Fin g.nx} {j j' : Fin g.ny} (hpq : p ≠ q) (h : g.lower i j ∈ g.owners s(p, q))
    (h' : g.lower i' j' ∈ g.owners s(p, q)) : g.lower i j = g.lower i' j' := by
  rw [mem_owners, hasCorner_lower, hasCorner_lower] at h h'
  have hne := column_ne_or_row_ne hpq
  have hi : i = i' := Fin.ext (by omega)
  have hj : j = j' := Fin.ext (by omega)
  rw [hi, hj]

theorem upper_unique {i i' : Fin g.nx} {j j' : Fin g.ny} (hpq : p ≠ q) (h : g.upper i j ∈ g.owners s(p, q))
    (h' : g.upper i' j' ∈ g.owners s(p, q)) : g.upper i j = g.upper i' j' := by
  rw [mem_owners, hasCorner_upper, hasCorner_upper] at h h'
  have hne := column_ne_or_row_ne hpq
  have hi : i = i' := Fin.ext (by omega)
  have hj : j = j' := Fin.ext (by omega)
  rw [hi, hj]

theorem eq_of_mem_owners {t t' : Fin g.triangles} (hpq : p ≠ q) (h : t ∈ g.owners s(p, q))
    (h' : t' ∈ g.owners s(p, q)) (hparity : t.val % 2 = t'.val % 2) : t = t' := by
  obtain ⟨i, j, rfl | rfl⟩ := g.eq_lower_or_upper t <;> obtain ⟨i', j', rfl | rfl⟩ := g.eq_lower_or_upper t'
  · exact lower_unique hpq h h'
  · rw [lower_even, upper_odd] at hparity
    exact absurd hparity (by decide)
  · rw [lower_even, upper_odd] at hparity
    exact absurd hparity (by decide)
  · exact upper_unique hpq h h'

theorem card_owners {t : Fin g.triangles} (hpq : p ≠ q) (ht : t ∈ g.owners s(p, q)) :
    (g.owners s(p, q)).card = 1 ∨ (g.owners s(p, q)).card = 2 := by
  have hpos : 0 < (g.owners s(p, q)).card := Finset.card_pos.2 ⟨t, ht⟩
  -- the numbers of lower triangles are even and those of upper ones odd
  have hle : (g.owners s(p, q)).card ≤ (Finset.range 2).card :=
    Finset.card_le_card_of_injOn (fun t => t.val % 2)
      (fun t _ => Finset.mem_coe.2 (Finset.mem_range.2 (Nat.mod_lt _ Nat.two_pos)))
      fun t ht t' ht' => eq_of_mem_owners hpq ht ht'
  rw [Finset.card_range] at hle
  omega

theorem card_owners_eq_two_iff (hpq : p ≠ q) : (g.owners s(p, q)).card = 2 ↔
    (∃ i j, g.lower i j ∈ g.owners s(p, q)) ∧ ∃ i j, g.upper i j ∈ g.owners s(p, q) := by
  constructor
  · intro h
    obtain ⟨t, t', hne, heq⟩ := Finset.card_eq_two.1 h
    have ht : t ∈ g.owners s(p, q) := heq ▸ Finset.mem_insert_self _ _
    have ht' : t' ∈ g.owners s(p, q) := heq ▸ Finset.mem_insert_of_mem (Finset.mem_singleton_self _)
    obtain ⟨i, j, rfl | rfl⟩ := g.eq_lower_or_upper t <;> obtain ⟨i', j', rfl | rfl⟩ := g.eq_lower_or_upper t'
    · exact absurd (lower_unique hpq ht ht') hne
    · exact ⟨⟨i, j, ht⟩, ⟨i', j', ht'⟩⟩
    · exact ⟨⟨i', j', ht'⟩, ⟨i, j, ht⟩⟩
    · exact absurd (upper_unique hpq ht ht') hne
  · rintro ⟨⟨i, j, hl⟩, ⟨i', j', hu⟩⟩
    refine (card_owners hpq hl).resolve_left fun hone => ?_
    have heq := Finset.card_le_one.1 hone.le _ hl _ hu
    have hparity := g.lower_even i j
    rw [heq, upper_odd] at hparity
    exact one_ne_zero hparity

end Pair

/-! ### Sides -/

def OnSide (g : Grid) : Side → Fin g.nodes → Prop
  | .bottom, k => (g.row k).val = 0
  | .right, k => (g.column k).val = g.nx
  | .top, k => (g.row k).val = g.ny
  | .left, k => (g.column k).val = 0

section Pair

variable {s s' : Side} {p q : Fin g.nodes}

/-- Neighbours share a lower triangle unless they are on the right or on the top side. -/
theorem exists_lower_iff (hpq : p ≠ q) (hnear : Near p q) : (∃ i j, g.lower i j ∈ g.owners s(p, q)) ↔
    ¬ (g.OnSide .right p ∧ g.OnSide .right q) ∧ ¬ (g.OnSide .top p ∧ g.OnSide .top q) := by
  have hne := column_ne_or_row_ne hpq
  obtain ⟨_, _, _, _, _, _⟩ := hnear
  have hcp := (g.column p).isLt
  have hcq := (g.column q).isLt
  have hrp := (g.row p).isLt
  have hrq := (g.row q).isLt
  simp only [mem_owners, hasCorner_lower, OnSide]
  constructor
  · rintro ⟨i, j, h⟩
    omega
  · intro h
    -- the square that has both nodes above and to the right of its lower left corner, or there
    refine ⟨⟨min (g.column p).val (g.column q), by omega⟩, ⟨min (g.row p).val (g.row q), by omega⟩, ?_⟩
    simp only
    omega

/-- Neighbours share an upper triangle unless they are on the left or on the bottom side. -/
theorem exists_upper_iff (hpq : p ≠ q) (hnear : Near p q) : (∃ i j, g.upper i j ∈ g.owners s(p, q)) ↔
    ¬ (g.OnSide .left p ∧ g.OnSide .left q) ∧ ¬ (g.OnSide .bottom p ∧ g.OnSide .bottom q) := by
  have hne := column_ne_or_row_ne hpq
  obtain ⟨_, _, _, _, _, _⟩ := hnear
  have hcp := (g.column p).isLt
  have hcq := (g.column q).isLt
  have hrp := (g.row p).isLt
  have hrq := (g.row q).isLt
  simp only [mem_owners, hasCorner_upper, OnSide]
  constructor
  · rintro ⟨i, j, h⟩
    omega
  · intro h
    -- the square that has both nodes below and to the left of its upper right corner, or there
    refine ⟨⟨max (g.column p).val (g.column q) - 1, by omega⟩,
      ⟨max (g.row p).val (g.row q) - 1, by omega⟩, ?_⟩
    simp only
    omega

theorem card_owners_eq_one_iff {t : Fin g.triangles} (hpq : p ≠ q) (ht : t ∈ g.owners s(p, q)) :
    (g.owners s(p, q)).card = 1 ↔ ∃ s, g.OnSide s p ∧ g.OnSide s q := by
  have hnear := near_of_hasCorner (mem_owners.1 ht).1 (mem_owners.1 ht).2
  have hone : (g.owners s(p, q)).card = 1 ↔ ¬ (g.owners s(p, q)).card = 2 := by
    have := card_owners hpq ht
    omega
  -- only one triangle is left where the lower or the upper one would lie outside
  rw [hone, card_owners_eq_two_iff hpq, exists_lower_iff hpq hnear, exists_upper_iff hpq hnear]
  constructor
  · intro h
    by_contra hside
    rw [not_exists] at hside
    exact h ⟨⟨hside _, hside _⟩, ⟨hside _, hside _⟩⟩
  · rintro ⟨s, hs⟩ ⟨⟨hright, htop⟩, ⟨hleft, hbottom⟩⟩
    cases s with
    | bottom => exact hbottom hs
    | right => exact hright hs
    | top => exact htop hs
    | left => exact hleft hs

theorem ne_of_step (hstep : (g.column q).val + g.row q = g.column p + g.row p + 1) : p ≠ q := by
  rintro rfl
  omega

/-- Neighbours on a side are one step apart. -/
theorem step_of_near (hpq : p ≠ q) (hnear : Near p q) (hp : g.OnSide s p) (hq : g.OnSide s q) :
    (g.column q).val + g.row q = g.column p + g.row p + 1 ∨
      (g.column p).val + g.row p = g.column q + g.row q + 1 := by
  have hne := column_ne_or_row_ne hpq
  obtain ⟨_, _, _, _, _, _⟩ := hnear
  cases s <;> simp only [OnSide] at hp hq <;> omega

/-- Two nodes lie together on one side at most. -/
theorem side_unique (hpq : p ≠ q) (hp : g.OnSide s p) (hq : g.OnSide s q) (hp' : g.OnSide s' p)
    (hq' : g.OnSide s' q) : s = s' := by
  have hne := column_ne_or_row_ne hpq
  have hnx := g.nx_pos
  have hny := g.ny_pos
  cases s <;> cases s' <;> simp only [OnSide, reduceCtorEq] at hp hq hp' hq' ⊢ <;> omega

end Pair

/-! ### Boundary edges -/

def BoundaryEdge.ends (e : g.BoundaryEdge) : Sym2 (Fin g.nodes) := s(e.start, e.stop)

section Edge

variable {s : Side} {p q : Fin g.nodes} {e e' : g.BoundaryEdge}

/-- A boundary edge leads one step along its side and is an edge of its triangle. -/
structure BoundaryEdge.Along (e : g.BoundaryEdge) : Prop where
  start_onSide : g.OnSide e.side e.start
  stop_onSide : g.OnSide e.side e.stop
  /-- Along a side only one of the column and the row grows. -/
  step : (g.column e.stop).val + g.row e.stop = g.column e.start + g.row e.start + 1
  hasCorner_start : g.HasCorner e.cell e.start
  hasCorner_stop : g.HasCorner e.cell e.stop

theorem side_of_mem_edgesOf (he : e ∈ g.edgesOf s) : e.side = s := by
  cases s <;> obtain ⟨i, -, rfl⟩ := List.mem_map.1 he <;> rfl

theorem mem_boundary : e ∈ g.boundary ↔ ∃ s, e ∈ g.edgesOf s := by
  have hall : ∀ s, s ∈ Side.all := by
    intro s
    cases s <;> decide
  simp [boundary, hall]

theorem along_of_mem_boundary (he : e ∈ g.boundary) : e.Along := by
  have hnx := g.nx_pos
  have hny := g.ny_pos
  obtain ⟨s, he⟩ := mem_boundary.1 he
  -- in columns and rows each field is arithmetic, for a square of the first or the last column or row
  cases s <;> obtain ⟨i, -, rfl⟩ := List.mem_map.1 he <;> constructor <;>
    simp only [OnSide, hasCorner_lower, hasCorner_upper, column_node, row_node, Fin.val_castSucc, Fin.val_succ,
      Fin.val_last, Fin.val_zero] <;> omega

/-- Every step along a side is one of its edges. -/
theorem exists_mem_edgesOf (hp : g.OnSide s p) (hq : g.OnSide s q)
    (hstep : (g.column q).val + g.row q = g.column p + g.row p + 1) :
    ∃ e ∈ g.edgesOf s, e.start = p ∧ e.stop = q := by
  have hcq := (g.column q).isLt
  have hrq := (g.row q).isLt
  cases s <;> simp only [OnSide] at hp hq
  case bottom | top =>
    refine ⟨_, List.mem_map_of_mem (List.mem_finRange ⟨g.column p, by omega⟩),
      node_eq_iff.2 ⟨rfl, hp⟩, node_eq_iff.2 ⟨?_, hq⟩⟩
    simp only [Fin.val_succ]
    omega
  case right | left =>
    refine ⟨_, List.mem_map_of_mem (List.mem_finRange ⟨g.row p, by omega⟩),
      node_eq_iff.2 ⟨hp, rfl⟩, node_eq_iff.2 ⟨hq, ?_⟩⟩
    simp only [Fin.val_succ]
    omega

theorem BoundaryEdge.Along.start_ne_stop (he : e.Along) : e.start ≠ e.stop :=
  ne_of_step he.step

theorem BoundaryEdge.Along.mem_owners (he : e.Along) : e.cell ∈ g.owners e.ends :=
  Grid.mem_owners.2 ⟨he.hasCorner_start, he.hasCorner_stop⟩

/-- The third corner of the triangle is off the side. -/
theorem BoundaryEdge.Along.not_onSide (he : e.Along) {k : Fin g.nodes} (hk : g.HasCorner e.cell k)
    (hends : k ∉ e.ends) : ¬ g.OnSide e.side k := by
  intro hside
  rw [BoundaryEdge.ends, Sym2.mem_iff, not_or] at hends
  have hstart := step_of_near hends.1 (near_of_hasCorner hk he.hasCorner_start) hside he.start_onSide
  have hstop := step_of_near hends.2 (near_of_hasCorner hk he.hasCorner_stop) hside he.stop_onSide
  have hstep := he.step
  omega

/-- Edges with the same end points have them in the same order and lie on the same side. -/
theorem BoundaryEdge.Along.eq_of_ends (he : e.Along) (he' : e'.Along) (hends : e.ends = e'.ends) :
    e.start = e'.start ∧ e.side = e'.side := by
  have hstep := he.step
  have hstep' := he'.step
  obtain ⟨hstart, hstop⟩ | ⟨hstart, hstop⟩ := Sym2.eq_iff.1 hends
  · refine ⟨hstart, side_unique he.start_ne_stop he.start_onSide he.stop_onSide ?_ ?_⟩
    · exact hstart ▸ he'.start_onSide
    · exact hstop ▸ he'.stop_onSide
  · -- both edges would have to lead the other way
    rw [hstart, hstop] at hstep
    omega

/-- The edges of a side start at different nodes. -/
theorem nodup_start (s : Side) : ((g.edgesOf s).map BoundaryEdge.start).Nodup := by
  cases s <;> rw [edgesOf, List.map_map] <;> refine (List.nodup_finRange _).map fun i i' h => ?_ <;>
    simpa [node_inj] using h

theorem nodup_boundary (g : Grid) : (g.boundary.map BoundaryEdge.ends).Nodup := by
  have halong : ∀ {s e}, e ∈ g.edgesOf s → e.Along := fun he => along_of_mem_boundary (mem_boundary.2 ⟨_, he⟩)
  rw [boundary, List.map_flatMap, List.nodup_flatMap]
  constructor
  · intro s _
    refine List.pairwise_map.2 ((List.pairwise_map.1 (nodup_start s)).imp_of_mem ?_)
    intro e e' he he' hstart hends
    exact hstart ((halong he).eq_of_ends (halong he') hends).1
  · have hsides : Side.all.Nodup := by decide
    refine hsides.imp fun {s s'} hs z hz hz' => ?_
    obtain ⟨e, he, rfl⟩ := List.mem_map.1 hz
    obtain ⟨e', he', hends⟩ := List.mem_map.1 hz'
    have hside := ((halong he').eq_of_ends (halong he) hends).2
    rw [side_of_mem_edgesOf he, side_of_mem_edgesOf he'] at hside
    exact hs hside.symm

theorem card_owners_of_mem_boundary (he : e ∈ g.boundary) : (g.owners e.ends).card = 1 := by
  have halong := along_of_mem_boundary he
  exact (card_owners_eq_one_iff halong.start_ne_stop halong.mem_owners).2
    ⟨e.side, halong.start_onSide, halong.stop_onSide⟩

theorem owners_of_mem_boundary (he : e ∈ g.boundary) : g.owners e.ends = {e.cell} := by
  obtain ⟨t, ht⟩ := Finset.card_eq_one.1 (card_owners_of_mem_boundary he)
  have hcell := (along_of_mem_boundary he).mem_owners
  rw [ht, Finset.mem_singleton] at hcell
  rw [ht, hcell]

theorem mem_boundary_iff (z : Sym2 (Fin g.nodes)) :
    z ∈ g.boundary.map BoundaryEdge.ends ↔ ¬ z.IsDiag ∧ (g.owners z).card = 1 := by
  rw [List.mem_map]
  constructor
  · rintro ⟨e, he, rfl⟩
    refine ⟨fun hdiag => ?_, card_owners_of_mem_boundary he⟩
    exact (along_of_mem_boundary he).start_ne_stop (Sym2.mk_isDiag_iff.1 hdiag)
  · induction z using Sym2.ind with
    | _ p q =>
      rintro ⟨hpq, hone⟩
      rw [Sym2.mk_isDiag_iff] at hpq
      obtain ⟨t, ht⟩ := Finset.card_pos.1 (hone ▸ Nat.one_pos)
      obtain ⟨s, hp, hq⟩ := (card_owners_eq_one_iff hpq ht).1 hone
      have hnear := near_of_hasCorner (mem_owners.1 ht).1 (mem_owners.1 ht).2
      -- the list has the edge in one of its two directions
      obtain hstep | hstep := step_of_near hpq hnear hp hq
      · obtain ⟨e, he, rfl, rfl⟩ := exists_mem_edgesOf hp hq hstep
        exact ⟨e, mem_boundary.2 ⟨s, he⟩, rfl⟩
      · obtain ⟨e, he, rfl, rfl⟩ := exists_mem_edgesOf hq hp hstep
        exact ⟨e, mem_boundary.2 ⟨s, he⟩, Sym2.eq_swap⟩

end Edge

/-! ### Conformity -/

/-- The triangles of a grid meet in whole edges, and the list of the boundary edges tells where they end. -/
structure Conforming (g : Grid) : Prop where
  node_bijective : Function.Bijective fun c : Fin (g.nx + 1) × Fin (g.ny + 1) => g.node c.1 c.2
  node_val : ∀ i j, ((g.node i j).val : ℤ) = g.index i.val j.val
  corner_injective : ∀ t, Function.Injective (g.corner t)
  exists_hasCorner : ∀ k, ∃ t, g.HasCorner t k
  /-- An edge of a triangle belongs to it alone or to one other triangle as well. -/
  card_owners : ∀ t a b, a ≠ b → (g.owners s(g.corner t a, g.corner t b)).card = 1 ∨
    (g.owners s(g.corner t a, g.corner t b)).card = 2
  nodup_boundary : (g.boundary.map BoundaryEdge.ends).Nodup
  mem_boundary : ∀ z, z ∈ g.boundary.map BoundaryEdge.ends ↔ ¬ z.IsDiag ∧ (g.owners z).card = 1
  owners_of_mem_boundary : ∀ e ∈ g.boundary, g.owners e.ends = {e.cell}

theorem conforming (g : Grid) : g.Conforming where
  node_bijective := g.node_bijective
  node_val i j := by
    show ((i.val + j.val * (g.nx + 1) : ℕ) : ℤ) = _
    push_cast
    rfl
  corner_injective := corner_injective
  exists_hasCorner := g.exists_corner
  card_owners t a b hab := card_owners (fun h => hab (corner_injective t h)) (mem_owners.2 ⟨⟨a, rfl⟩, ⟨b, rfl⟩⟩)
  nodup_boundary := g.nodup_boundary
  mem_boundary := mem_boundary_iff
  owners_of_mem_boundary _ := owners_of_mem_boundary

end Magnetofluid.Grid
