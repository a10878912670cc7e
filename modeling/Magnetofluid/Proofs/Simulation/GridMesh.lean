import Mathlib
import Magnetofluid.Proofs.Mesh.Shape
import Magnetofluid.Proofs.Settings.Sections
import Magnetofluid.Simulation.Configuration

/-!
# Meshes of grid sections

A section of the grid that is read says how many squares there are, but nothing keeps its lengths from being zero,
negative or infinite.

* `Settings.Grid.exists_meshOf`: the mesh of a section that is read has the counts, the lengths and the corner of the
  section.
* `Settings.Section.ofValue_oneSquare`: any two lengths are read.
* `Settings.Section.mesh_wellShaped_iff`: in exact arithmetic the mesh is well shaped just if the lengths are positive.
-/

namespace Magnetofluid

/-- A mesh has the counts, the lengths and the corner of a grid section. -/
structure Mesh.Covers {K : Type} [RealText K] (m : Mesh K) (g : Settings.Grid K) : Prop where
  nx : (m.nx : ℤ) = g.nx
  ny : (m.ny : ℤ) = g.ny
  lx : m.lx = g.x.length g.columns
  ly : m.ly = g.y.length g.rows
  x0 : m.x0 = g.x0
  y0 : m.y0 = g.y0

theorem MeshDescription.toMesh_ofCounts {K : Type} [RealText K] {nx ny : ℕ} (hx : 0 < nx) (hy : 0 < ny)
    (hlimit : max nx ny < countLimit) {columns rows : K} (hcolumns : Value.realOfInteger nx = .ok columns)
    (hrows : Value.realOfInteger ny = .ok rows) (lx ly x0 y0 : K) :
    toMesh ⟨.int nx, .int ny, .real lx, .real ly, .real x0, .real y0⟩ = .ok ⟨⟨nx, ny, hx, hy⟩, lx, ly, x0, y0⟩ := by
  have hnx : (Value.int nx : Value K).isBelowOne = .ok false := congrArg Except.ok (decide_eq_false (by omega))
  have hny : (Value.int ny : Value K).isBelowOne = .ok false := congrArg Except.ok (decide_eq_false (by omega))
  unfold toMesh
  simp only [hnx, hny, Settings.ok_bind, Value.toInteger_int, Value.toReal_real, Int.toNat_natCast, hcolumns, hrows,
    hlimit.not_ge, Bool.false_eq_true, if_false]
  exact dif_pos ⟨hx, hy⟩

namespace Settings

open Simulation MeshDescription

section General

variable {K : Type} [RealText K]

theorem Grid.meshOf_toEntries (g : Grid K) :
    meshOf (.map g.toEntries) = toMesh ⟨.int g.nx, .int g.ny, .real (g.x.length g.columns),
      .real (g.y.length g.rows), .real g.x0, .real g.y0⟩ := by
  have hfield : ∀ name v, Value.named? g.toEntries name = some v → (Value.map g.toEntries).field name = .ok v := by
    intro name v hv
    show (Value.named? g.toEntries name).elim _ _ = _
    rw [hv]
    rfl
  have hnx := hfield "Nx" (.int g.nx) (by simp [toEntries])
  have hny := hfield "Ny" (.int g.ny) (by simp [toEntries])
  have hlx := hfield "Lx" (.real (g.x.length g.columns)) (by simp [toEntries, named?_append, Extent.named?_toEntries])
  have hly := hfield "Ly" (.real (g.y.length g.rows)) (by simp [toEntries, named?_append, Extent.named?_toEntries])
  have hx0 := hfield "x0" (.real g.x0) (by simp [toEntries, named?_append, Extent.named?_toEntries])
  have hy0 := hfield "y0" (.real g.y0) (by simp [toEntries, named?_append, Extent.named?_toEntries])
  unfold meshOf
  simp only [hnx, hny, hlx, hly, hx0, hy0, ok_bind]

/-- The mesh of a section that was read, unless it has more squares than can be numbered. -/
theorem Grid.exists_meshOf {g : Grid K} (hg : g.Checked) (hlimit : max g.nx g.ny < countLimit) :
    ∃ m, meshOf (.map g.toEntries) = .ok m ∧ m.Covers g := by
  obtain ⟨nx, hnx⟩ := Int.eq_ofNat_of_zero_le (zero_le_one.trans hg.nx_pos)
  obtain ⟨ny, hny⟩ := Int.eq_ofNat_of_zero_le (zero_le_one.trans hg.ny_pos)
  have hnx_pos := hg.nx_pos
  have hny_pos := hg.ny_pos
  have hcolumns := hg.columns
  have hrows := hg.rows
  rw [hnx] at hnx_pos hlimit hcolumns
  rw [hny] at hny_pos hlimit hrows
  rw [g.meshOf_toEntries, hnx, hny]
  refine ⟨_, toMesh_ofCounts (by omega) (by omega) (by omega) hcolumns hrows _ _ _ _, hnx.symm, hny.symm, rfl, rfl, rfl,
    rfl⟩

end General

namespace Section

def oneSquare {K : Type} (lx ly : K) : Entries K :=
  [entry "Nx" (.int 1), entry "Ny" (.int 1), entry "Lx" (.real lx), entry "Ly" (.real ly)]

/-- Any two lengths are read. -/
theorem ofValue_oneSquare (lx ly : Float) : ofValue .grid (.map (oneSquare lx ly)) =
    .ok (.grid ⟨1, 1, 1.0, 1.0, .ofLength lx, .ofLength ly, 0.0, 0.0, [1, 1, 1, 1]⟩) := rfl

/-- **When an accepted section describes a proper mesh.**  The mesh of a grid section that is read has the counts, the
lengths and the corner of the section.  In exact arithmetic it is well shaped just if both lengths are positive, which
no check of the section asks for.  A mesh of floats is well shaped only if the lengths are also finite, and the corner
with them. -/
theorem mesh_wellShaped_iff {K : Type} [RealText K] {v : Value K} {g : Grid K} (hv : ofValue .grid v = .ok (.grid g))
    (hlimit : max g.nx g.ny < countLimit) :
    (∃ m, meshOf (.map g.toEntries) = .ok m ∧ m.Covers g ∧ m.dx = m.lx / m.nx ∧ m.dy = m.ly / m.ny) ∧
      (∀ m : Mesh ℝ, m.WellShaped ↔ 0 < m.lx ∧ 0 < m.ly) ∧
      ∀ m : Mesh Float, m.WellShaped → m.Bounded := by
  obtain ⟨m, hm, hcovers⟩ := Grid.exists_meshOf (name_and_checked_of_ofValue hv).2 hlimit
  exact ⟨⟨m, hm, hcovers, rfl, rfl⟩, Mesh.wellShaped_iff, fun _ => Mesh.WellShaped.bounded⟩

theorem mesh_wellShaped_iff_oneSquare :
    (∃ g m, ofValue (K := ℝ) .grid (.map (oneSquare 2 1)) = .ok (.grid g) ∧ meshOf (.map g.toEntries) = .ok m ∧
      m.WellShaped) ∧
    ∃ g m, ofValue .grid (.map (oneSquare (1.0 / 0.0) 1.0)) = .ok (.grid g) ∧ meshOf (.map g.toEntries) = .ok m ∧
      ¬ m.WellShaped := by
  have hlimit : max (1 : ℤ) 1 < countLimit := by decide
  constructor
  · have hread : ofValue (K := ℝ) .grid (.map (oneSquare 2 1)) =
        .ok (.grid ⟨1, 1, ((1 : ℤ) : ℝ), ((1 : ℤ) : ℝ), .ofLength 2, .ofLength 1, 0, 0, [1, 1, 1, 1]⟩) := rfl
    obtain ⟨⟨m, hm, hcovers, -, -⟩, hiff, -⟩ := mesh_wellShaped_iff hread hlimit
    have hlx : m.lx = 2 := hcovers.lx
    have hly : m.ly = 1 := hcovers.ly
    exact ⟨_, m, hread, hm, (hiff m).2 (by norm_num [hlx, hly])⟩
  · obtain ⟨⟨m, hm, hcovers, -, -⟩, -, himp⟩ := mesh_wellShaped_iff (ofValue_oneSquare (1.0 / 0.0) 1.0) hlimit
    refine ⟨_, m, ofValue_oneSquare _ _, hm, fun hshape => ?_⟩
    have hfinite := (himp m hshape).lx_finite
    rw [hcovers.lx] at hfinite
    exact absurd hfinite (by decide)

/-- A section with a length that is zero is read, and its mesh has no width. -/
theorem not_forall_mesh_wellShaped : ¬ ∀ (v : Value Float) g m, ofValue .grid v = .ok (.grid g) →
    meshOf (.map g.toEntries) = .ok m → m.WellShaped := by
  intro h
  have hread := ofValue_oneSquare 0.0 1.0
  obtain ⟨m, hm, hcovers⟩ := Grid.exists_meshOf (name_and_checked_of_ofValue hread).2 (by decide)
  have hpos := (h _ _ m hread hm).bounded.lx_pos
  rw [hcovers.lx] at hpos
  exact absurd hpos (by decide)

end Section

end Settings

end Magnetofluid
