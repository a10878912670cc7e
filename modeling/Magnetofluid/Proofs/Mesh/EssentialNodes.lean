import Mathlib
import Magnetofluid.Mesh.Description
import Magnetofluid.Proofs.Exact.Text
import Magnetofluid.Proofs.Linear.AnyMatrix
import Magnetofluid.Proofs.Mesh.Edges
import Magnetofluid.Proofs.Mesh.Geometry
import Magnetofluid.Proofs.Outcome
import Magnetofluid.Value.Tensor

/-!
# Essential nodes by the markers of the sides

A caller marks sides, and the essential nodes are found through the table of the boundary edges: the end points of the
edges of marked sides, each node once.  They are the nodes on marked sides, corners included if either side is marked.

* `Value.indices_ints`: the markers as integers.
* `Mesh.mem_nodesOn`: the end points of the edges of marked sides.
* `Grid.card_onBoundary`: the number of nodes on the boundary.
* `Mesh.essentialNodes_of_markers`: the essential nodes for all lists of integers.
-/

namespace Magnetofluid

/-! ### Markers -/

/-- An integer that can be an index, of 64 bits. -/
def IsIndex (k : ℤ) : Prop := -0x8000000000000000 ≤ k ∧ k < 0x8000000000000000

instance : DecidablePred IsIndex := fun k => by unfold IsIndex; infer_instance

namespace AnyTensor

variable {α β ε : Type}

theorem mapM_ofShape?_ofEntry (xs : List α) : (xs.map ofEntry).mapM (ofShape? []) = some xs := by
  induction xs with
  | nil => rfl
  | cons a xs ih =>
    have ha : ofShape? [] (ofEntry a) = some a := dif_pos rfl
    rw [List.map_cons, List.mapM_cons, ha, ih]
    rfl

theorem ofRows?_map_ofEntry (xs : List α) : ofRows? (xs.map ofEntry) = some (ofList xs) := by
  cases xs with
  | nil => rfl
  | cons a xs =>
    have hrows := mapM_ofShape?_ofEntry (a :: xs)
    rw [List.map_cons] at hrows ⊢
    unfold ofRows?
    show ((ofEntry a :: xs.map ofEntry).mapM (ofShape? []) >>= fun rows => _) = _
    rw [hrows]
    rfl

theorem toList_mapM_ofList (f : α → Except ε β) (xs : List α) : toList <$> (ofList xs).mapM f = xs.mapM f := by
  have hvector : Vector.toList <$> Vector.mapM f (Vec.ofEntries xs.toArray) = xs.mapM f := by
    have harray : Vector.toArray <$> Vector.mapM f (Vec.ofEntries xs.toArray) = List.toArray <$> xs.mapM f := by
      rw [Vector.toArray_mapM, Array.mapM_eq_mapM_toList]
      rfl
    have htoList := congrArg (Array.toList <$> ·) harray
    simp only [Functor.map_map] at htoList
    exact htoList.trans (id_map _)
  have hentries : ∀ w : Vector β xs.toArray.size, (⟨[xs.toArray.size], w⟩ : AnyTensor β).toList = w.toList := by
    intro w
    show w.toList.flatMap (fun a => [a]) = w.toList
    exact List.flatMap_singleton' _
  rw [← hvector]
  show toList <$> (Vector.mapM f (Vec.ofEntries xs.toArray) >>= fun w => pure ⟨[xs.toArray.size], w⟩) = _
  cases Vector.mapM f (Vec.ofEntries xs.toArray) with
  | error e => rfl
  | ok w => exact congrArg Except.ok (hentries w)

end AnyTensor

namespace Value

variable {K : Type} [RealText K]

omit [RealText K] in
theorem nested?_ints (ks : List ℤ) : (list (ks.map int) : Value K).nested? = some (.ofList (ks.map int)) := by
  have hrows : nestedRows? (ks.map int : List (Value K)) = some ((ks.map int).map .ofEntry) := by
    induction ks with
    | nil => rfl
    | cons k ks ih =>
      rw [List.map_cons, nestedRows?, ih]
      rfl
  rw [nested?, hrows]
  exact AnyTensor.ofRows?_map_ofEntry _

theorem toIndex_int (k : ℤ) :
    (int k : Value K).toIndex = if IsIndex k then Except.ok k else Except.error .indexTooLarge := rfl

theorem mapM_toIndex_ints (ks : List ℤ) : (ks.map int : List (Value K)).mapM toIndex =
    if ∀ k ∈ ks, IsIndex k then Except.ok ks else Except.error .indexTooLarge := by
  induction ks with
  | nil => rfl
  | cons k ks ih =>
    rw [List.map_cons, List.mapM_cons, toIndex_int, ih]
    by_cases hk : IsIndex k
    · by_cases hks : ∀ k ∈ ks, IsIndex k
      · rw [if_pos hk, if_pos hks, if_pos (List.forall_mem_cons.2 ⟨hk, hks⟩)]
        rfl
      · rw [if_pos hk, if_neg hks, if_neg fun h => hks (List.forall_mem_cons.1 h).2]
        rfl
    · rw [if_neg hk, if_neg fun h => hk (List.forall_mem_cons.1 h).1]
      rfl

theorem indices_ints (ks : List ℤ) : (list (ks.map int) : Value K).indices =
    if ∀ k ∈ ks, IsIndex k then Except.ok ks else Except.error .indexTooLarge := by
  unfold indices toTensor
  rw [nested?_ints]
  exact (AnyTensor.toList_mapM_ofList toIndex _).trans (mapM_toIndex_ints ks)

end Value

/-! ### Nodes on sides -/

namespace Grid

variable {g : Grid} {s : Side} {k : Fin g.nodes}

/-- From a node on a side a step leads along the side, or to it. -/
theorem exists_step (hk : g.OnSide s k) : ∃ q, g.OnSide s q ∧
    ((g.column q).val + g.row q = g.column k + g.row k + 1 ∨
      (g.column k).val + g.row k = g.column q + g.row q + 1) := by
  have hnx := g.nx_pos
  have hny := g.ny_pos
  have hc := (g.column k).isLt
  have hr := (g.row k).isLt
  cases s <;> simp only [OnSide] at hk
  case bottom | top =>
    rcases Nat.lt_or_ge (g.column k) g.nx with hlt | hge
    · refine ⟨g.node ⟨g.column k + 1, by omega⟩ (g.row k), ?_⟩
      simp only [OnSide, column_node, row_node]
      omega
    · refine ⟨g.node ⟨g.column k - 1, by omega⟩ (g.row k), ?_⟩
      simp only [OnSide, column_node, row_node]
      omega
  case right | left =>
    rcases Nat.lt_or_ge (g.row k) g.ny with hlt | hge
    · refine ⟨g.node (g.column k) ⟨g.row k + 1, by omega⟩, ?_⟩
      simp only [OnSide, column_node, row_node]
      omega
    · refine ⟨g.node (g.column k) ⟨g.row k - 1, by omega⟩, ?_⟩
      simp only [OnSide, column_node, row_node]
      omega

/-- Inner nodes are as many as the squares without a column and a row of them. -/
theorem card_not_onBoundary (g : Grid) :
    (Finset.univ.filter fun k => ¬ g.OnBoundary k).card = (g.nx - 1) * (g.ny - 1) := by
  have hinner : (Finset.univ.filter fun k => ¬ g.OnBoundary k) =
      (Finset.Ioo 0 (Fin.last g.nx) ×ˢ Finset.Ioo 0 (Fin.last g.ny)).image fun c => g.node c.1 c.2 := by
    ext k
    rw [Finset.mem_filter, Finset.mem_image]
    constructor
    · rintro ⟨-, hk⟩
      unfold OnBoundary at hk
      refine ⟨(g.column k, g.row k), ?_, node_column_row g k⟩
      simp only [Finset.mem_product, Finset.mem_Ioo, Fin.lt_def, Fin.val_zero, Fin.val_last]
      simp only [Fin.ext_iff, Fin.val_last] at hk
      have hc := (g.column k).isLt
      have hr := (g.row k).isLt
      omega
    · rintro ⟨⟨i, j⟩, hc, rfl⟩
      simp only [Finset.mem_product, Finset.mem_Ioo, Fin.lt_def, Fin.val_zero, Fin.val_last] at hc
      refine ⟨Finset.mem_univ _, fun hk => ?_⟩
      simp only [OnBoundary, column_node, row_node, Fin.ext_iff, Fin.val_last] at hk
      omega
  rw [hinner, Finset.card_image_of_injective _ (node_bijective g).1, Finset.card_product, Fin.card_Ioo, Fin.card_Ioo,
    Fin.val_last, Fin.val_last]
  rfl

theorem card_onBoundary (g : Grid) : (Finset.univ.filter g.OnBoundary).card = 2 * (g.nx + g.ny) := by
  have hsum := Finset.card_filter_add_card_filter_not (s := Finset.univ) g.OnBoundary
  rw [card_not_onBoundary, Finset.card_univ, Fintype.card_fin] at hsum
  obtain ⟨a, ha⟩ := Nat.exists_eq_add_of_lt g.nx_pos
  obtain ⟨b, hb⟩ := Nat.exists_eq_add_of_lt g.ny_pos
  have hnodes : g.nodes = 2 * (g.nx + g.ny) + (g.nx - 1) * (g.ny - 1) := by
    unfold nodes
    rw [ha, hb]
    simp only [Nat.add_sub_cancel]
    ring
  omega

end Grid

theorem Mesh.mem_nodesOn {g : Grid} {marked : Grid.Side → Bool} {k : Fin g.nodes} :
    k ∈ nodesOn g marked ↔ ∃ s, marked s = true ∧ g.OnSide s k := by
  unfold nodesOn
  simp only [List.mem_flatMap, List.mem_filter, List.mem_cons, List.not_mem_nil, or_false]
  constructor
  · rintro ⟨e, ⟨he, hmarked⟩, hk⟩
    have halong := Grid.along_of_mem_boundary he
    refine ⟨e.side, hmarked, ?_⟩
    rcases hk with rfl | rfl
    · exact halong.start_onSide
    · exact halong.stop_onSide
  · rintro ⟨s, hmarked, hk⟩
    obtain ⟨q, hq, hstep | hstep⟩ := Grid.exists_step hk
    · obtain ⟨e, he, rfl, rfl⟩ := Grid.exists_mem_edgesOf hk hq hstep
      refine ⟨e, ⟨Grid.mem_boundary.2 ⟨s, he⟩, ?_⟩, .inl rfl⟩
      rwa [Grid.side_of_mem_edgesOf he]
    · obtain ⟨e, he, rfl, rfl⟩ := Grid.exists_mem_edgesOf hq hk hstep
      refine ⟨e, ⟨Grid.mem_boundary.2 ⟨s, he⟩, ?_⟩, .inr rfl⟩
      rwa [Grid.side_of_mem_edgesOf he]

/-! ### Essential nodes -/

namespace Essential

variable {n : ℕ} (ess : Essential n)

theorem pairwise_toList : ess.toList.Pairwise (· < ·) := (List.pairwise_lt_finRange n).filter _

theorem mem_toList {k : Fin n} : k ∈ ess.toList ↔ k ∈ ess := by
  unfold toList
  rw [List.mem_filter]
  exact and_iff_right (List.mem_finRange k)

theorem length_toList : ess.toList.length = (Finset.univ.filter (· ∈ ess)).card := by
  rw [← List.toFinset_card_of_nodup (ess.pairwise_toList.imp ne_of_lt)]
  congr 1
  ext k
  rw [List.mem_toFinset, mem_toList, Finset.mem_filter]
  exact (and_iff_right (Finset.mem_univ k)).symm

end Essential

namespace Mesh

variable {K : Type} [RealText K] (m : Mesh K)

/-- The essential nodes by the markers of a caller. -/
def essentialNodesOf (markers : List ℤ) : Except (Failure K) (List (Fin m.nodes)) :=
  (Value.list (markers.map .int) : Value K).indices >>= m.essentialNodes

variable {m} {markers : List ℤ}

theorem essentialNodesOf_of_not_isIndex (h : ∃ k ∈ markers, ¬ IsIndex k) :
    m.essentialNodesOf markers = .error .indexTooLarge := by
  have hall : ¬ ∀ k ∈ markers, IsIndex k := by simpa using h
  unfold essentialNodesOf
  rw [Value.indices_ints, if_neg hall]
  rfl

theorem essentialNodesOf_of_isIndex (h : ∀ k ∈ markers, IsIndex k) :
    m.essentialNodesOf markers = m.essentialNodes markers := by
  unfold essentialNodesOf
  rw [Value.indices_ints, if_pos h]
  rfl

omit [RealText K] in
theorem essentialNodes_of_length_ne (h : markers.length ≠ 4) :
    m.essentialNodes markers = .error (.markerCount markers.length) := by
  match markers with
  | [] | [_] | [_, _] | [_, _, _] | _ :: _ :: _ :: _ :: _ :: _ => rfl
  | [_, _, _, _] => exact absurd rfl h

omit [RealText K] in
/-- Four markers, one for each side, mark its nodes. -/
theorem essentialNodes_four (m : Mesh K) (bottom right top left : ℤ) :
    ∃ ess : Essential m.nodes, m.essentialNodes [bottom, right, top, left] = .ok ess.toList ∧ ∀ k, k ∈ ess ↔
      bottom ≠ 0 ∧ m.OnSide .bottom k ∨ right ≠ 0 ∧ m.OnSide .right k ∨ top ≠ 0 ∧ m.OnSide .top k ∨
        left ≠ 0 ∧ m.OnSide .left k := by
  refine ⟨_, rfl, fun k => ?_⟩
  rw [Essential.mem_ofList, mem_nodesOn]
  constructor
  · rintro ⟨s, hmarked, hk⟩
    cases s with
    | bottom => exact .inl ⟨of_decide_eq_true hmarked, hk⟩
    | right => exact .inr (.inl ⟨of_decide_eq_true hmarked, hk⟩)
    | top => exact .inr (.inr (.inl ⟨of_decide_eq_true hmarked, hk⟩))
    | left => exact .inr (.inr (.inr ⟨of_decide_eq_true hmarked, hk⟩))
  · rintro (⟨hmarked, hk⟩ | ⟨hmarked, hk⟩ | ⟨hmarked, hk⟩ | ⟨hmarked, hk⟩)
    · exact ⟨.bottom, decide_eq_true hmarked, hk⟩
    · exact ⟨.right, decide_eq_true hmarked, hk⟩
    · exact ⟨.top, decide_eq_true hmarked, hk⟩
    · exact ⟨.left, decide_eq_true hmarked, hk⟩

/-- **Essential nodes are the nodes on marked sides.**  Integers beyond 64 bits are refused, and then any number of
markers but four.  Four markers give, in increasing order, the nodes `i + j (nx + 1)` in the first or last column or row
of a side that is marked by any integer but zero; all sides together have twice as many nodes as there are columns and
rows of squares. -/
theorem essentialNodes_of_markers (m : Mesh K) (markers : List ℤ) :
    ((∃ k ∈ markers, ¬ IsIndex k) → m.essentialNodesOf markers = .error .indexTooLarge) ∧
    ((∀ k ∈ markers, IsIndex k) → markers.length ≠ 4 →
      m.essentialNodesOf markers = .error (.markerCount markers.length)) ∧
    ∀ bottom right top left, markers = [bottom, right, top, left] → (∀ k ∈ markers, IsIndex k) →
      ∃ l, m.essentialNodesOf markers = .ok l ∧ l.Pairwise (· < ·) ∧
        (∀ c : ℕ, c ∈ l.map Fin.val ↔ ∃ i j, i ≤ m.nx ∧ j ≤ m.ny ∧ c = i + j * (m.nx + 1) ∧
          (bottom ≠ 0 ∧ j = 0 ∨ right ≠ 0 ∧ i = m.nx ∨ top ≠ 0 ∧ j = m.ny ∨ left ≠ 0 ∧ i = 0)) ∧
        (bottom ≠ 0 → right ≠ 0 → top ≠ 0 → left ≠ 0 → l.length = 2 * (m.nx + m.ny)) := by
  refine ⟨essentialNodesOf_of_not_isIndex, fun hindex hlength => ?_, ?_⟩
  · rw [essentialNodesOf_of_isIndex hindex, essentialNodes_of_length_ne hlength]
  · rintro bottom right top left rfl hindex
    obtain ⟨ess, hess, hmem⟩ := m.essentialNodes_four bottom right top left
    refine ⟨ess.toList, (essentialNodesOf_of_isIndex hindex).trans hess, ess.pairwise_toList, fun c => ?_, ?_⟩
    · rw [List.mem_map]
      constructor
      · rintro ⟨k, hk, rfl⟩
        refine ⟨m.column k, m.row k, Nat.lt_succ_iff.1 (m.column k).isLt, Nat.lt_succ_iff.1 (m.row k).isLt, ?_,
          (hmem k).1 (ess.mem_toList.1 hk)⟩
        exact congrArg Fin.val (m.node_column_row k).symm
      · rintro ⟨i, j, hi, hj, rfl, hmarked⟩
        refine ⟨m.node ⟨i, Nat.lt_succ_iff.2 hi⟩ ⟨j, Nat.lt_succ_iff.2 hj⟩, ess.mem_toList.2 ((hmem _).2 ?_), rfl⟩
        simpa only [Grid.OnSide, Grid.column_node, Grid.row_node] using hmarked
    · intro hbottom hright htop hleft
      have hboundary : (Finset.univ.filter (· ∈ ess)) = Finset.univ.filter m.OnBoundary := by
        refine Finset.filter_congr fun k _ => ?_
        rw [hmem]
        simp only [ne_eq, hbottom, hright, htop, hleft, not_false_eq_true, true_and, Grid.OnSide, Grid.OnBoundary,
          Fin.ext_iff, Fin.val_last]
        tauto
      rw [ess.length_toList, hboundary, Grid.card_onBoundary]

/-- Four markers on two by two squares, one marker, and one that is too large. -/
theorem essentialNodes_of_markers_unitSquare :
    (∃ l, unitSquare.essentialNodesOf [1, -1, 2, 3] = .ok l ∧ l.Pairwise (· < ·) ∧ l.length = 8) ∧
      unitSquare.essentialNodesOf [1] = .error (.markerCount 1) ∧
      unitSquare.essentialNodesOf [1, 0x8000000000000000] = .error .indexTooLarge := by
  refine ⟨?_, ?_, ?_⟩
  · obtain ⟨l, hl, hincreasing, -, hlength⟩ :=
      (essentialNodes_of_markers unitSquare [1, -1, 2, 3]).2.2 1 (-1) 2 3 rfl (by decide)
    exact ⟨l, hl, hincreasing, hlength (by decide) (by decide) (by decide) (by decide)⟩
  · exact (essentialNodes_of_markers unitSquare [1]).2.1 (by decide) (by decide)
  · exact (essentialNodes_of_markers unitSquare [1, 0x8000000000000000]).1 (by decide)

/-- A marker of more than 64 bits marks no side, although it is not zero. -/
theorem essentialNodes_of_large_marker : ¬ ∃ l, unitSquare.essentialNodesOf [0x8000000000000000, 0, 0, 0] = .ok l := by
  rintro ⟨l, h⟩
  rw [essentialNodesOf_of_not_isIndex (by decide)] at h
  cases h

end Mesh

end Magnetofluid
