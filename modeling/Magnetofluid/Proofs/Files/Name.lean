import Mathlib
import Magnetofluid.Files.Name

/-!
# Parts of names

The parts of a name are what stands between its slashes, so they are found piece by piece: those of the directory part,
and the base.

* `parts_directoryPart_append`, `parts_join`: the parts of a name that is taken apart, and of one that is put together.
* `mem_of_mem_parts`: a part has no characters that the name does not have.
* `wayLength_parts_le`: a name is no shorter than the way that it describes.
-/

namespace Magnetofluid.Files

/-! ### Characters between slashes -/

/-- What stands between slashes. -/
def pieces (cs : List Char) : List (List Char) := (cs.splitOn '/').filter (· ≠ [])

theorem pieces_slash (a b : List Char) : pieces (a ++ '/' :: b) = pieces a ++ pieces b := by
  unfold pieces
  rw [List.splitOn_append_cons_self, List.filter_append]

theorem pieces_nil : pieces [] = [] := rfl

theorem pieces_of_notMem {cs : List Char} (h : '/' ∉ cs) : pieces cs = if cs = [] then [] else [cs] := by
  unfold pieces
  rw [List.splitOn_eq_singleton h]
  split_ifs with hnil <;> simp [hnil]

/-- Slashes at the end do not count. -/
theorem pieces_dropSlashes (cs : List Char) : pieces (cs.dropWhile (· = '/')).reverse = pieces cs.reverse := by
  induction cs with
  | nil => rfl
  | cons c cs ih =>
    by_cases hc : c = '/'
    · rw [List.dropWhile_cons_of_pos (by simpa using hc), ih, hc, List.reverse_cons]
      exact ((pieces_slash _ []).trans (List.append_nil _)).symm
    · rw [List.dropWhile_cons_of_neg (by simpa using hc)]

theorem throughSlash_cases (cs : List Char) : throughSlash cs = [] ∨ ∃ before, throughSlash cs = before ++ ['/'] := by
  unfold throughSlash
  cases h : cs.reverse.dropWhile (· ≠ '/') with
  | nil => exact .inl rfl
  | cons c rest =>
    have hc := List.head_dropWhile_not (· ≠ '/') (l := cs.reverse) (h ▸ List.cons_ne_nil c rest)
    simp only [h, List.head_cons, decide_eq_false_iff_not, not_not] at hc
    exact .inr ⟨rest.reverse, by rw [List.reverse_cons, hc]⟩

theorem slash_notMem_afterSlash (cs : List Char) : '/' ∉ afterSlash cs := by
  intro h
  simpa using List.mem_takeWhile_imp (List.mem_reverse.1 h)

theorem pieces_throughSlash_append (cs b : List Char) :
    pieces (throughSlash cs ++ b) = pieces (throughSlash cs) ++ pieces b := by
  rcases throughSlash_cases cs with h | ⟨before, h⟩
  · rw [h, List.nil_append, pieces_nil, List.nil_append]
  · rw [h, List.append_assoc, List.singleton_append, pieces_slash, pieces_slash, pieces_nil, List.append_nil]

theorem mem_of_mem_splitOn {cs piece : List Char} {c : Char} (hpiece : piece ∈ cs.splitOn '/') (hc : c ∈ piece) :
    c ∈ cs := by
  induction cs generalizing piece with
  | nil => simp_all
  | cons d cs ih =>
    rw [List.splitOn_cons_eq_if_modifyHead] at hpiece
    split_ifs at hpiece
    · rcases List.mem_cons.1 hpiece with rfl | hpiece
      · cases hc
      · exact List.mem_cons_of_mem d (ih hpiece hc)
    · cases hsplit : cs.splitOn '/' with
      | nil => exact absurd hsplit (List.splitOn_ne_nil _ _)
      | cons first rest =>
        rw [hsplit, List.modifyHead_cons] at hpiece
        rcases List.mem_cons.1 hpiece with rfl | hpiece
        · rcases List.mem_cons.1 hc with rfl | hc
          · exact List.mem_cons_self
          · exact List.mem_cons_of_mem d (ih (hsplit ▸ List.mem_cons_self) hc)
        · exact List.mem_cons_of_mem d (ih (hsplit ▸ List.mem_cons_of_mem _ hpiece) hc)

/-! ### Parts -/

theorem parts_eq (name : String) : parts name = (pieces name.toList).map .ofList := rfl

/-- The parts of a name are those of its directory part and its base. -/
theorem parts_directoryPart_append (name : String) :
    parts name = parts (directoryPart name) ++ parts (basePart name) := by
  have hbase : parts (basePart name) = (pieces (afterSlash name.toList)).map .ofList := by
    rw [parts_eq, basePart, String.toList_ofList]
  have hdirectory : parts (directoryPart name) = (pieces (throughSlash name.toList)).map .ofList := by
    rw [parts_eq, directoryPart]
    split_ifs
    · rw [String.toList_ofList]
    · rw [String.toList_ofList, pieces_dropSlashes, List.reverse_reverse]
  rw [hbase, hdirectory, ← List.map_append, ← pieces_throughSlash_append, throughSlash_append_afterSlash]
  rfl

theorem slash_notMem_basePart (name : String) : '/' ∉ (basePart name).toList := by
  rw [basePart, String.toList_ofList]
  exact slash_notMem_afterSlash _

theorem parts_of_notMem {base : String} (h : '/' ∉ base.toList) : parts base = if base = "" then [] else [base] := by
  rw [parts_eq, pieces_of_notMem h]
  simp only [String.toList_eq_nil_iff]
  split_ifs <;> simp

/-- The parts of a name of an entry are those of the directory and the entry. -/
theorem parts_join (directory : String) {base : String} (h : '/' ∉ base.toList) :
    parts (join directory base) = parts directory ++ parts base := by
  have hhead : base.toList.head? ≠ some '/' := fun hhead => h (List.mem_of_mem_head? hhead)
  unfold join
  rw [if_neg hhead]
  split_ifs with hend
  · rcases hend with rfl | hend
    · rw [String.empty_append]
      rfl
    · obtain ⟨before, hbefore⟩ := List.getLast?_eq_some_iff.1 (of_decide_eq_true hend)
      rw [parts_eq, parts_eq directory, parts_eq base, String.toList_append, hbefore, List.append_assoc,
        List.singleton_append, pieces_slash, pieces_slash, pieces_nil, List.append_nil, List.map_append]
  · rw [parts_eq, parts_eq directory, parts_eq base, String.toList_append, String.toList_append, List.append_assoc]
    show List.map _ (pieces (directory.toList ++ '/' :: base.toList)) = _
    rw [pieces_slash, List.map_append]

theorem mem_of_mem_parts {name part : String} {c : Char} (hpart : part ∈ parts name) (hc : c ∈ part.toList) :
    c ∈ name.toList := by
  obtain ⟨piece, hpiece, rfl⟩ := List.mem_map.1 hpart
  rw [String.toList_ofList] at hc
  exact mem_of_mem_splitOn (List.mem_filter.1 hpiece).1 hc

theorem isWellFormed_iff (name : String) : isWellFormed name = true ↔ '\x00' ∉ name.toList := by
  simp [isWellFormed]

theorem parts_ne_nil {name : String} (hne : name ≠ "") (hrelative : name.toList.head? ≠ some '/') : parts name ≠ [] := by
  rw [parts_eq, Ne, List.map_eq_nil_iff]
  cases hname : name.toList with
  | nil => exact absurd (String.toList_eq_nil_iff.1 hname) hne
  | cons c cs =>
    have hc : (c == '/') = false := by
      rw [hname, List.head?_cons, Ne, Option.some_inj] at hrelative
      exact beq_false_of_ne hrelative
    unfold pieces
    rw [List.splitOn_cons_eq_if_modifyHead, hc, if_neg Bool.false_ne_true]
    cases hsplit : cs.splitOn '/' with
    | nil => exact absurd hsplit (List.splitOn_ne_nil _ _)
    | cons first rest => simp

/-! ### Characters -/

theorem mem_directoryPart {name : String} {c : Char} (hc : c ∈ (directoryPart name).toList) : c ∈ name.toList := by
  rw [← throughSlash_append_afterSlash name.toList, List.mem_append]
  rw [directoryPart] at hc
  split_ifs at hc
  · rw [String.toList_ofList] at hc
    exact .inl hc
  · rw [String.toList_ofList, List.mem_reverse] at hc
    exact .inl (List.mem_reverse.1 ((List.dropWhile_sublist _).subset hc))

theorem mem_basePart {name : String} {c : Char} (hc : c ∈ (basePart name).toList) : c ∈ name.toList := by
  rw [basePart, String.toList_ofList] at hc
  rw [← throughSlash_append_afterSlash name.toList]
  exact List.mem_append_right _ hc

theorem mem_join {directory base : String} {c : Char} (hc : c ∈ (join directory base).toList) :
    c ∈ directory.toList ∨ c = '/' ∨ c ∈ base.toList := by
  unfold join at hc
  split_ifs at hc
  · exact .inr (.inr hc)
  · rw [String.toList_append, List.mem_append] at hc
    exact hc.imp_right .inr
  · rw [String.toList_append, String.toList_append, List.mem_append, List.mem_append] at hc
    rcases hc with (hc | hc) | hc
    · exact .inl hc
    · exact .inr (.inl (List.mem_singleton.1 hc))
    · exact .inr (.inr hc)

/-! ### Lengths -/

theorem wayLength_eq (way : List String) :
    wayLength way = (way.map String.utf8ByteSize).sum + (way.length - 1) := by
  have hfold (way : List String) (n : ℕ) :
      way.foldl (fun n part => n + part.utf8ByteSize) n = (way.map String.utf8ByteSize).sum + n := by
    induction way generalizing n with
    | nil => simp
    | cons part way ih =>
      rw [List.foldl_cons, ih, List.map_cons, List.sum_cons]
      omega
  exact hfold way _

/-- Each slash takes the place that the next piece adds to the number of pieces. -/
theorem sum_splitOn (cs : List Char) :
    ((cs.splitOn '/').map String.utf8Len).sum + (cs.splitOn '/').length = String.utf8Len cs + 1 := by
  induction cs with
  | nil => rfl
  | cons c cs ih =>
    rw [List.splitOn_cons_eq_if_modifyHead]
    split_ifs with hc
    · have hc : c = '/' := by simpa using hc
      subst hc
      simp only [List.map_cons, List.sum_cons, List.length_cons, String.utf8Len_nil, String.utf8Len_cons]
      have hsize : Char.utf8Size '/' = 1 := rfl
      omega
    · cases hsplit : cs.splitOn '/' with
      | nil => exact absurd hsplit (List.splitOn_ne_nil _ _)
      | cons first rest =>
        rw [hsplit] at ih
        simp only [List.modifyHead_cons, List.map_cons, List.sum_cons, List.length_cons, String.utf8Len_cons] at ih ⊢
        omega

theorem wayLength_parts_le (name : String) : wayLength (parts name) ≤ name.utf8ByteSize := by
  have hsum := sum_splitOn name.toList
  have hlength := List.length_filter_le (· ≠ []) (name.toList.splitOn '/')
  have hsize : ((pieces name.toList).map String.utf8Len).sum ≤ ((name.toList.splitOn '/').map String.utf8Len).sum :=
    (List.filter_sublist.map _).sum_le_sum fun _ _ => Nat.zero_le _
  have hname : name.utf8ByteSize = String.utf8Len name.toList := by
    rw [← String.utf8ByteSize_ofList, String.ofList_toList]
  rw [wayLength_eq, parts_eq, List.map_map, List.length_map, hname]
  have hparts : (String.utf8ByteSize ∘ String.ofList) = String.utf8Len := funext String.utf8ByteSize_ofList
  rw [hparts]
  unfold pieces at hsize ⊢
  have hpos := List.length_pos_of_ne_nil (List.splitOn_ne_nil '/' name.toList)
  omega

end Magnetofluid.Files
