import Mathlib
import Magnetofluid.Files.Tree

/-!
# Places in trees of files

What stands at a place, and what a tree that got something new still holds.

* `Tree.look`: what stands at a place, apart from what is below it.
* `Tree.look_put`: putting something changes only what stands there and below.
* `Tree.StaysIn`, `Tree.FilesStayIn`: everything in a tree, or every file, still stands in another one.
* `Tree.GrownTo`: a tree with a directory made at a place, and with those on the way to it.
-/

namespace Magnetofluid.Files.Tree

variable {C : Type} {t : Tree C} {p q place : List String}

/-! ### What stands at a place -/

theorem at?_append (p q : List String) (t : Tree C) : t.at? (p ++ q) = (t.at? p).bind (at? q) := by
  induction p generalizing t with
  | nil => rfl
  | cons name p ih =>
    cases t with
    | file content => rfl
    | directory entries =>
      show (lookup name entries).bind (at? (p ++ q)) = ((lookup name entries).bind (at? p)).bind (at? q)
      rw [Option.bind_assoc]
      exact congrArg _ (funext ih)

theorem at?_single (name : String) (entries : List (String × Tree C)) :
    (directory entries).at? [name] = lookup name entries :=
  Option.bind_fun_some _

theorem at?_concat_of_directory {entries : List (String × Tree C)} (h : t.at? place = some (directory entries))
    (name : String) : t.at? (place ++ [name]) = lookup name entries := by
  rw [at?_append, h]
  exact at?_single name entries

/-- What a place holds, apart from what is below it. -/
inductive Kind (C : Type)
  | file (content : C)
  | directory

def kind : Tree C → Kind C
  | file content => .file content
  | directory _ => .directory

def look (place : List String) (t : Tree C) : Option (Kind C) := (t.at? place).map kind

theorem look_eq_none_iff : t.look place = none ↔ t.at? place = none := Option.map_eq_none_iff

theorem isNone_at?_iff : (t.at? place).isNone = true ↔ t.look place = none := by
  rw [look_eq_none_iff, Option.isNone_iff_eq_none]

theorem look_nil_ne_none (t : Tree C) : t.look [] ≠ none := Option.some_ne_none _

theorem look_eq_directory_iff : t.look place = some .directory ↔ ∃ entries, t.at? place = some (directory entries) := by
  unfold look
  cases t.at? place with
  | none => simp
  | some found => cases found <;> simp [kind]

theorem look_eq_file_iff {content : C} : t.look place = some (.file content) ↔ t.at? place = some (file content) := by
  unfold look
  cases t.at? place with
  | none => simp
  | some found => cases found <;> simp [kind]

theorem any_isDirectory_iff : (t.at? place).any isDirectory = true ↔ t.look place = some .directory := by
  unfold look
  cases t.at? place with
  | none => simp
  | some found => cases found <;> simp [kind, isDirectory]

theorem isSome_lookup_iff {entries : List (String × Tree C)} (h : t.at? place = some (directory entries))
    (name : String) : (lookup name entries).isSome = true ↔ t.look (place ++ [name]) ≠ none := by
  rw [Ne, look_eq_none_iff, at?_concat_of_directory h, ← Ne, Option.isSome_iff_ne_none]

theorem exists_file_of_look (hne : t.look place ≠ none) (hdirectory : t.look place ≠ some .directory) :
    ∃ content, t.look place = some (.file content) := by
  cases hlook : t.look place with
  | none => exact absurd hlook hne
  | some kind =>
    cases kind with
    | file content => exact ⟨content, rfl⟩
    | directory => exact absurd hlook hdirectory

/-- On the way to a place where something stands there are directories. -/
theorem look_of_above (hq : t.look q ≠ none) (habove : p <+: q) (hne : p ≠ q) : t.look p = some .directory := by
  obtain ⟨rest, rfl⟩ := habove
  cases rest with
  | nil => exact absurd (List.append_nil p).symm hne
  | cons name rest =>
    rw [Ne, look_eq_none_iff, at?_append] at hq
    rw [look_eq_directory_iff]
    cases hp : t.at? p with
    | none => simp [hp] at hq
    | some found =>
      cases found with
      | file content => simp [hp, at?] at hq
      | directory entries => exact ⟨entries, rfl⟩

/-- Below nothing there is nothing. -/
theorem look_below_none (hp : t.look p = none) (habove : p <+: q) : t.look q = none := by
  by_contra hq
  by_cases hne : p = q
  · exact hq (hne ▸ hp)
  · simp [look_of_above hq habove hne] at hp

/-- Below an empty directory there is nothing. -/
theorem look_below_empty (hp : t.at? p = some empty) (habove : p <+: q) (hne : p ≠ q) : t.look q = none := by
  obtain ⟨rest, rfl⟩ := habove
  rw [look_eq_none_iff, at?_append, hp, Option.bind_some]
  cases rest with
  | nil => exact absurd (List.append_nil p).symm hne
  | cons name rest => rfl

/-! ### Something new at a place -/

theorem at?_setEntry_self (name : String) (new : Tree C) (entries : List (String × Tree C)) (q : List String) :
    (directory (setEntry name new entries)).at? (name :: q) = new.at? q := by
  show (lookup name (setEntry name new entries)).bind (at? q) = _
  rw [lookup_setEntry_self, Option.bind_some]

theorem look_setEntry_of_ne {name other : String} (h : other ≠ name) (new : Tree C)
    (entries : List (String × Tree C)) (q : List String) :
    (directory (setEntry name new entries)).look (other :: q) = (directory entries).look (other :: q) := by
  show ((lookup other (setEntry name new entries)).bind (at? q)).map kind = _
  rw [lookup_setEntry_of_ne h]
  rfl

theorem at?_put (new : Tree C) (name : String) {entries : List (String × Tree C)}
    (h : t.at? place = some (directory entries)) : (put new (place ++ [name]) t).at? (place ++ [name]) = some new := by
  induction place generalizing t with
  | nil =>
    cases h
    exact at?_setEntry_self name new entries []
  | cons first place ih =>
    cases t with
    | file content => cases h
    | directory entries' =>
      obtain ⟨below, hbelow, hplace⟩ := Option.bind_eq_some_iff.1 h
      have hput : put new (first :: place ++ [name]) (directory entries') =
          directory (setEntry first (put new (place ++ [name]) below) entries') := by
        rw [List.cons_append, put, hbelow]
        simp
      rw [hput]
      exact (at?_setEntry_self first _ entries' _).trans (ih hplace)

/-- Putting something at a place changes only what stands there and below. -/
theorem look_put (new t : Tree C) (h : ¬place <+: q) : (put new place t).look q = t.look q := by
  fun_induction put new place t generalizing q with
  | case1 => exact absurd List.nil_prefix h
  | case2 => rfl
  | case3 name entries =>
    cases q with
    | nil => rfl
    | cons other q =>
      refine look_setEntry_of_ne (fun hother => h ?_) new entries q
      rw [hother]
      exact List.cons_prefix_cons.2 ⟨rfl, List.nil_prefix⟩
  | case4 name place entries _ below hbelow ih =>
    cases q with
    | nil => rfl
    | cons other q =>
      by_cases hother : other = name
      · subst hother
        unfold look at ih ⊢
        rw [at?_setEntry_self, ih fun habove => h (List.cons_prefix_cons.2 ⟨rfl, habove⟩)]
        show _ = ((lookup other entries).bind (at? q)).map kind
        rw [hbelow, Option.bind_some]
      · exact look_setEntry_of_ne hother _ entries q
  | case5 => rfl

/-- A new content of a file changes only what the file holds. -/
theorem look_put_file {before after : C} (h : t.look place = some (.file before)) (q : List String) :
    (put (.file after) place t).look q = if q = place then some (.file after) else t.look q := by
  have hplace : (put (.file after) place t).at? place = some (file after) := by
    rcases place.eq_nil_or_concat with rfl | ⟨above, name, rfl⟩
    · cases t <;> rfl
    · rw [List.concat_eq_append] at h ⊢
      obtain ⟨entries, hentries⟩ := look_eq_directory_iff.1
        (look_of_above (h ▸ Option.some_ne_none _) (List.prefix_append above [name]) (by simp))
      exact at?_put _ name hentries
  -- nothing stands below a file
  have hbelow {t' : Tree C} {content : C} (hfile : t'.look place = some (.file content)) (hq : place <+: q)
      (hne : q ≠ place) : t'.look q = none := by
    by_contra hlook
    simp [look_of_above hlook hq hne.symm] at hfile
  split_ifs with hq
  · rw [hq, look, hplace]
    rfl
  · by_cases habove : place <+: q
    · rw [hbelow h habove hq, hbelow (by rw [look, hplace]; rfl) habove hq]
    · exact look_put _ _ habove

/-! ### What stays -/

/-- Everything that stands in a tree still stands in another one. -/
def StaysIn (t t' : Tree C) : Prop := ∀ q, t.look q ≠ none → t'.look q = t.look q

namespace StaysIn

theorem refl (t : Tree C) : t.StaysIn t := fun _ _ => rfl

theorem trans {t₁ t₂ t₃ : Tree C} (h₁₂ : t₁.StaysIn t₂) (h₂₃ : t₂.StaysIn t₃) : t₁.StaysIn t₃ := by
  intro q hq
  have h := h₁₂ q hq
  rw [h₂₃ q (h ▸ hq), h]

/-- Where nothing stood, something new takes nothing away. -/
theorem put {place : List String} (h : t.look place = none) (new : Tree C) : t.StaysIn (put new place t) :=
  fun _ hq => look_put new t fun habove => hq (look_below_none h habove)

end StaysIn

/-- Every file of a tree is still a file in another one, though perhaps with another content. -/
def FilesStayIn (t t' : Tree C) : Prop :=
  ∀ place content, t.look place = some (.file content) → ∃ content', t'.look place = some (.file content')

theorem StaysIn.filesStayIn {t' : Tree C} (h : t.StaysIn t') : t.FilesStayIn t' :=
  fun place content hfile => ⟨content, (h place (hfile ▸ Option.some_ne_none _)).trans hfile⟩

namespace FilesStayIn

theorem refl (t : Tree C) : t.FilesStayIn t := (StaysIn.refl t).filesStayIn

theorem trans {t₁ t₂ t₃ : Tree C} (h₁₂ : t₁.FilesStayIn t₂) (h₂₃ : t₂.FilesStayIn t₃) : t₁.FilesStayIn t₃ := by
  intro place content hfile
  obtain ⟨content', hfile'⟩ := h₁₂ place content hfile
  exact h₂₃ place content' hfile'

theorem put {before : C} (h : t.look place = some (.file before)) (after : C) :
    t.FilesStayIn (put (.file after) place t) := by
  intro q content hfile
  rw [look_put_file h]
  split_ifs
  · exact ⟨after, rfl⟩
  · exact ⟨content, hfile⟩

end FilesStayIn

/-! ### Directories that are made -/

/-- A tree with a directory at a place and on the way to it where there was nothing before, and no other difference. -/
structure GrownTo (place : List String) (t t' : Tree C) : Prop where
  made : ∀ q, q <+: place → t'.look q = some .directory
  before : ∀ q, q <+: place → t.look q = none ∨ t.look q = some .directory
  kept : ∀ q, ¬q <+: place → t'.look q = t.look q

namespace GrownTo

/-- Where the directory is there already nothing needs to be made. -/
theorem refl (h : t.look place = some .directory) : GrownTo place t t := by
  have hmade (q : List String) (hq : q <+: place) : t.look q = some .directory := by
    by_cases hne : q = place
    · rw [hne, h]
    · exact look_of_above (by simp [h]) hq hne
  exact ⟨hmade, fun q hq => .inr (hmade q hq), fun _ _ => rfl⟩

/-- One more directory at the end. -/
theorem concat {t' : Tree C} {name : String} (h : GrownTo place t t') (hnew : t'.look (place ++ [name]) = none) :
    GrownTo (place ++ [name]) t (put empty (place ++ [name]) t') := by
  obtain ⟨entries, hplace⟩ := look_eq_directory_iff.1 (h.made place List.prefix_rfl)
  have hput := at?_put empty name hplace
  have hlonger : ¬place ++ [name] <+: place := fun habove => by simpa using habove.length_le
  have hold : t.look (place ++ [name]) = none := (h.kept _ hlonger).symm.trans hnew
  refine ⟨fun q hq => ?_, fun q hq => ?_, fun q hq => ?_⟩
  · rcases List.prefix_concat_iff.1 hq with rfl | hq
    · exact look_eq_directory_iff.2 ⟨[], hput⟩
    · rw [look_put _ _ fun habove => hlonger (habove.trans hq)]
      exact h.made q hq
  · rcases List.prefix_concat_iff.1 hq with rfl | hq
    · exact .inl hold
    · exact h.before q hq
  · by_cases hbelow : place ++ [name] <+: q
    · -- below the new directory there was nothing before, and is nothing now
      have hne : place ++ [name] ≠ q := fun e => hq (e ▸ List.prefix_rfl)
      rw [look_below_empty hput hbelow hne, look_below_none hold hbelow]
    · rw [look_put _ _ hbelow]
      exact h.kept q fun habove => hq (habove.trans (List.prefix_append _ _))

end GrownTo

end Magnetofluid.Files.Tree
