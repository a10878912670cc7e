import Mathlib
import Magnetofluid.Files.Change
import Magnetofluid.Proofs.Files.Name
import Magnetofluid.Proofs.Files.Tree
import Magnetofluid.Proofs.Outcome

/-!
# Names that lead to places

A name whose parts all stand for places of their own leads to the place of its parts, if anything stands there.

* `PlainPart`, `PlainName`: such parts and names, of a length that the file system takes.
* `locate_eq_ok_iff`: the place such a name leads to.
* `makeDirectories_made`: a directory that is made, with those on the way to it, or a tree that is left alone.
* `keeps_makePath`: nothing is taken away by making directories.
* `filePlace_eq_ok`: the way to the file of a name, which may be missing; `locate_of_filePlace` finds it later.
-/

namespace Magnetofluid.Files

variable {C : Type} {t : Tree C} {here place : List String}

/-! ### Walks -/

/-- A part of a name that stands for a place of its own and can be the name of a file. -/
structure PlainPart (part : String) : Prop where
  proper : isProper part = true
  short : isTooLong part = false
  wellFormed : isWellFormed part = true

theorem walk_append (t : Tree C) (here way rest : List String) :
    walk t here (way ++ rest) = (walk t here way >>= fun place => walk t place rest) := by
  induction way generalizing here with
  | nil => rfl
  | cons part way ih =>
    simp only [List.cons_append, walk, ih]
    split
    · rfl
    · rfl
    · split_ifs <;> rfl

theorem PlainPart.ne {part : String} (h : PlainPart part) : part ≠ "." ∧ part ≠ ".." := by
  simpa [isProper] using h.proper

/-- Plain parts lead down, to where something stands. -/
theorem walk_eq_ok_iff {way : List String} (hway : ∀ part ∈ way, PlainPart part) (hhere : t.look here ≠ none) :
    walk t here way = .ok place ↔ place = here ++ way ∧ t.look place ≠ none := by
  induction way generalizing here with
  | nil =>
    rw [walk, List.append_nil, Except.ok.injEq]
    exact ⟨fun h => ⟨h.symm, h ▸ hhere⟩, fun h => h.1.symm⟩
  | cons part way ih =>
    have hpart := hway part List.mem_cons_self
    -- the step down is taken if the place above is a directory that has the part
    have hnone (h : t.look (here ++ [part]) = none) : t.look (here ++ part :: way) = none :=
      Tree.look_below_none h (by simp)
    rw [walk]
    cases hat : t.at? here with
    | none => exact absurd (Tree.look_eq_none_iff.2 hat) hhere
    | some found =>
      cases found with
      | file content =>
        refine ⟨nofun, fun h => (h.2 (h.1 ▸ hnone ?_)).elim⟩
        rw [Tree.look_eq_none_iff, Tree.at?_append, hat]
        rfl
      | directory entries =>
        have hlookup := Tree.at?_concat_of_directory hat part
        dsimp only
        rw [if_neg hpart.ne.1, if_neg hpart.ne.2, if_neg (by simp [hpart.short])]
        cases hbelow : Tree.lookup part entries with
        | none =>
          refine ⟨nofun, fun h => (h.2 (h.1 ▸ hnone ?_)).elim⟩
          rw [Tree.look_eq_none_iff, hlookup, hbelow]
        | some below =>
          rw [if_pos Option.isSome_some, ih (fun p hp => hway p (List.mem_cons_of_mem _ hp)) (by
            rw [Ne, Tree.look_eq_none_iff, hlookup, hbelow]
            exact Option.some_ne_none below), List.append_assoc]
          rfl

theorem walk_nil_eq_ok_iff {way : List String} (hway : ∀ part ∈ way, PlainPart part) :
    walk t [] way = .ok place ↔ place = way ∧ t.look place ≠ none :=
  walk_eq_ok_iff hway (Tree.look_nil_ne_none t)

/-- One more step stays where it is, but only in a directory. -/
theorem walk_dot_eq_ok_iff : walk t here ["."] = .ok place ↔ place = here ∧ t.look here = some .directory := by
  rw [walk, Tree.look_eq_directory_iff]
  cases t.at? here with
  | none => simp
  | some found =>
    cases found with
    | file content => simp
    | directory entries => simp [walk, eq_comm]

/-! ### Plain names -/

/-- A name whose parts are all plain, and that is not too long. -/
structure PlainName (name : String) : Prop where
  nonempty : name ≠ ""
  wellFormed : isWellFormed name = true
  short : name.utf8ByteSize < lengthLimit
  parts : ∀ part ∈ parts name, PlainPart part

/-- A plain name leads to the place of its parts, if something stands there, and with a slash at its end if that is a
directory. -/
theorem locate_eq_ok_iff {name : String} (h : PlainName name) :
    locate t name = .ok place ↔
      place = parts name ∧ t.look place ≠ none ∧ (endsInSlash name = true → t.look place = some .directory) := by
  unfold locate
  rw [if_neg (by simp [h.wellFormed]), if_neg (not_le.2 h.short), if_neg h.nonempty]
  unfold route
  split_ifs with hslash
  · rw [walk_append]
    constructor
    · intro hok
      obtain ⟨p, hp, hdot⟩ := except_bind_eq_ok.1 hok
      obtain ⟨rfl, hlook⟩ := (walk_nil_eq_ok_iff h.parts).1 hp
      obtain ⟨rfl, hdirectory⟩ := walk_dot_eq_ok_iff.1 hdot
      exact ⟨rfl, hlook, fun _ => hdirectory⟩
    · rintro ⟨rfl, hlook, hdirectory⟩
      exact except_bind_eq_ok.2 ⟨parts name, (walk_nil_eq_ok_iff h.parts).2 ⟨rfl, hlook⟩,
        walk_dot_eq_ok_iff.2 ⟨rfl, hdirectory hslash⟩⟩
  · rw [List.append_nil, walk_nil_eq_ok_iff h.parts]
    exact and_congr_right fun _ => (and_iff_left fun h => absurd h hslash).symm

/-! ### Directories that are made -/

theorem errorsOnly_walk (t : Tree C) (here way : List String) : ErrorsOnly (· ≠ .exists) (walk t here way) := by
  induction way generalizing here with
  | nil => exact .ok here
  | cons part way ih =>
    rw [walk]
    split
    · exact .error nofun
    · exact .error nofun
    · split_ifs
      · exact ih here
      · exact ih _
      · exact .error nofun
      · exact ih _
      · exact .error nofun

theorem errorsOnly_walkToDirectory (t : Tree C) (way : List String) :
    ErrorsOnly (· ≠ .exists) (walkToDirectory t way) := by
  refine (errorsOnly_walk t [] way).bind fun place => ?_
  split_ifs
  · exact .ok place
  · exact .error nofun

theorem walkToDirectory_eq_ok_iff {way : List String} (hway : ∀ part ∈ way, PlainPart part) :
    walkToDirectory t way = .ok place ↔ place = way ∧ t.look way = some .directory := by
  unfold walkToDirectory
  rw [except_bind_eq_ok]
  constructor
  · rintro ⟨p, hwalk, hp⟩
    obtain ⟨rfl, -⟩ := (walk_nil_eq_ok_iff hway).1 hwalk
    split_ifs at hp with hdirectory
    cases hp
    exact ⟨rfl, Tree.any_isDirectory_iff.1 hdirectory⟩
  · rintro ⟨rfl, hdirectory⟩
    refine ⟨place, (walk_nil_eq_ok_iff hway).2 ⟨rfl, by simp [hdirectory]⟩, ?_⟩
    rw [if_pos (Tree.any_isDirectory_iff.2 hdirectory)]
    rfl

/-- What comes of making a directory at a place: it is made, with those on the way to it, or nothing changes, since
something stands there or a file stands in the way. -/
inductive Made (place : List String) (t : Tree C) : EStateM.Result FileRefusal (Tree C) Unit → Prop
  | made {t' : Tree C} : t.look place = none → Tree.GrownTo place t t' → t'.at? place = some .empty →
      Made place t (.ok () t')
  | refused {e : FileRefusal} : (e = .exists → t.look place ≠ none) →
      (t.look place ≠ none ∨ ∃ q c, q <+: place ∧ t.look q = some (.file c)) → Made place t (.error e t)

section Make

variable {last : String} {before : List String}

/-- A way whose parts are given from the last to the first, all of them plain, and that is not too long. -/
structure PlainWay (way : List String) : Prop where
  parts : ∀ part ∈ way, PlainPart part
  short : wayLength way < lengthLimit

theorem PlainWay.reverse {way : List String} (h : PlainWay way) : PlainWay way.reverse where
  parts part hpart := h.parts part (List.mem_reverse.1 hpart)
  short := by
    have hshort := h.short
    rw [wayLength_eq] at hshort ⊢
    rwa [List.map_reverse, List.sum_reverse, List.length_reverse]

theorem PlainWay.tail (h : PlainWay (last :: before)) : PlainWay before where
  parts part hpart := h.parts part (List.mem_cons_of_mem last hpart)
  short := by
    have hshort := h.short
    rw [wayLength_eq] at hshort ⊢
    simp only [List.map_cons, List.sum_cons, List.length_cons] at hshort
    omega

/-- One directory is made where nothing stands and a directory is above. -/
theorem makeDirectory_cases (h : PlainWay (last :: before)) (t : Tree C) :
    (t.look before.reverse = some .directory ∧ t.look (before.reverse ++ [last]) = none ∧
      (makeDirectory (last :: before)).run t = .ok () (Tree.put .empty (before.reverse ++ [last]) t)) ∨
    ((t.look before.reverse ≠ some .directory ∨ t.look (before.reverse ++ [last]) ≠ none) ∧
      ∃ e, (makeDirectory (last :: before)).run t = .error e t ∧
        (e = .exists → t.look (before.reverse ++ [last]) ≠ none)) := by
  have hlast := h.parts last List.mem_cons_self
  have hall : (!(last :: before).all isWellFormed) = false := by
    rw [Bool.not_eq_false', List.all_eq_true]
    exact fun part hpart => (h.parts part hpart).wellFormed
  unfold makeDirectory
  simp only [hall, Bool.false_eq_true, if_false, not_le.2 h.short, hlast.short, hlast.proper, Bool.not_true,
    Bool.false_or, run_get_bind]
  have hway (place : List String) :
      walkToDirectory t before.reverse = .ok place ↔
        place = before.reverse ∧ t.look before.reverse = some .directory :=
    walkToDirectory_eq_ok_iff h.tail.reverse.parts
  cases hwalk : walkToDirectory t before.reverse with
  | error e =>
    refine .inr ⟨.inl fun hlook => ?_, e, rfl, fun he => ?_⟩
    · cases hwalk.symm.trans ((hway _).2 ⟨rfl, hlook⟩)
    · exact absurd he (errorsOnly_walkToDirectory t _ e hwalk)
  | ok place =>
    obtain ⟨rfl, hlook⟩ := (hway place).1 hwalk
    rw [run_bind_of_eq_ok (run_ofExcept_eq_ok.2 ⟨rfl, rfl⟩)]
    cases hat : t.at? (before.reverse ++ [last]) with
    | none =>
      exact .inl ⟨hlook, Tree.look_eq_none_iff.2 hat, rfl⟩
    | some found =>
      have hfound : t.look (before.reverse ++ [last]) ≠ none := by simp [Tree.look_eq_none_iff, hat]
      exact .inr ⟨.inr hfound, .exists, rfl, fun _ => hfound⟩

theorem leads_iff {way : List String} (h : PlainWay way) : leads t way = true ↔ t.look way ≠ none := by
  have hall : way.all isWellFormed = true := List.all_eq_true.2 fun part hpart => (h.parts part hpart).wellFormed
  unfold leads
  rw [hall, decide_eq_true h.short, Bool.true_and, Bool.true_and]
  cases hwalk : walk t [] way with
  | error e =>
    refine ⟨fun h => absurd h Bool.false_ne_true, fun hlook => ?_⟩
    cases hwalk.symm.trans ((walk_nil_eq_ok_iff h.parts).2 ⟨rfl, hlook⟩)
  | ok place =>
    obtain ⟨rfl, hlook⟩ := (walk_nil_eq_ok_iff h.parts).1 hwalk
    exact ⟨fun _ => hlook, fun _ => rfl⟩

/-- Without reuse every refusal stands. -/
theorem run_refuse {α : Type} (x : Change C α) (there : Tree C → Bool) (other : Change C α) (t : Tree C) :
    (tryCatch x fun e => do
      let t ← get
      if (false && there t) = true then other else throw e).run t = x.run t := by
  rw [run_tryCatch]
  cases x.run t <;> rfl

theorem makeDirectories_of_leads (h : PlainWay (last :: before)) (hleads : t.look before.reverse ≠ none) :
    (makeDirectories false (last :: before)).run t = (makeDirectory (last :: before)).run t := by
  unfold makeDirectories
  rw [run_get_bind, (leads_iff h.tail.reverse).2 hleads, Bool.not_true, Bool.and_false, if_neg Bool.false_ne_true]
  exact run_refuse _ _ _ t

/-- What is missing on the way is made first. -/
theorem makeDirectories_of_missing (h : PlainWay (last :: before)) (hmissing : t.look before.reverse = none) :
    (∀ t', (makeDirectories false before).run t = .ok () t' →
      (makeDirectories false (last :: before)).run t = (makeDirectory (last :: before)).run t') ∧
    ∀ e t', (makeDirectories false before).run t = .error e t' → e ≠ .exists →
      (makeDirectories false (last :: before)).run t = .error e t' := by
  have hne : before.isEmpty = false := by
    cases before with
    | nil => simp [Tree.look, Tree.at?] at hmissing
    | cons first before => rfl
  have hnot : leads t before.reverse = false := by
    rw [← Bool.not_eq_true, leads_iff h.tail.reverse, hmissing]
    exact fun h => h rfl
  have hdot : last ≠ "." := (h.parts last List.mem_cons_self).ne.1
  refine ⟨fun t' hrun => ?_, fun e t' hrun he => ?_⟩
  all_goals
    rw [makeDirectories, run_get_bind, hne, hnot, Bool.not_false, Bool.and_true, if_pos rfl, EStateM.run_bind,
      run_tryCatch, hrun]
  · simp only [if_neg hdot]
    exact run_refuse _ _ _ t'
  · cases e with
    | «exists» => exact absurd rfl he
    | _ => rfl

theorem made_of_leads (h : PlainWay (last :: before)) (hleads : t.look before.reverse ≠ none) :
    Made (before.reverse ++ [last]) t ((makeDirectories false (last :: before)).run t) := by
  rw [makeDirectories_of_leads h hleads]
  rcases makeDirectory_cases h t with ⟨habove, hnone, hrun⟩ | ⟨hwhy, e, hrun, he⟩
  · obtain ⟨entries, hat⟩ := Tree.look_eq_directory_iff.1 habove
    rw [hrun]
    exact .made hnone (.concat (.refl habove) hnone) (Tree.at?_put .empty last hat)
  · rw [hrun]
    refine .refused he (hwhy.symm.imp_right fun habove => ?_)
    obtain ⟨content, hfile⟩ := Tree.exists_file_of_look hleads habove
    exact ⟨_, content, List.prefix_append _ _, hfile⟩

/-- A directory is made with all those on the way to it that are not there, or nothing changes. -/
theorem makeDirectories_made (h : PlainWay (last :: before)) (t : Tree C) :
    Made (before.reverse ++ [last]) t ((makeDirectories false (last :: before)).run t) := by
  induction before generalizing last t with
  | nil => exact made_of_leads h (Tree.look_nil_ne_none t)
  | cons first before ih =>
    by_cases hmissing : t.look (first :: before).reverse = none
    · have hnone : t.look ((first :: before).reverse ++ [last]) = none :=
        Tree.look_below_none hmissing (List.prefix_append _ _)
      obtain ⟨hok, herror⟩ := makeDirectories_of_missing h hmissing
      have habove := ih h.tail t
      rw [← List.reverse_cons] at habove
      cases hrun : (makeDirectories false (first :: before)).run t with
      | ok u t' =>
        rw [hrun] at habove
        obtain ⟨-, hgrown, hempty⟩ := habove
        rw [hok t' hrun]
        -- the directory above is new, so that nothing stands in it yet
        have hplace : t'.look ((first :: before).reverse ++ [last]) = none :=
          Tree.look_below_empty hempty (List.prefix_append _ _) (by simp)
        rcases makeDirectory_cases h t' with ⟨-, -, hrun⟩ | ⟨hwhy, -⟩
        · rw [hrun]
          exact .made hnone (hgrown.concat hplace) (Tree.at?_put .empty last hempty)
        · exact (hwhy.elim (· (hgrown.made _ List.prefix_rfl)) (· hplace)).elim
      | error e t' =>
        rw [hrun] at habove
        obtain ⟨⟩ | ⟨he, hwhy⟩ := habove
        rw [herror e t hrun fun h => he h hmissing]
        refine .refused (fun h => absurd hmissing (he h)) (hwhy.imp (absurd hmissing) ?_)
        rintro ⟨q, content, hq, hfile⟩
        exact ⟨q, content, hq.trans (List.prefix_append _ _), hfile⟩
    · exact made_of_leads h hmissing

end Make

theorem makePath_made {name : String} (h : PlainName name) (hparts : parts name ≠ []) (t : Tree C) :
    Made (parts name) t ((makePath false name).run t) := by
  obtain ⟨before, last, hlast⟩ := (parts name).eq_nil_or_concat.resolve_left hparts
  rw [List.concat_eq_append] at hlast
  have hway : PlainWay (last :: before.reverse) := by
    have hname : PlainWay (parts name) := ⟨h.parts, (wayLength_parts_le name).trans_lt h.short⟩
    have hreverse := hname.reverse
    rwa [hlast, List.reverse_append] at hreverse
  have hmade := makeDirectories_made hway t
  rw [List.reverse_reverse, ← hlast] at hmade
  have hrun : makePath (C := C) false name = makeDirectories false (last :: before.reverse) := by
    unfold makePath
    rw [hlast]
    cases before with
    | nil => rfl
    | cons first before => simp
  rwa [hrun]

/-- A plain name is found where something stands at the place of its parts, unless it asks for a directory and that is
a file. -/
theorem exists?_iff {name : String} (h : PlainName name) :
    exists? t name = true ↔
      t.look (parts name) ≠ none ∧ (endsInSlash name = true → t.look (parts name) = some .directory) := by
  unfold exists?
  cases hlocate : locate t name with
  | error e =>
    refine ⟨nofun, fun hlook => ?_⟩
    cases hlocate.symm.trans ((locate_eq_ok_iff h).2 ⟨rfl, hlook⟩)
  | ok place =>
    obtain ⟨rfl, hlook⟩ := (locate_eq_ok_iff h).1 hlocate
    exact ⟨fun _ => hlook, fun _ => rfl⟩

theorem namesIn_cases {name : String} (h : PlainName name) (hexists : exists? t name = true) :
    (∃ entries, t.at? (parts name) = some (.directory entries) ∧
      (namesIn name).run t = .ok (entries.map (·.1)) t) ∨
    (t.look (parts name) ≠ some .directory ∧ ∃ e, (namesIn name).run t = .error e t) := by
  have hlocate : locate t name = .ok (parts name) := (locate_eq_ok_iff h).2 ⟨rfl, (exists?_iff h).1 hexists⟩
  unfold namesIn
  rw [run_get_bind, hlocate, run_bind_of_eq_ok (run_ofExcept_eq_ok.2 ⟨rfl, rfl⟩), Ne, Tree.look_eq_directory_iff]
  cases t.at? (parts name) with
  | none => exact .inr ⟨by simp, _, rfl⟩
  | some found =>
    cases found with
    | file content => exact .inr ⟨by simp, _, rfl⟩
    | directory entries => exact .inl ⟨entries, rfl, rfl⟩

/-! ### Nothing is taken away -/

theorem keeps_makeDirectory (t : Tree C) (way : List String) : Keeps t.StaysIn (makeDirectory way) := by
  cases way with
  | nil => exact .throw _
  | cons last before =>
    refine .get_bind fun found hfound => ?_
    dsimp only
    split
    · exact .throw_bind _ _
    split
    · exact .throw_bind _ _
    refine .bind (.ofExcept _) fun place => ?_
    split
    · exact .throw_bind _ _
    split
    · exact .throw_bind _ _
    · rename_i hfree
      simp only [Bool.or_eq_true, not_or, Bool.not_eq_true, Option.isSome_eq_false_iff, Option.isNone_iff_eq_none] at hfree
      exact .set (hfound.trans (.put (Tree.look_eq_none_iff.2 hfree.2) _))

theorem keeps_makeDirectories (t : Tree C) (reuse : Bool) (way : List String) :
    Keeps t.StaysIn (makeDirectories reuse way) := by
  induction way with
  | nil => exact .throw _
  | cons last before ih =>
    have hlast : Keeps t.StaysIn (do
        try makeDirectory (C := C) (last :: before)
        catch e => do
          let there := leadsToDirectory (← get) (last :: before).reverse
          unless reuse && there do throw e) := by
      refine .tryCatch (keeps_makeDirectory t _) fun e => .bind .get fun found => ?_
      dsimp only
      split
      · exact .pure _
      · exact .throw _
    refine .get_bind fun found hfound => ?_
    split
    · refine .bind (.tryCatch ih fun e => ?_) fun _ => ?_
      · cases e with
        | «exists» => exact .pure _
        | _ => exact .throw _
      · split
        · exact .pure _
        · exact hlast
    · exact hlast

theorem keeps_makePath (t : Tree C) (reuse : Bool) (name : String) : Keeps t.StaysIn (makePath reuse name) := by
  unfold makePath
  split
  · split_ifs
    · exact .pure _
    · exact .throw _
    · exact .throw _
  · exact keeps_makeDirectories t reuse _

/-- A way that leads somewhere still leads there when nothing was taken away. -/
theorem walk_of_staysIn {t' : Tree C} {way : List String} (h : t.StaysIn t') (hwalk : walk t here way = .ok place) :
    walk t' here way = .ok place := by
  induction way generalizing here with
  | nil => exact hwalk
  | cons part way ih =>
    rw [walk] at hwalk ⊢
    cases hat : t.at? here with
    | none => simp [hat] at hwalk
    | some found =>
      cases found with
      | file content => simp [hat] at hwalk
      | directory entries =>
        have hlook : t.look here = some .directory := Tree.look_eq_directory_iff.2 ⟨entries, hat⟩
        obtain ⟨entries', hat'⟩ := Tree.look_eq_directory_iff.1 ((h here (by simp [hlook])).trans hlook)
        simp only [hat, hat'] at hwalk ⊢
        split_ifs at hwalk with hdot hdots hlong hthere
        · rw [if_pos hdot]
          exact ih hwalk
        · rw [if_neg hdot, if_pos hdots]
          exact ih hwalk
        · have hbelow := (Tree.isSome_lookup_iff hat part).1 hthere
          rw [if_neg hdot, if_neg hdots, if_neg hlong,
            if_pos ((Tree.isSome_lookup_iff hat' part).2 (h _ hbelow ▸ hbelow))]
          exact ih hwalk

/-! ### Files that may be missing -/

/-- The way to the file of a name: a directory is above it, whether or not the file is there. -/
structure FileWay (t : Tree C) (name : String) (before : List String) (last : String) (above : List String) : Prop where
  wellFormed : isWellFormed name = true
  short : name.utf8ByteSize < lengthLimit
  noSlash : endsInSlash name = false
  parts : parts name = before ++ [last]
  plain : PlainPart last
  reached : walk t [] before = .ok above
  directory : t.look above = some .directory

theorem filePlace_eq_ok {name : String} (h : filePlace t name = .ok place) :
    t.look place ≠ some .directory ∧
      ∃ before last above, place = above ++ [last] ∧ FileWay t name before last above := by
  unfold filePlace at h
  obtain ⟨hformed, h⟩ := except_guard_eq_ok.1 h
  obtain ⟨hshort, h⟩ := except_guard_eq_ok.1 h
  split at h
  · cases h
  rename_i last before hreverse
  obtain ⟨above, habove, h⟩ := except_bind_eq_ok.1 h
  obtain ⟨hlong, h⟩ := except_guard_eq_ok.1 h
  obtain ⟨hproper, h⟩ := except_guard_eq_ok.1 h
  obtain ⟨hfile, h⟩ := except_guard_eq_ok.1 h
  cases h
  obtain ⟨found, hwalk, hfound⟩ := except_bind_eq_ok.1 habove
  split_ifs at hfound with hdirectory
  cases hfound
  simp only [Bool.not_eq_true', Bool.not_eq_false] at hformed
  have hparts : parts name = before.reverse ++ [last] := by
    rw [← List.reverse_cons, ← hreverse, List.reverse_reverse]
  have hlast : last ∈ parts name := hparts ▸ List.mem_append_right _ (List.mem_singleton_self last)
  have hnul : isWellFormed last = true :=
    (isWellFormed_iff last).2 fun hc => (isWellFormed_iff name).1 hformed (mem_of_mem_parts hlast hc)
  simp only [Bool.or_eq_true, not_or, Bool.not_eq_true, Bool.not_eq_eq_eq_not, Bool.not_true] at hproper
  refine ⟨fun hlook => hfile (Tree.any_isDirectory_iff.2 hlook), before.reverse, last, above, rfl, ?_⟩
  exact ⟨hformed, not_le.1 hshort, hproper.1, hparts, ⟨by simpa using hproper.2, by simpa using hlong, hnul⟩, hwalk,
    Tree.any_isDirectory_iff.1 hdirectory⟩

/-- The file of a name is found at its place once it is there, and later on too. -/
theorem locate_of_filePlace {name : String} {t' : Tree C} {content : C} (h : filePlace t name = .ok place)
    (hstays : t.StaysIn t') (hfile : t'.look place = some (.file content)) : locate t' name = .ok place := by
  obtain ⟨-, before, last, above, rfl, hway⟩ := filePlace_eq_ok h
  have hname : name ≠ "" := by
    rintro rfl
    simpa using hway.parts.symm.trans (show parts "" = [] from rfl)
  have habove : t'.look above ≠ none := by simp [hstays above (by simp [hway.directory]), hway.directory]
  have hlast : walk t' above [last] = .ok (above ++ [last]) :=
    (walk_eq_ok_iff (List.forall_mem_singleton.2 hway.plain) habove).2 ⟨rfl, by simp [hfile]⟩
  unfold locate
  rw [if_neg (by simp [hway.wellFormed]), if_neg (not_le.2 hway.short), if_neg hname, route, hway.noSlash,
    if_neg Bool.false_ne_true, List.append_nil, hway.parts, walk_append]
  exact except_bind_eq_ok.2 ⟨above, walk_of_staysIn hstays hway.reached, hlast⟩

end Magnetofluid.Files
