import Mathlib
import Magnetofluid.Proofs.Outcome
import Magnetofluid.Settings.Entry

/-!
# Entries by their keys

A section is read by looking its settings up, so neither the order of its entries nor an entry that nothing looks up
matters.

* `Value.sameKey_text_iff`, `Value.lookup?_append`: how settings are looked up.
* `Value.Rearranged`: the same values, the entries of maps in any order.
* `Settings.given_rearranged`: what is given for a name does not depend on the order.
* `Value.toText_text` and its relatives: a value of the kind that is asked for is taken as it is.
-/

namespace Magnetofluid

variable {K : Type} [RealText K]

namespace Value

/-! ### Looking up -/

theorem sameKey_text_iff {key : Value K} {s : String} : sameKey key (.text s) = true ↔ key = .text s := by
  cases key <;> simp [sameKey, number?]

theorem text_sameKey_iff {key : Value K} {s : String} : sameKey (.text s) key = true ↔ key = .text s := by
  cases key with
  | text t => rw [sameKey, beq_iff_eq, Value.text.injEq, eq_comm]
  | _ => simp [sameKey, number?]

theorem sameKey_text_text (s t : String) : sameKey (.text s : Value K) (.text t) = (s == t) := by
  simp [sameKey]

theorem lookup?_nil (key : Value K) : lookup? [] key = none := rfl

theorem lookup?_cons (e : Value K × Value K) (es : List (Value K × Value K)) (key : Value K) :
    lookup? (e :: es) key = if sameKey e.1 key then some e.2 else lookup? es key := by
  unfold lookup?
  rw [List.find?_cons]
  cases sameKey e.1 key <;> rfl

theorem lookup?_append (es fs : List (Value K × Value K)) (key : Value K) :
    lookup? (es ++ fs) key = (lookup? es key).or (lookup? fs key) := by
  unfold lookup?
  rw [List.find?_append]
  cases es.find? fun e => sameKey e.1 key <;> rfl

theorem exists_of_lookup? {es : List (Value K × Value K)} {key v : Value K} (h : lookup? es key = some v) :
    ∃ e ∈ es, sameKey e.1 key = true ∧ e.2 = v := by
  obtain ⟨e, he, rfl⟩ := Option.map_eq_some_iff.1 h
  have hkey := List.find?_some he
  exact ⟨e, List.mem_of_find?_eq_some he, hkey, rfl⟩

def DistinctKeys (es : List (Value K × Value K)) : Prop := es.Pairwise fun e f => sameKey e.1 f.1 = false

/-- Where keys are distinct every entry whose key is a text is found. -/
theorem DistinctKeys.lookup?_of_mem {es : List (Value K × Value K)} (hes : DistinctKeys es) {s : String} {v : Value K}
    (h : (.text s, v) ∈ es) : lookup? es (.text s) = some v := by
  induction es with
  | nil => cases h
  | cons e es ih =>
    obtain ⟨hhead, htail⟩ := List.pairwise_cons.1 hes
    rw [lookup?_cons]
    rcases List.mem_cons.1 h with rfl | h
    · simp [sameKey_text_text]
    · rw [hhead _ h]
      exact ih htail h

/-! ### Order -/

/-- The values are the same but for the order of entries in maps. -/
inductive Rearranged : Value K → Value K → Prop
  | refl (v : Value K) : Rearranged v v
  | map {es fs : List (Value K × Value K)} : (∀ key, (lookup? es key).isSome = (lookup? fs key).isSome) →
      (∀ key v w, lookup? es key = some v → lookup? fs key = some w → Rearranged v w) →
      Rearranged (.map es) (.map fs)

def isMap : Value K → Bool
  | map _ => true
  | _ => false

namespace Rearranged

theorem eq {v w : Value K} (h : Rearranged v w) (hw : w.isMap = false) : v = w := by
  cases h with
  | refl => rfl
  | map _ _ => cases hw

theorem exists_map {v : Value K} {fs : List (Value K × Value K)} (h : Rearranged v (.map fs)) :
    ∃ es, v = .map es ∧ Rearranged (.map es) (.map fs) := by
  cases h with
  | refl => exact ⟨fs, rfl, .refl _⟩
  | map hkeys hvalues => exact ⟨_, rfl, .map hkeys hvalues⟩

theorem lookup?_eq_none {es fs : List (Value K × Value K)} (h : Rearranged (.map es) (.map fs)) {key : Value K}
    (hkey : lookup? fs key = none) : lookup? es key = none := by
  cases h with
  | refl => exact hkey
  | map hkeys _ =>
    have hnone := hkeys key
    rw [hkey] at hnone
    exact Option.not_isSome_iff_eq_none.1 (by simp [hnone])

theorem exists_lookup? {es fs : List (Value K × Value K)} (h : Rearranged (.map es) (.map fs)) {key w : Value K}
    (hkey : lookup? fs key = some w) : ∃ v, lookup? es key = some v ∧ Rearranged v w := by
  cases h with
  | refl => exact ⟨w, hkey, .refl w⟩
  | map hkeys hvalues =>
    have hsome := hkeys key
    rw [hkey] at hsome
    obtain ⟨v, hv⟩ := Option.isSome_iff_exists.1 hsome
    exact ⟨v, hv, hvalues key v w hv hkey⟩

theorem of_lookup?_eq {es fs : List (Value K × Value K)} (h : ∀ key, lookup? es key = lookup? fs key) :
    Rearranged (.map es) (.map fs) := by
  refine .map (fun key => by rw [h key]) fun key v w hv hw => ?_
  rw [h key, hw] at hv
  exact Option.some.inj hv ▸ .refl w

theorem of_forall₂ {es fs : List (Value K × Value K)}
    (h : List.Forall₂ (fun e f => e.1 = f.1 ∧ Rearranged e.2 f.2) es fs) : Rearranged (.map es) (.map fs) := by
  have hlookup (key : Value K) : (lookup? es key).isSome = (lookup? fs key).isSome ∧
      ∀ v w, lookup? es key = some v → lookup? fs key = some w → Rearranged v w := by
    induction h with
    | nil => exact ⟨rfl, nofun⟩
    | @cons e f es fs hef _ ih =>
      obtain ⟨hkey, hvalue⟩ := hef
      rw [lookup?_cons, lookup?_cons, hkey]
      split
      · refine ⟨rfl, fun v w hv hw => ?_⟩
        cases hv
        cases hw
        exact hvalue
      · exact ih
  exact .map (fun key => (hlookup key).1) fun key => (hlookup key).2

end Rearranged

/-! ### Values of the kind that is asked for -/

@[simp] theorem toText_text (s : String) : (.text s : Value K).toText = .ok s := by
  simp [toText, isWritable, plain]

@[simp] theorem toReal_real (x : K) : (.real x : Value K).toReal = .ok x := rfl

@[simp] theorem toInteger_int (i : ℤ) : (.int i : Value K).toInteger = .ok i := rfl

@[simp] theorem isTrue_bool (b : Bool) : (.bool b : Value K).isTrue = b := rfl

omit [RealText K] in
@[simp] theorem toEntries_map (es : List (Value K × Value K)) : (.map es : Value K).toEntries = .ok es := rfl

theorem mapM_toInteger_int (l : List ℤ) : l.mapM (toInteger ∘ .int : ℤ → Except (Failure K) ℤ) = .ok l := by
  induction l with
  | nil => rfl
  | cons i l ih =>
    rw [List.mapM_cons, Function.comp_apply, toInteger_int, ih]
    rfl

end Value

namespace Settings

variable {es fs : Entries K}

/-! ### Settings by name -/

@[simp] theorem named?_nil (name : String) : Value.named? ([] : Entries K) name = none := rfl

@[simp] theorem named?_entry_cons (name : String) (v : Value K) (es : Entries K) (other : String) :
    Value.named? (entry name v :: es) other = if name = other then some v else Value.named? es other := by
  simp [Value.named?, entry, Value.lookup?_cons, Value.sameKey_text_text]

theorem named?_append (es fs : Entries K) (name : String) :
    Value.named? (es ++ fs) name = (Value.named? es name).or (Value.named? fs name) := Value.lookup?_append es fs _

@[simp] theorem given_nil (name : String) (default : Value K) : given [] name default = default := rfl

@[simp] theorem given_entry_cons (name : String) (v : Value K) (es : Entries K) (other : String) (default : Value K) :
    given (entry name v :: es) other default = if name = other then v else given es other default := by
  unfold given
  rw [named?_entry_cons]
  split <;> rfl

/-! ### Sections in another order -/

/-- No setting is a map itself. -/
def Plain (es : Entries K) : Prop := ∀ e ∈ es, e.2.isMap = false

theorem named?_eq_some_of_rearranged (h : Value.Rearranged (.map es) (.map fs)) {name : String} {w : Value K}
    (hname : Value.named? fs name = some w) (hw : w.isMap = false) : Value.named? es name = some w := by
  obtain ⟨v, hv, hvw⟩ := h.exists_lookup? hname
  rw [← hvw.eq hw]
  exact hv

theorem named?_rearranged (h : Value.Rearranged (.map es) (.map fs)) (hplain : Plain fs) (name : String) :
    Value.named? es name = Value.named? fs name := by
  cases hfs : Value.named? fs name with
  | none => exact h.lookup?_eq_none hfs
  | some w =>
    obtain ⟨e, he, -, rfl⟩ := Value.exists_of_lookup? hfs
    exact named?_eq_some_of_rearranged h hfs (hplain e he)

theorem given_rearranged (h : Value.Rearranged (.map es) (.map fs)) (hplain : Plain fs) (name : String)
    (default : Value K) : given es name default = given fs name default := by
  unfold given
  rw [named?_rearranged h hplain]

theorem given_of_rearranged (h : Value.Rearranged (.map es) (.map fs)) {name : String} {w default : Value K}
    (hname : Value.named? fs name = some w) (hw : w.isMap = false) : given es name default = w := by
  rw [given, named?_eq_some_of_rearranged h hname hw]
  rfl

/-- A part of a section keeps its settings when the section is rearranged. -/
theorem exists_part_of_rearranged (h : Value.Rearranged (.map es) (.map fs)) (name : String) (part : Entries K)
    (hpart : Value.named? fs name = some (.map part)) :
    ∃ part', given es name (.map []) = .map part' ∧ Value.Rearranged (.map part') (.map part) := by
  obtain ⟨v, hv, hvw⟩ := h.exists_lookup? hpart
  obtain ⟨part', rfl, hpart'⟩ := hvw.exists_map
  refine ⟨part', ?_, hpart'⟩
  rw [given, Value.named?, hv]
  rfl

/-! ### Checks -/

omit [RealText K] in
theorem require_eq_ok {rule : SettingRule} {holds : Bool} {u : Unit} :
    (require rule holds : Except (Failure K) Unit) = .ok u ↔ holds = true := by
  cases holds <;> simp [require]

omit [RealText K] in
theorem require_true (rule : SettingRule) : (require rule true : Except (Failure K) Unit) = .ok () := rfl

omit [RealText K] in
theorem choose_eq_ok {α : Type} {rule : SettingRule} {ofName? : String → Option α} {name : String} {a : α} :
    (choose rule ofName? name : Except (Failure K) α) = .ok a ↔ ofName? name = some a := by
  unfold choose
  cases ofName? name <;> simp

omit [RealText K] in
theorem ok_bind {α β : Type} (a : α) (f : α → Except (Failure K) β) : (.ok a >>= f) = f a := rfl

end Settings

end Magnetofluid
