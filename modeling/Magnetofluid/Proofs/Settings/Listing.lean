import Mathlib
import Magnetofluid.Proofs.Outcome
import Magnetofluid.Settings.Entry

/-!
# Settings that can be printed

Settings are printed as they are read.  This fails for an integer that has too many digits to be written, and for
nothing else.

* `Settings.Shown`: a setting that can be printed.
* `Settings.exists_showAll_iff`: settings are printed if each of them can be.
-/

namespace Magnetofluid.Settings

variable {K : Type} [RealText K]

/-! ### Values -/

section Writable

omit [RealText K]

@[simp] theorem isWritable_null : (.null : Value K).isWritable = true := rfl

@[simp] theorem isWritable_text (s : String) : (.text s : Value K).isWritable = true := rfl

@[simp] theorem isWritable_bool (b : Bool) : (.bool b : Value K).isWritable = true := rfl

@[simp] theorem isWritable_real (x : K) : (.real x : Value K).isWritable = true := rfl

theorem isWritable_int {i : ℤ} (h : i.natAbs < 10 ^ 6) : (.int i : Value K).isWritable = true := by
  have hlimit : 6 ≤ Text.digitLimit := by decide
  rw [Value.isWritable, decide_eq_true_eq, Nat.pow_eq]
  generalize Text.digitLimit = limit at hlimit ⊢
  exact h.trans_le (Nat.pow_le_pow_right (by norm_num) hlimit)

theorem isWritable_markers {l : List ℤ} (h : ∀ i ∈ l, i = 0 ∨ i = 1) :
    (.list (l.map .int) : Value K).isWritable = true := by
  show Value.areWritable _ = true
  induction l with
  | nil => rfl
  | cons i l ih =>
    rw [List.forall_mem_cons] at h
    have hi : (.int i : Value K).isWritable = true := isWritable_int (by omega)
    rw [List.map_cons, Value.areWritable, hi, ih h.2]
    rfl

end Writable

/-! ### Listings -/

/-- Whether a setting can be printed: no integer in it has too many digits. -/
def Shown (e : Value K × Value K) : Prop :=
  match e.2 with
  | .map parts => ∀ p ∈ parts, p.2.isWritable = true
  | v => v.isWritable = true

theorem exists_showItem_iff {indent : String} {width : ℕ} {key value : Value K} {printed : List String} :
    (∃ t, (showItem indent width key value).run printed = .ok ⟨⟩ t) ↔ value.isWritable = true := by
  unfold showItem Value.toText
  constructor
  · rintro ⟨t, h⟩
    obtain ⟨text, u, h, -⟩ := run_bind_eq_ok.1 h
    obtain ⟨h, -⟩ := run_ofExcept_eq_ok.1 h
    by_contra hvalue
    rw [if_neg hvalue] at h
    cases h
  · intro h
    rw [if_pos h]
    exact ⟨_, rfl⟩

/-- Actions one after the other succeed if each of them does, wherever it starts. -/
theorem exists_forM_iff {ε σ α : Type} {f : α → EStateM ε σ PUnit} {P : α → Prop}
    (hf : ∀ a s, (∃ t, (f a).run s = .ok ⟨⟩ t) ↔ P a) (l : List α) (s : σ) :
    (∃ t, (l.forM f).run s = .ok ⟨⟩ t) ↔ ∀ a ∈ l, P a := by
  induction l generalizing s with
  | nil => exact ⟨fun _ => nofun, fun _ => ⟨s, rfl⟩⟩
  | cons a l ih =>
    rw [List.forall_mem_cons, ← hf a s]
    constructor
    · rintro ⟨t, h⟩
      obtain ⟨⟨⟩, u, hu, ht⟩ := run_bind_eq_ok.1 h
      exact ⟨⟨u, hu⟩, (ih u).1 ⟨t, ht⟩⟩
    · rintro ⟨⟨u, hu⟩, hl⟩
      obtain ⟨t, ht⟩ := (ih u).2 hl
      exact ⟨t, run_bind_eq_ok.2 ⟨⟨⟩, u, hu, ht⟩⟩

theorem exists_showEntry_iff (e : Value K × Value K) (printed : List String) :
    (∃ t, (showEntry e).run printed = .ok ⟨⟩ t) ↔ Shown e := by
  obtain ⟨key, value⟩ := e
  cases value with
  | map parts =>
    exact exists_forM_iff (fun p _ => exists_showItem_iff) parts (printed ++ Text.lines ("  - " ++ key.plain ++ ":"))
  | _ => exact exists_showItem_iff

theorem exists_showAll_iff (es : Entries K) (printed : List String) :
    (∃ t, (showAll es).run printed = .ok ⟨⟩ t) ↔ ∀ e ∈ es, Shown e :=
  exists_forM_iff exists_showEntry_iff es printed

end Magnetofluid.Settings
