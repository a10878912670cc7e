import Mathlib

/-!
# Outcomes of actions

How an action that succeeds or fails must have gone, read off its parts one by one, and what an action keeps whether it
succeeds or fails.

* `run_bind_eq_ok` and its relatives: a sequence succeeds if its parts do, each in the state that the last one left.
* `run_bind_eq_error` and its relatives: a sequence fails where its first part does, in the state that this part leaves.
* `Keeps`, `KeepsIfOk`: a property of states that holds after an action, or after one that succeeds, if it held before.
* `Leads`: what holds after an action that succeeds, and after one that fails.
* `FailsOnly`, `ErrorsOnly`: a property of all causes with which an action or a computation can fail.
-/

namespace Magnetofluid

variable {ε σ α β : Type}

/-! ### Success -/

theorem run_get_bind (f : σ → EStateM ε σ β) (s : σ) : (get >>= f).run s = (f s).run s := by
  rw [EStateM.run_bind, EStateM.run_get]

theorem run_modify_bind (g : σ → σ) (f : PUnit → EStateM ε σ β) (s : σ) :
    (modify g >>= f).run s = (f ⟨⟩).run (g s) := by
  rw [EStateM.run_bind, EStateM.run_modify]

theorem run_set_bind (s' : σ) (f : PUnit → EStateM ε σ β) (s : σ) : (set s' >>= f).run s = (f ⟨⟩).run s' := rfl

theorem run_pure_bind (a : α) (f : α → EStateM ε σ β) (s : σ) : (pure a >>= f).run s = (f a).run s := by
  rw [EStateM.run_bind, EStateM.run_pure]

theorem run_pure_eq_ok {a b : α} {s t : σ} : (pure a : EStateM ε σ α).run s = .ok b t ↔ a = b ∧ s = t := by
  rw [EStateM.run_pure, EStateM.Result.ok.injEq]

theorem run_bind_eq_ok {x : EStateM ε σ α} {f : α → EStateM ε σ β} {s t : σ} {b : β} :
    (x >>= f).run s = .ok b t ↔ ∃ a u, x.run s = .ok a u ∧ (f a).run u = .ok b t := by
  rw [EStateM.run_bind]
  cases x.run s with
  | ok a u => simp
  | error e u => simp

theorem run_bind_of_eq_ok {x : EStateM ε σ α} {s t : σ} {a : α} (h : x.run s = .ok a t) (f : α → EStateM ε σ β) :
    (x >>= f).run s = (f a).run t := by
  rw [EStateM.run_bind, h]

/-- What follows may differ where the first part does not lead. -/
theorem run_bind_congr {x y : EStateM ε σ α} {f g : α → EStateM ε σ β} {s : σ} (hx : x.run s = y.run s)
    (h : ∀ a t, y.run s = .ok a t → (f a).run t = (g a).run t) : (x >>= f).run s = (y >>= g).run s := by
  rw [EStateM.run_bind, EStateM.run_bind, hx]
  cases hrun : y.run s with
  | ok a t => exact h a t hrun
  | error e t => rfl

theorem run_modify_eq_ok {f : σ → σ} {s t : σ} {u : PUnit} :
    (modify f : EStateM ε σ PUnit).run s = .ok u t ↔ f s = t := by
  rw [EStateM.run_modify, EStateM.Result.ok.injEq]
  exact ⟨fun h => h.2, fun h => ⟨rfl, h⟩⟩

theorem run_map_eq_ok {x : EStateM ε σ α} {f : α → β} {s t : σ} {b : β} :
    (f <$> x).run s = .ok b t ↔ ∃ a, x.run s = .ok a t ∧ f a = b := by
  show EStateM.run (x >>= fun a => pure (f a)) s = _ ↔ _
  rw [run_bind_eq_ok]
  simp only [EStateM.run_pure, EStateM.Result.ok.injEq]
  constructor
  · rintro ⟨a, u, h, rfl, rfl⟩
    exact ⟨a, h, rfl⟩
  · rintro ⟨a, h, rfl⟩
    exact ⟨a, t, h, rfl, rfl⟩

theorem run_discard_eq_ok {x : EStateM ε σ α} {s t : σ} {u : PUnit} :
    (discard x).run s = .ok u t ↔ ∃ a, x.run s = .ok a t := by
  show EStateM.run ((fun _ => PUnit.unit) <$> x) s = _ ↔ _
  rw [run_map_eq_ok]
  simp

theorem run_throw_ne_ok {e : ε} {s t : σ} {a : α} : (throw e : EStateM ε σ α).run s ≠ .ok a t := nofun

theorem run_ofExcept_eq_ok {x : Except ε α} {s t : σ} {a : α} :
    (MonadExcept.ofExcept x : EStateM ε σ α).run s = .ok a t ↔ x = .ok a ∧ s = t := by
  cases x with
  | ok b =>
    show EStateM.Result.ok b s = _ ↔ _
    simp
  | error e =>
    refine ⟨fun h => absurd h run_throw_ne_ok, fun h => ?_⟩
    cases h.1

theorem run_tryCatch (x : EStateM ε σ α) (handle : ε → EStateM ε σ α) (s : σ) :
    (tryCatch x handle).run s =
      match x.run s with
      | .ok a t => .ok a t
      | .error e t => (handle e).run t := by
  show EStateM.tryCatch x handle s = _
  unfold EStateM.tryCatch EStateM.run
  cases x s <;> rfl

theorem except_bind_eq_ok {x : Except ε α} {f : α → Except ε β} {b : β} :
    (x >>= f) = .ok b ↔ ∃ a, x = .ok a ∧ f a = .ok b := by
  cases x with
  | ok a => simp [bind, Except.bind]
  | error e => simp [bind, Except.bind]

/-- A computation that is given up under a condition. -/
theorem except_guard_eq_ok {c : Prop} [Decidable c] {e : ε} {x : Except ε α} {a : α} :
    (if c then throw e >>= fun _ : PUnit => x else x) = .ok a ↔ ¬c ∧ x = .ok a := by
  split_ifs with hc
  · exact ⟨nofun, fun h => (h.1 hc).elim⟩
  · exact ⟨fun h => ⟨hc, h⟩, fun h => h.2⟩

theorem vector_mapM_eq_ok {n : ℕ} {f : α → Except ε β} {v : Vector α n} {w : Vector β n}
    (h : v.toList.mapM f = .ok w.toList) : v.mapM f = .ok w := by
  have harray : Vector.toArray <$> v.mapM f = .ok w.toArray := by
    rw [Vector.toArray_mapM, Array.mapM_eq_mapM_toList]
    show List.toArray <$> v.toList.mapM f = _
    rw [h]
    exact congrArg Except.ok Array.toArray_toList
  cases hv : v.mapM f with
  | error e =>
    rw [hv] at harray
    cases harray
  | ok u =>
    rw [hv] at harray
    exact congrArg Except.ok (Vector.toArray_inj.1 (Except.ok.inj harray))

/-! ### Failure -/

theorem run_bind_eq_error {x : EStateM ε σ α} {f : α → EStateM ε σ β} {s t : σ} {e : ε} :
    (x >>= f).run s = .error e t ↔
      x.run s = .error e t ∨ ∃ a u, x.run s = .ok a u ∧ (f a).run u = .error e t := by
  rw [EStateM.run_bind]
  cases x.run s with
  | ok a u => simp
  | error e u => simp

theorem except_bind_eq_error {x : Except ε α} {f : α → Except ε β} {e : ε} :
    (x >>= f) = .error e ↔ x = .error e ∨ ∃ a, x = .ok a ∧ f a = .error e := by
  cases x with
  | ok a => simp [bind, Except.bind]
  | error e => simp [bind, Except.bind]

theorem run_pure_ne_error {a : α} {s t : σ} {e : ε} : (pure a : EStateM ε σ α).run s ≠ .error e t := nofun

theorem run_modify_ne_error {f : σ → σ} {s t : σ} {e : ε} :
    (modify f : EStateM ε σ PUnit).run s ≠ .error e t := nofun

theorem run_throw_eq_error {e e' : ε} {s t : σ} :
    (throw e : EStateM ε σ α).run s = .error e' t ↔ e = e' ∧ s = t := by
  show EStateM.Result.error e s = _ ↔ _
  simp

theorem run_ofExcept_eq_error {x : Except ε α} {s t : σ} {e : ε} :
    (MonadExcept.ofExcept x : EStateM ε σ α).run s = .error e t ↔ x = .error e ∧ s = t := by
  cases x with
  | ok a =>
    refine ⟨fun h => absurd h run_pure_ne_error, fun h => ?_⟩
    cases h.1
  | error e' =>
    show EStateM.Result.error e' s = _ ↔ _
    simp

/-! ### What is kept -/

def stateAfter (act : EStateM ε σ α) (s : σ) : σ :=
  match act.run s with
  | .ok _ t => t
  | .error _ t => t

/-- A property of states holds after an action if it held before, also if the action fails. -/
def Keeps (P : σ → Prop) (act : EStateM ε σ α) : Prop := ∀ s, P s → P (stateAfter act s)

namespace Keeps

variable {P : σ → Prop}

theorem pure (a : α) : Keeps P (Pure.pure a : EStateM ε σ α) := fun _ h => h

theorem get : Keeps P (MonadState.get : EStateM ε σ σ) := fun _ h => h

theorem set {s : σ} (hs : P s) : Keeps P (set s : EStateM ε σ PUnit) := fun _ _ => hs

theorem throw (e : ε) : Keeps P (MonadExcept.throw e : EStateM ε σ α) := fun _ h => h

theorem modify {f : σ → σ} (hf : ∀ s, P s → P (f s)) : Keeps P (modify f : EStateM ε σ PUnit) := hf

theorem ofExcept (x : Except ε α) : Keeps P (MonadExcept.ofExcept x : EStateM ε σ α) := by
  cases x with
  | ok a => exact pure a
  | error e => exact throw e

theorem bind {x : EStateM ε σ α} {f : α → EStateM ε σ β} (hx : Keeps P x) (hf : ∀ a, Keeps P (f a)) :
    Keeps P (x >>= f) := by
  intro s hs
  have h := hx s hs
  unfold stateAfter at h ⊢
  rw [EStateM.run_bind]
  revert h
  cases x.run s with
  | ok a u => exact hf a u
  | error e u => exact id

theorem throw_bind (e : ε) (f : α → EStateM ε σ β) : Keeps P (MonadExcept.throw e >>= f) := fun _ h => h

/-- What is tried keeps the property, and so does what is done about each cause of failure. -/
theorem tryCatch {x : EStateM ε σ α} {handle : ε → EStateM ε σ α} (hx : Keeps P x) (hhandle : ∀ e, Keeps P (handle e)) :
    Keeps P (MonadExcept.tryCatch x handle) := by
  intro s hs
  have h := hx s hs
  unfold stateAfter at h ⊢
  rw [run_tryCatch]
  revert h
  cases x.run s with
  | ok a t => exact id
  | error e t => exact hhandle e t

/-- What follows may use that the state it reads has the property. -/
theorem get_bind {f : σ → EStateM ε σ β} (hf : ∀ s, P s → Keeps P (f s)) :
    Keeps P (MonadState.get >>= f : EStateM ε σ β) := fun s hs => hf s hs s hs

theorem of_run_ok {act : EStateM ε σ α} (hact : Keeps P act) {s t : σ} {a : α} (hs : P s) (h : act.run s = .ok a t) :
    P t := by
  have hafter := hact s hs
  unfold stateAfter at hafter
  rwa [h] at hafter

theorem of_run_error {act : EStateM ε σ α} (hact : Keeps P act) {s t : σ} {e : ε} (hs : P s)
    (h : act.run s = .error e t) : P t := by
  have hafter := hact s hs
  unfold stateAfter at hafter
  rwa [h] at hafter

end Keeps

/-- A property of states holds after an action that succeeds if it held before. -/
def KeepsIfOk (P : σ → Prop) (act : EStateM ε σ α) : Prop := ∀ s a t, P s → act.run s = .ok a t → P t

namespace KeepsIfOk

variable {P : σ → Prop}

theorem of_keeps {act : EStateM ε σ α} (hact : Keeps P act) : KeepsIfOk P act := fun _ _ _ hs h => hact.of_run_ok hs h

theorem bind {x : EStateM ε σ α} {f : α → EStateM ε σ β} (hx : KeepsIfOk P x) (hf : ∀ a, KeepsIfOk P (f a)) :
    KeepsIfOk P (x >>= f) := by
  intro s b t hs h
  obtain ⟨a, u, hu, ht⟩ := run_bind_eq_ok.1 h
  exact hf a u b t (hx s a u hs hu) ht

end KeepsIfOk

/-- From states with one property, an action that succeeds leaves a state and a value with another one, and an action
that fails leaves a state with a third. -/
structure Leads (P : σ → Prop) (act : EStateM ε σ α) (Q : α → σ → Prop) (E : σ → Prop) : Prop where
  ok : ∀ s a t, P s → act.run s = .ok a t → Q a t
  error : ∀ s e t, P s → act.run s = .error e t → E t

namespace Leads

variable {P E : σ → Prop} {Q : α → σ → Prop} {R : β → σ → Prop}

theorem of_keeps {act : EStateM ε σ α} (h : Keeps P act) : Leads P act (fun _ => P) P :=
  ⟨fun _ _ _ hs hrun => h.of_run_ok hs hrun, fun _ _ _ hs hrun => h.of_run_error hs hrun⟩

theorem keeps {act : EStateM ε σ α} (h : Leads P act (fun _ => P) P) : Keeps P act := by
  intro s hs
  unfold stateAfter
  cases hrun : act.run s with
  | ok a t => exact h.ok s a t hs hrun
  | error e t => exact h.error s e t hs hrun

theorem modify {Q : PUnit → σ → Prop} {f : σ → σ} (h : ∀ s, P s → Q ⟨⟩ (f s)) :
    Leads P (modify f : EStateM ε σ PUnit) Q E := by
  refine ⟨fun s a t hs hrun => ?_, fun s e t _ hrun => absurd hrun run_modify_ne_error⟩
  rw [← run_modify_eq_ok.1 hrun]
  exact h s hs

theorem throw_bind (e : ε) (f : α → EStateM ε σ β) : Leads P (MonadExcept.throw e >>= f) R P := by
  refine ⟨fun _ _ _ _ => nofun, fun s e' t hs h => ?_⟩
  rcases run_bind_eq_error.1 h with h | ⟨_, _, h, -⟩
  · obtain ⟨-, rfl⟩ := run_throw_eq_error.1 h
    exact hs
  · exact absurd h run_throw_ne_ok

theorem bind {x : EStateM ε σ α} {f : α → EStateM ε σ β} (hx : Leads P x Q E) (hf : ∀ a, Leads (Q a) (f a) R E) :
    Leads P (x >>= f) R E := by
  constructor
  · intro s b t hs hrun
    obtain ⟨a, u, ha, hb⟩ := run_bind_eq_ok.1 hrun
    exact (hf a).ok u b t (hx.ok s a u hs ha) hb
  · intro s e t hs hrun
    rcases run_bind_eq_error.1 hrun with herror | ⟨a, u, ha, herror⟩
    · exact hx.error s e t hs herror
    · exact (hf a).error u e t (hx.ok s a u hs ha) herror

end Leads

/-! ### Causes -/

/-- The cause with which a computation fails has a property. -/
def ErrorsOnly (E : ε → Prop) (x : Except ε α) : Prop := ∀ e, x = .error e → E e

namespace ErrorsOnly

variable {E : ε → Prop}

theorem ok (a : α) : ErrorsOnly E (.ok a) := fun _ => nofun

theorem error {e : ε} (h : E e) : ErrorsOnly E (.error e : Except ε α) := fun _ herror => Except.error.inj herror ▸ h

theorem bind {x : Except ε α} {f : α → Except ε β} (hx : ErrorsOnly E x) (hf : ∀ a, ErrorsOnly E (f a)) :
    ErrorsOnly E (x >>= f) := by
  intro e h
  rcases except_bind_eq_error.1 h with h | ⟨a, -, h⟩
  · exact hx e h
  · exact hf a e h

theorem elim {e : ε} {o : Option α} {f : α → Except ε β} (h : E e) (hf : ∀ a, ErrorsOnly E (f a)) :
    ErrorsOnly E (o.elim (.error e) f) := by
  cases o with
  | none => exact error h
  | some a => exact hf a

end ErrorsOnly

/-- The causes with which an action fails have a property. -/
def FailsOnly (E : ε → Prop) (act : EStateM ε σ α) : Prop := ∀ s e t, act.run s = .error e t → E e

namespace FailsOnly

variable {E : ε → Prop}

theorem pure (a : α) : FailsOnly E (Pure.pure a : EStateM ε σ α) := fun _ _ _ h => absurd h run_pure_ne_error

theorem get : FailsOnly E (MonadState.get : EStateM ε σ σ) := fun _ _ _ => nofun

theorem set (s : σ) : FailsOnly E (set s : EStateM ε σ PUnit) := fun _ _ _ => nofun

theorem modify (f : σ → σ) : FailsOnly E (modify f : EStateM ε σ PUnit) := fun _ _ _ h =>
  absurd h run_modify_ne_error

theorem throw {e : ε} (h : E e) : FailsOnly E (MonadExcept.throw e : EStateM ε σ α) := by
  intro s f t hthrow
  obtain ⟨rfl, -⟩ := run_throw_eq_error.1 hthrow
  exact h

theorem ofExcept {x : Except ε α} (h : ErrorsOnly E x) :
    FailsOnly E (MonadExcept.ofExcept x : EStateM ε σ α) := fun _ e _ hlook => h e (run_ofExcept_eq_error.1 hlook).1

theorem bind {x : EStateM ε σ α} {f : α → EStateM ε σ β} (hx : FailsOnly E x) (hf : ∀ a, FailsOnly E (f a)) :
    FailsOnly E (x >>= f) := by
  intro s e t h
  rcases run_bind_eq_error.1 h with h | ⟨a, u, -, h⟩
  · exact hx s e t h
  · exact hf a u e t h

theorem throw_bind {e : ε} (h : E e) (f : α → EStateM ε σ β) : FailsOnly E (MonadExcept.throw e >>= f) := by
  intro s e' t hthrow
  rcases run_bind_eq_error.1 hthrow with hthrow | ⟨a, u, hthrow, -⟩
  · exact throw h s e' t hthrow
  · exact absurd hthrow run_throw_ne_ok

end FailsOnly

end Magnetofluid
