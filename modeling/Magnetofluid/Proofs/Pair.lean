import Mathlib
import Magnetofluid.Proofs.Outcome

/-!
# Pairs of runs

What two runs have in common that begin in different states.

* `answer`: what a run tells, without the state that it leaves.
* `SameAnswer`: two outcomes with one answer, and with related states if it is a value.
* `Agree`: from related states two actions have the same answer.
-/

namespace Magnetofluid

variable {ε σ α β : Type}

def answer (act : EStateM ε σ α) (s : σ) : Except ε α :=
  match act.run s with
  | .ok a _ => .ok a
  | .error e _ => .error e

theorem answer_eq_ok {act : EStateM ε σ α} {s : σ} {a : α} : answer act s = .ok a ↔ ∃ t, act.run s = .ok a t := by
  unfold answer
  cases act.run s with
  | ok b t => simp
  | error e t => simp

/-- Two outcomes have the same value and states that `S` relates, or the same cause. -/
inductive SameAnswer (S : σ → σ → Prop) : EStateM.Result ε σ α → EStateM.Result ε σ α → Prop
  | ok {a : α} {t t' : σ} (related : S t t') : SameAnswer S (.ok a t) (.ok a t')
  | error {e : ε} {t t' : σ} : SameAnswer S (.error e t) (.error e t')

/-- From states that `R` relates two actions have the same answer, and they leave states that `S` relates if they
succeed. -/
def Agree (R S : σ → σ → Prop) (x y : EStateM ε σ α) : Prop := ∀ s s', R s s' → SameAnswer S (x.run s) (y.run s')

namespace Agree

variable {R S T : σ → σ → Prop}

theorem answer_eq {x y : EStateM ε σ α} (h : Agree R S x y) {s s' : σ} (hs : R s s') : answer x s = answer y s' := by
  have hrun := h s s' hs
  unfold answer
  revert hrun
  generalize x.run s = r
  generalize y.run s' = r'
  rintro (_ | _)
  · rfl
  · rfl

theorem weaken {R' S' : σ → σ → Prop} {x y : EStateM ε σ α} (h : Agree R S x y) (hR : ∀ s s', R' s s' → R s s')
    (hS : ∀ t t', S t t' → S' t t') : Agree R' S' x y := by
  intro s s' hs
  have hrun := h s s' (hR s s' hs)
  revert hrun
  generalize x.run s = r
  generalize y.run s' = r'
  rintro (⟨hrelated⟩ | _)
  · exact .ok (hS _ _ hrelated)
  · exact .error

theorem pure (a : α) : Agree R R (Pure.pure a : EStateM ε σ α) (Pure.pure a) := fun _ _ hs => .ok hs

theorem throw (e : ε) : Agree R S (MonadExcept.throw e : EStateM ε σ α) (MonadExcept.throw e) := fun _ _ _ => .error

theorem throw_bind (e : ε) (f g : α → EStateM ε σ β) :
    Agree R S (MonadExcept.throw e >>= f) (MonadExcept.throw e >>= g) := fun _ _ _ => .error

theorem modify {f g : σ → σ} (hf : ∀ s s', R s s' → S (f s) (g s')) :
    Agree R S (modify f : EStateM ε σ PUnit) (modify g) := fun s s' hs => .ok (hf s s' hs)

theorem ofExcept (x : Except ε α) : Agree R R (MonadExcept.ofExcept x : EStateM ε σ α) (MonadExcept.ofExcept x) := by
  cases x with
  | ok a => exact pure a
  | error e => exact throw e

theorem bind {x y : EStateM ε σ α} {f g : α → EStateM ε σ β} (hx : Agree R S x y) (hf : ∀ a, Agree S T (f a) (g a)) :
    Agree R T (x >>= f) (y >>= g) := by
  intro s s' hs
  rw [EStateM.run_bind, EStateM.run_bind]
  have hrun := hx s s' hs
  revert hrun
  generalize x.run s = r
  generalize y.run s' = r'
  rintro (⟨hrelated⟩ | _)
  · exact hf _ _ _ hrelated
  · exact .error

theorem discard {x y : EStateM ε σ α} (hx : Agree R S x y) : Agree R S (discard x) (discard y) :=
  hx.bind fun _ => pure _

/-- What follows may use how the states that it reads are related. -/
theorem get_bind {f g : σ → EStateM ε σ β} (hf : ∀ s s', R s s' → Agree R S (f s) (g s')) :
    Agree R S (MonadState.get >>= f) (MonadState.get >>= g) := fun s s' hs => hf s s' hs s s' hs

/-- An action that keeps what it reads answers the same when it is repeated. -/
theorem twice {x : EStateM ε σ α} (hx : Agree R S x x) (hkeeps : ∀ s, Keeps (R s) x) :
    Agree R S x (do Functor.discard x; x) := by
  intro s s' hs
  have hrun := hx s s' hs
  cases hfirst : x.run s' with
  | ok a t =>
    rw [run_bind_of_eq_ok (a := PUnit.unit) (run_discard_eq_ok.2 ⟨a, hfirst⟩)]
    exact hx s t ((hkeeps s).of_run_ok hs hfirst)
  | error e t =>
    have hrepeat : (do Functor.discard x; x : EStateM ε σ α).run s' = .error e t := by
      refine run_bind_eq_error.2 (.inl ?_)
      show EStateM.run (x >>= fun _ => Pure.pure PUnit.unit) s' = _
      exact run_bind_eq_error.2 (.inl hfirst)
    rw [hrepeat, ← hfirst]
    exact hrun

end Agree

end Magnetofluid
