/-
# Work in sequence

Work that is done in sequence goes on from where the work before it has ended, or stops with its
error.  What stays true of the state from one piece of work to the next is a relation between the
state before and the state behind: `Keeps` says that work respects it, however it ends, and with a
reflexive and transitive relation this passes to any sequence.
-/
import Mathlib.Order.Defs.Unbundled
import Mathlib.Tactic.Lemma

namespace Varscript

section Sequence

variable {ε σ α β : Type} {work : EStateM ε σ α} {f : α → EStateM ε σ β} {s s' : σ} {a : α} {e : ε}

lemma bind_of_ok (h : work s = .ok a s') : (work >>= f) s = f a s' := by
  show EStateM.bind work f s = _
  rw [EStateM.bind, h]

lemma bind_of_error (h : work s = .error e s') : (work >>= f) s = .error e s' := by
  show EStateM.bind work f s = _
  rw [EStateM.bind, h]

/-- Two pieces of work that end alike can be followed by the same work. -/
lemma bind_eq_of_eq {work' : EStateM ε σ α} (h : work s = work' s') (f : α → EStateM ε σ β) :
    (work >>= f) s = (work' >>= f) s' := by
  show EStateM.bind work f s = EStateM.bind work' f s'
  rw [EStateM.bind, h, EStateM.bind]

/-- Work fails if what comes last in it fails. -/
lemma exists_error_of_bind (h : ∀ a s, ∃ e s', f a s = .error e s') (s : σ) :
    ∃ e s', (work >>= f) s = .error e s' := by
  cases hwork : work s with
  | ok a s' =>
    rw [bind_of_ok hwork]
    exact h a s'
  | error e s' => exact ⟨e, s', bind_of_error hwork⟩

end Sequence

/-! ### Work that keeps a relation -/

/-- However the work ends, the state behind it is related to the state before it. -/
def Keeps {ε σ α : Type} (R : σ → σ → Prop) (work : EStateM ε σ α) : Prop :=
  ∀ s, match work s with
    | .ok _ s' => R s s'
    | .error _ s' => R s s'

namespace Keeps

variable {ε σ α β : Type} {R : σ → σ → Prop} {work : EStateM ε σ α} {s s' : σ}

lemma of_ok {a : α} (h : Keeps R work) (hwork : work s = .ok a s') : R s s' := by
  have hs := h s
  rwa [hwork] at hs

lemma of_error {e : ε} (h : Keeps R work) (hwork : work s = .error e s') : R s s' := by
  have hs := h s
  rwa [hwork] at hs

lemma pure [Std.Refl R] (a : α) : Keeps R (pure a : EStateM ε σ α) := fun s => refl_of R s

lemma throw [Std.Refl R] (e : ε) : Keeps R (throw e : EStateM ε σ α) := fun s => refl_of R s

lemma get [Std.Refl R] : Keeps R (get : EStateM ε σ σ) := fun s => refl_of R s

lemma bind [IsTrans σ R] {f : α → EStateM ε σ β} (h : Keeps R work) (hf : ∀ a, Keeps R (f a)) :
    Keeps R (work >>= f) := by
  intro s
  cases hwork : work s with
  | error e s' =>
    rw [bind_of_error hwork]
    exact h.of_error hwork
  | ok a s' =>
    rw [bind_of_ok hwork]
    have hfirst := h.of_ok hwork
    cases hmore : f a s' with
    | ok b s'' => exact trans_of R hfirst ((hf a).of_ok hmore)
    | error e s'' => exact trans_of R hfirst ((hf a).of_error hmore)

end Keeps

end Varscript
