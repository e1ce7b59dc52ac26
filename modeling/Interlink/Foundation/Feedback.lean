import Interlink.Foundation.Transition

/-!
# Systems that consume what they produce

A system takes in items from a queue.  Others put items into the queue from outside,
and the steps of the system may put in more.  Where they never do, the system takes
in no more than the others have put in.
-/

namespace Interlink.Foundation

universe u v w

structure Feedback (σ : Type u) where
  state : σ
  external : Nat
  internal : Nat
  consumed : Nat

namespace Feedback

variable {σ : Type u} {ε : Type v} {ω : Type w}

inductive Event (ε : Type v) where
  | external
  | act (event : ε)

def start (s : σ) : Feedback σ := ⟨s, 0, 0, 0⟩

section Steps

variable (step : Step σ ε ω) (consumes : ε → Bool) (produces : σ → ε → Nat)

def next : Step (Feedback σ) (Event ε) ω
  | s, .external => some ({ s with external := s.external + 1 }, [])
  | s, .act e =>
      if consumes e = true ∧ s.external + s.internal ≤ s.consumed then none
      else (step s.state e).map fun (state, out) =>
        (⟨state, s.external, s.internal + produces s.state e,
          s.consumed + (consumes e).toNat⟩, out)

end Steps

variable {step : Step σ ε ω} {consumes : ε → Bool} {produces : σ → ε → Nat} {J : σ → Prop}

private theorem consumed_le_step
    (hproduces : ∀ {s e s' out}, J s → step s e = some (s', out) →
      J s' ∧ produces s e = 0)
    {s s' : Feedback σ} {e : Event ε} {out : List ω}
    (h : J s.state ∧ s.internal = 0 ∧ s.consumed ≤ s.external)
    (hstep : next step consumes produces s e = some (s', out)) :
    J s'.state ∧ s'.internal = 0 ∧ s'.consumed ≤ s'.external := by
  obtain ⟨hJ, hinternal, hconsumed⟩ := h
  cases e with
  | external =>
      cases hstep
      exact ⟨hJ, hinternal, Nat.le_succ_of_le hconsumed⟩
  | act e =>
      simp only [next] at hstep
      split at hstep
      next => cases hstep
      next hfull =>
        obtain ⟨⟨state, observed⟩, hinner, heq⟩ := Option.map_eq_some_iff.mp hstep
        cases heq
        obtain ⟨hJ', hnone⟩ := hproduces hJ hinner
        refine ⟨hJ', by simp [hinternal, hnone], ?_⟩
        cases hconsumes : consumes e with
        | false => simpa using hconsumed
        | true =>
            simp only [hconsumes, true_and, hinternal, Nat.add_zero] at hfull
            simp only [Bool.toNat_true]
            omega

theorem consumed_le
    (hproduces : ∀ {s e s' out}, J s → step s e = some (s', out) →
      J s' ∧ produces s e = 0)
    {s : σ} {last : Feedback σ} {es : List (Event ε)} {outs : List ω} (hJ : J s)
    (hexec : Step.exec (next step consumes produces) (start s) es = some (last, outs)) :
    last.consumed ≤ last.external := by
  have hlast : J last.state ∧ last.internal = 0 ∧ last.consumed ≤ last.external :=
    Step.invariant (I := fun _ s => J s.state ∧ s.internal = 0 ∧ s.consumed ≤ s.external)
      (fun h hstep => consumed_le_step hproduces h hstep)
      ⟨hJ, rfl, Nat.le_refl 0⟩ hexec
  exact hlast.2.2

end Feedback

end Interlink.Foundation
