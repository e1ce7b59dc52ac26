import Mathlib.Data.Option.Basic

/-!
# Computations that return

`next s` says how a computation goes on from the state `s`: to another state, or by
returning a result; `none` says that it is stuck.  A run is given fuel, and what it returns
does not depend on how much.
-/

namespace Interlink.Foundation.Loop

universe u v

variable {σ : Type u} {α : Type v}

def run (next : σ → Option (σ ⊕ α)) : Nat → σ → Option α
  | 0, _ => none
  | fuel + 1, s =>
      match next s with
      | some (.inl s') => run next fuel s'
      | some (.inr a) => some a
      | none => none

def Returns (next : σ → Option (σ ⊕ α)) (s : σ) (a : α) : Prop :=
  ∃ fuel, run next fuel s = some a

/-- The computation returns, and its result satisfies `P`. -/
def Ends (next : σ → Option (σ ⊕ α)) (s : σ) (P : α → Prop) : Prop :=
  ∃ a, Returns next s a ∧ P a

variable {next : σ → Option (σ ⊕ α)} {s s' : σ} {a b : α} {P : α → Prop}

theorem run_add {fuel : Nat} (h : run next fuel s = some a) (extra : Nat) :
    run next (fuel + extra) s = some a := by
  induction fuel generalizing s with
  | zero => cases h
  | succ fuel ih =>
      rw [Nat.succ_add]
      simp only [run] at h ⊢
      split at h
      next s' _ => exact ih h
      next => exact h
      next => cases h

theorem Returns.unique (h : Returns next s a) (h' : Returns next s b) : a = b := by
  obtain ⟨fuel, hfuel⟩ := h
  obtain ⟨fuel', hfuel'⟩ := h'
  have hleft := run_add hfuel fuel'
  have hright := run_add hfuel' fuel
  rw [Nat.add_comm] at hright
  exact Option.some.inj (hleft.symm.trans hright)

theorem Ends.done (h : next s = some (.inr a)) (ha : P a) : Ends next s P :=
  ⟨a, ⟨1, by simp [run, h]⟩, ha⟩

theorem Ends.step (h : next s = some (.inl s')) (hrest : Ends next s' P) : Ends next s P := by
  obtain ⟨a, ⟨fuel, hfuel⟩, ha⟩ := hrest
  exact ⟨a, ⟨fuel + 1, by simp [run, h, hfuel]⟩, ha⟩

theorem Ends.exists_unique (h : Ends next s P) :
    ∃ a, (∀ b, Returns next s b ↔ b = a) ∧ P a := by
  obtain ⟨a, hreturns, ha⟩ := h
  refine ⟨a, fun b => ⟨fun hb => hb.unique hreturns, ?_⟩, ha⟩
  rintro rfl
  exact hreturns

end Interlink.Foundation.Loop
