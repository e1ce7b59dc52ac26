import Mathlib.Data.List.Basic

/-!
# Observations and what precedes them

A property of a trace that constrains each observation by those before it, and
the order in which two kinds of observations come.
-/

namespace Interlink.Foundation

universe u

variable {ω : Type u} {P : List ω → ω → Prop} {trace out : List ω} {o : ω}

def Preceded (P : List ω → ω → Prop) (trace : List ω) : Prop :=
  ∀ before o after, trace = before ++ o :: after → P before o

namespace Preceded

theorem nil : Preceded P [] := by
  intro before o after h
  simp at h

theorem snoc (h : Preceded P trace) (ho : P trace o) : Preceded P (trace ++ [o]) := by
  intro before o' after heq
  rcases List.eq_nil_or_concat after with rfl | ⟨after, last, rfl⟩
  · obtain ⟨rfl, hlast⟩ := List.append_inj' heq rfl
    obtain rfl : o = o' := by simpa using hlast
    exact ho
  · rw [List.concat_eq_append, ← List.cons_append, ← List.append_assoc] at heq
    obtain ⟨htrace, -⟩ := List.append_inj' heq rfl
    exact h before o' after htrace

theorem append (h : Preceded P trace)
    (hout : ∀ before o after, out = before ++ o :: after → P (trace ++ before) o) :
    Preceded P (trace ++ out) := by
  induction out generalizing trace with
  | nil => simpa using h
  | cons o out ih =>
      rw [List.append_cons]
      refine ih (h.snoc ?_) fun before o' after heq => ?_
      · simpa using hout [] o out rfl
      · simpa using hout (o :: before) o' after (by rw [heq]; rfl)

end Preceded

/-! ## Order -/

def Before (P Q : ω → Prop) (observed : List ω) : Prop :=
  ∀ (k l : Nat) (a b : ω), observed[k]? = some a → observed[l]? = some b → P a → Q b → k < l

namespace Before

variable {P Q M P' Q' : ω → Prop}

theorem of_not_right (h : ∀ o ∈ trace, ¬ Q o) : Before P Q trace := by
  intro k l a b _ hl _ hb
  exact absurd hb (h b (List.mem_of_getElem? hl))

theorem mono (h : Before P Q trace) (hP : ∀ o, P' o → P o) (hQ : ∀ o, Q' o → Q o) :
    Before P' Q' trace :=
  fun k l a b hk hl ha hb => h k l a b hk hl (hP a ha) (hQ b hb)

theorem append (h : Before P Q trace) (hout : ∀ o ∈ out, ¬ P o) :
    Before P Q (trace ++ out) := by
  intro k l a b hk hl ha hb
  rw [List.getElem?_append] at hk
  split at hk
  next hlt =>
      rw [List.getElem?_append] at hl
      split at hl
      next => exact h k l a b hk hl ha hb
      next => omega
  next => exact absurd ha (hout a (List.mem_of_getElem? hk))

theorem trans (hPM : Before P M trace) (hMQ : Before M Q trace) (hm : ∃ m ∈ trace, M m) :
    Before P Q trace := by
  intro k l a b hk hl ha hb
  obtain ⟨m, hmem, hm⟩ := hm
  obtain ⟨j, hj⟩ := List.mem_iff_getElem?.mp hmem
  have hleft := hPM k j a m hk hj ha hm
  have hright := hMQ j l m b hj hl hm hb
  omega

theorem not_mem_left (h : Before P Q (trace ++ out)) (hP : ∃ o ∈ out, P o) :
    ∀ o ∈ trace, ¬ Q o := by
  intro b hb hQ
  obtain ⟨a, ha, hP⟩ := hP
  obtain ⟨l, hl⟩ := List.mem_iff_getElem?.mp hb
  obtain ⟨k, hk⟩ := List.mem_iff_getElem?.mp ha
  have hlt : l < trace.length := (List.getElem?_eq_some_iff.mp hl).1
  have hlt' := h (trace.length + k) l a b (by simpa [List.getElem?_append_right] using hk)
    (by rw [List.getElem?_append_left hlt]; exact hl) hP hQ
  omega

theorem not_mem_right (h : Before P Q (trace ++ out)) (hQ : ∃ o ∈ trace, Q o) :
    ∀ o ∈ out, ¬ P o := by
  intro a ha hP
  obtain ⟨b, hb, hQ⟩ := hQ
  exact h.not_mem_left ⟨a, ha, hP⟩ b hb hQ

end Before

end Interlink.Foundation
