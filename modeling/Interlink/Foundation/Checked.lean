import Interlink.Foundation.CharBoundary

/-!
# Checked accesses

A program cuts texts at byte offsets, takes items of a list by number and
subtracts unsigned numbers.  Each such access is refused when it is not valid,
and a refused access ends the program.  A checked computation carries the
accesses it makes, in order, beside its value, and by construction it has a
value exactly when every access was valid.
-/

namespace Interlink.Foundation

inductive Access where
  /-- `text[start..stop]` -/
  | slice (text : Str) (start stop : Nat)
  /-- `items[index]` -/
  | item (length index : Nat)
  /-- `items[start..stop]` -/
  | range (length start stop : Nat)
  /-- `minuend - subtrahend` -/
  | difference (minuend subtrahend : Nat)
  /-- A sum that is meant to be an offset into a text. -/
  | offset (text : Str) (sum : Nat)
  deriving DecidableEq

def Access.Valid : Access → Prop
  | .slice text start stop =>
      start ≤ stop ∧ stop ≤ byteLen text ∧ isCharBoundary text start = true ∧
        isCharBoundary text stop = true
  | .item length index => index < length
  | .range length start stop => start ≤ stop ∧ stop ≤ length
  | .difference minuend subtrahend => subtrahend ≤ minuend
  | .offset text sum => sum ≤ byteLen text

instance : DecidablePred Access.Valid
  | .slice _ _ _ => inferInstanceAs (Decidable (_ ∧ _))
  | .item _ _ => inferInstanceAs (Decidable (_ < _))
  | .range _ _ _ => inferInstanceAs (Decidable (_ ∧ _))
  | .difference _ _ => inferInstanceAs (Decidable (_ ≤ _))
  | .offset _ _ => inferInstanceAs (Decidable (_ ≤ _))

/-- A computation with the accesses it makes; it has no value once one was refused. -/
structure Checked (α : Type) where
  accesses : List Access
  value : Option α
  isSome_iff : value.isSome = true ↔ ∀ access ∈ accesses, access.Valid

namespace Checked

variable {α β : Type}

protected def pure (a : α) : Checked α := ⟨[], some a, by simp⟩

protected def bind (m : Checked α) (f : α → Checked β) : Checked β where
  accesses := m.accesses ++ m.value.elim [] fun a => (f a).accesses
  value := m.value.bind fun a => (f a).value
  isSome_iff := by
    rw [List.forall_mem_append, ← m.isSome_iff]
    cases m.value with
    | none => simp
    | some a => simpa using (f a).isSome_iff

instance : Monad Checked where
  pure := Checked.pure
  bind := Checked.bind

def perform (access : Access) (result : access.Valid → α) : Checked α where
  accesses := [access]
  value := if h : access.Valid then some (result h) else none
  isSome_iff := by
    by_cases h : access.Valid
    · simp [h]
    · simp [h]

def slice (text : Str) (start stop : Nat) : Checked Str :=
  perform (.slice text start stop) fun h =>
    (slice? text start stop).get (slice?_isSome_iff.mpr h)

def item (items : List α) (index : Nat) : Checked α :=
  perform (.item items.length index) fun h => items.get ⟨index, h⟩

def range (items : List α) (start stop : Nat) : Checked (List α) :=
  perform (.range items.length start stop) fun _ => (items.take stop).drop start

def difference (minuend subtrahend : Nat) : Checked Nat :=
  perform (.difference minuend subtrahend) fun _ => minuend - subtrahend

def offset (text : Str) (sum : Nat) : Checked Nat :=
  perform (.offset text sum) fun _ => sum

/-! ## Values -/

@[simp] theorem value_pure (a : α) : (pure a : Checked α).value = some a := rfl

@[simp] theorem value_bind (m : Checked α) (f : α → Checked β) :
    (m >>= f).value = m.value.bind fun a => (f a).value := rfl

theorem value_perform {access : Access} (h : access.Valid) (result : access.Valid → α) :
    (perform access result).value = some (result h) := by
  simp [perform, h]

@[simp] theorem value_slice (text : Str) (start stop : Nat) :
    (slice text start stop).value = slice? text start stop := by
  by_cases h : (Access.slice text start stop).Valid
  · simp [slice, value_perform h]
  · have hnone : slice? text start stop = none := by
      rw [← Option.not_isSome_iff_eq_none, slice?_isSome_iff]
      exact h
    simp [slice, perform, h, hnone]

-- a cut between the two bytes of a character
example : (slice "é".toList 0 1).value = none := by decide

@[simp] theorem value_item (items : List α) (index : Nat) :
    (item items index).value = items[index]? := by
  by_cases h : (Access.item items.length index).Valid
  · rw [item, value_perform h]
    exact (List.getElem?_eq_getElem h).symm
  · have hnone : items[index]? = none := List.getElem?_eq_none (Nat.not_lt.mp h)
    simp [item, perform, h, hnone]

theorem value_range {items : List α} {start stop : Nat} (hstop : stop ≤ items.length) :
    (range items start stop).value =
      if stop < start then none else some ((items.take stop).drop start) := by
  by_cases hlt : stop < start
  · have hinvalid : ¬ (Access.range items.length start stop).Valid := fun h =>
      Nat.not_lt.mpr h.1 hlt
    rw [if_pos hlt, range, perform]
    exact dif_neg hinvalid
  · have hvalid : (Access.range items.length start stop).Valid := ⟨Nat.not_lt.mp hlt, hstop⟩
    rw [if_neg hlt, range, value_perform hvalid]

theorem value_difference {minuend subtrahend : Nat} (h : subtrahend ≤ minuend) :
    (difference minuend subtrahend).value = some (minuend - subtrahend) := by
  have hvalid : (Access.difference minuend subtrahend).Valid := h
  rw [difference, value_perform hvalid]

theorem value_offset {text : Str} {sum : Nat} (h : sum ≤ byteLen text) :
    (offset text sum).value = some sum := by
  have hvalid : (Access.offset text sum).Valid := h
  rw [offset, value_perform hvalid]

theorem value_foldlM {σ : Type} {turn : σ → α → Checked σ} {f : σ → α → σ} {l : List α}
    (h : ∀ a ∈ l, ∀ s, (turn s a).value = some (f s a)) (s : σ) :
    (l.foldlM turn s).value = some (l.foldl f s) := by
  induction l generalizing s with
  | nil => rfl
  | cons a l ih =>
      rw [List.foldlM_cons, value_bind, h a (by simp) s, Option.bind_some, List.foldl_cons]
      exact ih (fun b hb => h b (by simp [hb])) (f s a)

/-! ## Computations that are never refused -/

/-- The computation makes only valid accesses and ends with the value. -/
structure Completes (m : Checked α) (a : α) : Prop where
  value_eq : m.value = some a
  valid : ∀ access ∈ m.accesses, access.Valid

theorem completes_of_value {m : Checked α} {a : α} (h : m.value = some a) : m.Completes a := by
  refine ⟨h, m.isSome_iff.mp ?_⟩
  simp [h]

end Checked

end Interlink.Foundation
