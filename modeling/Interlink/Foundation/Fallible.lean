import Mathlib.Data.List.Basic

/-!
# Fallible computations

How a successful `Except` computation splits at its binds.
-/

namespace Interlink.Foundation

universe u v

variable {ε : Type u} {ε' : Type u} {α β : Type v} {x : Except ε α}

theorem bind_eq_ok {f : α → Except ε β} {b : β} :
    (x >>= f) = .ok b ↔ ∃ a, x = .ok a ∧ f a = .ok b := by
  cases x with
  | error e => simp [bind, Except.bind]
  | ok a => simp [bind, Except.bind]

@[simp]
theorem mapError_eq_ok {f : ε → ε'} {a : α} : x.mapError f = .ok a ↔ x = .ok a := by
  cases x with
  | error e => simp [Except.mapError]
  | ok a => simp [Except.mapError]

theorem toOption_eq_some {a : α} : x.toOption = some a ↔ x = .ok a := by
  cases x with
  | error e => simp [Except.toOption]
  | ok a => simp [Except.toOption]

theorem isOk_iff : x.isOk = true ↔ ∃ a, x = .ok a := by
  cases x with
  | error e => simp [Except.isOk, Except.toBool]
  | ok a => simp [Except.isOk, Except.toBool]

end Interlink.Foundation
