import Mathlib.Algebra.Order.Ring.Nat

/-!
# Watch channels

A channel holds the last value that was sent and counts the sends.  A receiver
remembers how many of them it has seen, so it can wait for one that is new to it.  To
wait for a value with a property it tests the last value and then waits for a change,
and the two are steps of their own: a value sent between them must not be missed.
-/

namespace Interlink.Foundation

universe u

structure Watch (α : Type u) where
  value : α
  version : Nat
  closed : Bool

namespace Watch

variable {α : Type u}

def channel (value : α) : Watch α :=
  ⟨value, 0, false⟩

def send (watch : Watch α) (value : α) : Watch α :=
  { watch with value := value, version := watch.version + 1 }

structure Receiver where
  seen : Nat
  deriving DecidableEq, Repr

def subscribe (watch : Watch α) : Receiver :=
  ⟨watch.version⟩

inductive Changed where
  | pending
  | changed (rx : Receiver)
  | closed
  deriving DecidableEq, Repr

/-- A value that was not seen comes before the news that the sender is gone. -/
def Receiver.changed (rx : Receiver) (watch : Watch α) : Changed :=
  if rx.seen ≠ watch.version then .changed ⟨watch.version⟩
  else if watch.closed then .closed
  else .pending

/-! ## Waiting for a property -/

inductive Wait where
  | testing (rx : Receiver)
  | awaiting (rx : Receiver)
  | done
  deriving DecidableEq, Repr

namespace Wait

variable {p : α → Bool} {watch : Watch α} {wait next : Wait}

def step (p : α → Bool) (watch : Watch α) : Wait → Option Wait
  | .testing rx => some (if p watch.value then .done else .awaiting rx)
  | .awaiting rx =>
      match rx.changed watch with
      | .pending => none
      | .changed rx => some (.testing rx)
      | .closed => some .done
  | .done => none

/--
A receiver that has seen the last version and waits for the next has tested the last
value in vain.
-/
def Alert (p : α → Bool) (watch : Watch α) : Wait → Prop
  | .testing rx => rx.seen ≤ watch.version
  | .awaiting rx =>
      rx.seen ≤ watch.version ∧ (rx.seen = watch.version → p watch.value = false)
  | .done => True

inductive Change (p : α → Bool) (watch : Watch α) : Wait → Wait → Prop
  | found {rx : Receiver} (hp : p watch.value = true) : Change p watch (.testing rx) .done
  | missed {rx : Receiver} (hp : p watch.value = false) :
      Change p watch (.testing rx) (.awaiting rx)
  | woken {rx : Receiver} (hseen : rx.seen ≠ watch.version) :
      Change p watch (.awaiting rx) (.testing ⟨watch.version⟩)
  | dropped {rx : Receiver} (hclosed : watch.closed = true) : Change p watch (.awaiting rx) .done

theorem step_change (h : step p watch wait = some next) : Change p watch wait next := by
  cases wait with
  | testing rx =>
      cases hp : p watch.value with
      | true =>
          simp only [step, hp, if_true, Option.some.injEq] at h
          subst h
          exact .found hp
      | false =>
          simp only [step, hp, Bool.false_eq_true, if_false, Option.some.injEq] at h
          subst h
          exact .missed hp
  | awaiting rx =>
      by_cases hseen : rx.seen = watch.version
      · cases hclosed : watch.closed with
        | true =>
            simp only [step, Receiver.changed, hseen, hclosed, ne_eq, not_true_eq_false, if_false,
              if_true, Option.some.injEq] at h
            subst h
            exact .dropped hclosed
        | false => simp [step, Receiver.changed, hseen, hclosed] at h
      · simp only [step, Receiver.changed, ne_eq, hseen, not_false_eq_true, if_true,
          Option.some.injEq] at h
        subst h
        exact .woken hseen
  | done => cases h

theorem Alert.step (h : wait.Alert p watch) (hstep : wait.step p watch = some next) :
    next.Alert p watch := by
  cases step_change hstep with
  | found => trivial
  | missed hp => exact ⟨h, fun _ => hp⟩
  | woken => exact Nat.le_refl _
  | dropped => trivial

/-- A value that is sent between the test and the wait is new to the receiver. -/
theorem Alert.send (h : wait.Alert p watch) (value : α) : wait.Alert p (watch.send value) := by
  cases wait with
  | testing rx => exact Nat.le_succ_of_le h
  | awaiting rx =>
      have hlt : rx.seen < watch.version + 1 := Nat.lt_succ_of_le h.1
      exact ⟨hlt.le, fun heq => absurd heq hlt.ne⟩
  | done => trivial

theorem Alert.exists_step (h : wait.Alert p watch) (hp : p watch.value = true)
    (hdone : wait ≠ .done) : ∃ next, wait.step p watch = some next := by
  cases wait with
  | testing rx => exact ⟨_, rfl⟩
  | awaiting rx =>
      have hseen : rx.seen ≠ watch.version := by
        intro heq
        have hfalse := h.2 heq
        rw [hp] at hfalse
        cases hfalse
      refine ⟨.testing ⟨watch.version⟩, ?_⟩
      simp [Wait.step, Receiver.changed, hseen]
  | done => exact absurd rfl hdone

theorem value_of_step_done (h : step p watch wait = some .done) :
    p watch.value = true ∨ watch.closed = true := by
  cases step_change h with
  | found hp => exact .inl hp
  | dropped hclosed => exact .inr hclosed

def work (watch : Watch α) : Wait → Nat
  | .testing rx => 2 * (watch.version - rx.seen) + 2
  | .awaiting rx => 2 * (watch.version - rx.seen) + 1
  | .done => 0

theorem Alert.work_lt (h : wait.Alert p watch) (hstep : wait.step p watch = some next) :
    next.work watch < wait.work watch := by
  cases step_change hstep with
  | found => exact Nat.succ_pos _
  | missed => exact Nat.lt_succ_self _
  | @woken rx hseen =>
      have hlt : rx.seen < watch.version := Nat.lt_of_le_of_ne h.1 hseen
      simp only [work]
      omega
  | dropped => exact Nat.succ_pos _

end Wait

end Watch

end Interlink.Foundation
