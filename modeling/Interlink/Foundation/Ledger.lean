import Interlink.Foundation.Tasks

/-!
# Ledgers of started and finished tasks

A task is pending, then active, then ended.  It is entered in a ledger when it
starts and once more, with the kind of its end, when it finishes.  A ledger that
every task keeps tells how many tasks are active and how many have ended.
-/

namespace Interlink.Foundation.Ledger

universe u v

inductive Stage where
  | pending
  | active
  | ended
  deriving DecidableEq

inductive Entry (κ : Type u) where
  | start
  | finish (kind : κ)
  deriving DecidableEq

variable {α : Type u} {κ : Type v} {stage : α → Stage} {tasks : List α} {i : Nat} {a b : α}
  {entries new now : List (Entry κ)} {active ended active' ended' : Nat}

def Entry.isStart : Entry κ → Bool
  | .start => true
  | .finish _ => false

def Entry.isFinish : Entry κ → Bool
  | .start => false
  | .finish _ => true

def count (stage : α → Stage) (which : Stage) (tasks : List α) : Nat :=
  tasks.countP fun task => stage task = which

/-- The stages of a task before and after a step, and what the step enters. -/
inductive Passage : Stage → Stage → List (Entry κ) → Prop
  | stay (stage : Stage) : Passage stage stage []
  | start : Passage .pending .active [.start]
  | finish (kind : κ) : Passage .active .ended [.finish kind]

inductive Turn : Nat → Nat → Nat → Nat → List (Entry κ) → Prop
  | stay (active ended : Nat) : Turn active ended active ended []
  | start (active ended : Nat) : Turn active ended (active + 1) ended [.start]
  | finish (active ended : Nat) (kind : κ) :
      Turn (active + 1) ended active (ended + 1) [.finish kind]

namespace Turn

theorem set {before after : Stage} (h : Passage before after new) (hi : tasks[i]? = some a)
    (ha : stage a = before) (hb : stage b = after) :
    Turn (count stage .active tasks) (count stage .ended tasks)
      (count stage .active (tasks.set i b)) (count stage .ended (tasks.set i b)) new := by
  cases h with
  | stay =>
      have hactive : count stage .active (tasks.set i b) = count stage .active tasks :=
        Tasks.countP_set_of_eq hi (by rw [ha, hb])
      have hended : count stage .ended (tasks.set i b) = count stage .ended tasks :=
        Tasks.countP_set_of_eq hi (by rw [ha, hb])
      rw [hactive, hended]
      exact .stay _ _
  | start =>
      have hactive : count stage .active (tasks.set i b) = count stage .active tasks + 1 :=
        Tasks.countP_set_of_enter hi (by simp [ha]) (by simp [hb])
      have hended : count stage .ended (tasks.set i b) = count stage .ended tasks :=
        Tasks.countP_set_of_eq hi (by simp [ha, hb])
      rw [hactive, hended]
      exact .start _ _
  | finish kind =>
      have hactive : count stage .active (tasks.set i b) + 1 = count stage .active tasks :=
        Tasks.countP_set_of_leave hi (by simp [ha]) (by simp [hb])
      have hended : count stage .ended (tasks.set i b) = count stage .ended tasks + 1 :=
        Tasks.countP_set_of_enter hi (by simp [ha]) (by simp [hb])
      rw [← hactive, hended]
      exact .finish _ _ kind

theorem add_left (h : Turn active ended active' ended' new) (m n : Nat) :
    Turn (m + active) (n + ended) (m + active') (n + ended') new := by
  cases h with
  | stay => exact .stay _ _
  | start => exact .start _ _
  | finish _ _ kind => exact .finish _ _ kind

theorem add_right (h : Turn active ended active' ended' new) (m n : Nat) :
    Turn (active + m) (ended + n) (active' + m) (ended' + n) new := by
  rw [Nat.add_comm active, Nat.add_comm ended, Nat.add_comm active', Nat.add_comm ended']
  exact h.add_left m n

theorem eq_nil_or_eq (h : Turn active ended active' ended' new) (hpart : now <+: new) :
    now = [] ∨ now = new := by
  cases h with
  | stay => exact .inl (List.prefix_nil.mp hpart)
  | start | finish =>
      rw [List.prefix_cons_iff] at hpart
      rcases hpart with rfl | ⟨rest, rfl, hrest⟩
      · exact .inl rfl
      · rw [List.prefix_nil.mp hrest]
        exact .inr rfl

end Turn

theorem count_append_pending (hb : stage b = .pending) {which : Stage}
    (hwhich : which ≠ .pending) : count stage which (tasks ++ [b]) = count stage which tasks := by
  simp [count, List.countP_append, hb, Ne.symm hwhich]

/--
As many tasks are active as the ledger has started and not finished, and as many have
ended as it has finished.
-/
structure Balanced (entries : List (Entry κ)) (active ended : Nat) : Prop where
  active : active + entries.countP Entry.isFinish = entries.countP Entry.isStart
  ended : ended = entries.countP Entry.isFinish

namespace Balanced

theorem nil : Balanced ([] : List (Entry κ)) 0 0 :=
  ⟨rfl, rfl⟩

theorem turn (h : Balanced entries active ended) (hturn : Turn active ended active' ended' new) :
    Balanced (entries ++ new) active' ended' := by
  have hactive := h.active
  have hended := h.ended
  constructor <;> rw [List.countP_append] <;>
    cases hturn <;> simp [List.countP_append, Entry.isStart, Entry.isFinish] <;> omega

end Balanced

end Interlink.Foundation.Ledger
