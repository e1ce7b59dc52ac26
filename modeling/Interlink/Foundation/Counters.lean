import Interlink.Foundation.Tasks
import Mathlib.Logic.Function.Basic

/-!
# Shared counters

Counters of a fixed size, one for each key, that wrap around.  A task adds one to a
counter when it takes a unit of the key and subtracts one when it gives the unit back.
-/

namespace Interlink.Foundation

universe u v

variable {α : Type u} {κ : Type v} [DecidableEq κ]

/-- Every counter shows how many tasks hold a unit of its key. -/
def Counts (size : Nat) (key : α → Option κ) (tasks : List α) (live : κ → Nat) : Prop :=
  ∀ k, live k = (tasks.countP fun task => key task = some k) % size

namespace Counts

variable {size : Nat} {key : α → Option κ} {tasks : List α} {live : κ → Nat} {i : Nat} {a b : α}
  {k : κ}

theorem nil : Counts size key [] fun _ => 0 := by
  intro k
  simp

theorem keep (h : Counts size key tasks live) (hi : tasks[i]? = some a) (hkey : key b = key a) :
    Counts size key (tasks.set i b) live := by
  intro k
  rw [Tasks.countP_set_of_eq hi (by rw [hkey])]
  exact h k

theorem of_map_eq {tasks' : List α} (h : Counts size key tasks live)
    (hmap : tasks'.map key = tasks.map key) : Counts size key tasks' live := by
  intro k
  have hcount := congrArg (List.countP fun held => held = some k) hmap
  rw [List.countP_map, List.countP_map] at hcount
  exact (h k).trans (congrArg (· % size) hcount.symm)

theorem take (h : Counts size key tasks live) (hi : tasks[i]? = some a) (ha : key a = none)
    (hb : key b = some k) :
    Counts size key (tasks.set i b) (Function.update live k ((live k + 1) % size)) := by
  intro l
  rw [Function.update_apply]
  split
  next heq =>
    subst heq
    rw [Tasks.countP_set_of_enter hi (by simp [ha]) (by simp [hb]), h l, Nat.mod_add_mod]
  next hne =>
    rw [Tasks.countP_set_of_eq hi, h l]
    simp [ha, hb, Ne.symm hne]

theorem take_append (h : Counts size key tasks live) (hb : key b = some k) :
    Counts size key (tasks ++ [b]) (Function.update live k ((live k + 1) % size)) := by
  intro l
  rw [Function.update_apply, List.countP_append, List.countP_singleton]
  split
  next heq =>
    subst heq
    simp [hb, h l]
  next hne => simp [hb, h l, Ne.symm hne]

theorem give (hsize : 0 < size) (h : Counts size key tasks live) (hi : tasks[i]? = some a)
    (ha : key a = some k) (hb : key b = none) :
    Counts size key (tasks.set i b) (Function.update live k ((live k + (size - 1)) % size)) := by
  intro l
  rw [Function.update_apply]
  split
  next heq =>
    subst heq
    have hcount : (tasks.set i b).countP (fun task => key task = some l) + 1 =
        tasks.countP fun task => key task = some l :=
      Tasks.countP_set_of_leave hi (by simp [ha]) (by simp [hb])
    rw [h l, ← hcount, Nat.mod_add_mod, Nat.add_assoc, Nat.add_sub_cancel' hsize,
      Nat.add_mod_right]
  next hne =>
    rw [Tasks.countP_set_of_eq hi, h l]
    simp [ha, hb, Ne.symm hne]

theorem reset (h : Counts size key tasks live) (hunused : ∀ task ∈ tasks, key task ≠ some k) :
    Counts size key tasks (Function.update live k 0) := by
  intro l
  rw [Function.update_apply]
  split
  next heq =>
    subst heq
    have hnone : (tasks.countP fun task => key task = some l) = 0 :=
      List.countP_eq_zero.mpr fun task hmem => by simpa using hunused task hmem
    rw [hnone, Nat.zero_mod]
  next => exact h l

theorem eq_of_lt (h : Counts size key tasks live)
    (hlt : (tasks.countP fun task => key task = some k) < size) :
    live k = tasks.countP fun task => key task = some k := by
  rw [h k, Nat.mod_eq_of_lt hlt]

theorem pos_of_lt (h : Counts size key tasks live) (hi : tasks[i]? = some a)
    (ha : key a = some k) (hlt : (tasks.countP fun task => key task = some k) < size) :
    0 < live k := by
  rw [h.eq_of_lt hlt]
  exact Tasks.countP_pos hi (decide_eq_true ha)

end Counts

end Interlink.Foundation
