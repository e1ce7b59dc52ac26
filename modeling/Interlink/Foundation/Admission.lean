import Interlink.Foundation.Tasks

/-!
# Admission

A gate lets in a bounded number of tasks.  A task takes a permit when it is admitted,
adds itself to a counter, subtracts itself at the end and gives the permit back last.
Each of these is a step of its own, so the two accounts agree only up to the tasks
between two of their steps.
-/

namespace Interlink.Foundation

inductive Phase where
  | admitted
  | running
  | uncounted
  | finished
  deriving DecidableEq, Repr

/-- The permits that are left, the counter and the tasks ever admitted. -/
structure Gate where
  permits : Nat
  active : Nat
  tasks : List Phase

namespace Gate

def held (gate : Gate) : Nat :=
  gate.tasks.countP (· ≠ .finished)

def handlers (gate : Gate) : Nat :=
  gate.tasks.countP fun task => task = .running || task = .uncounted

/-- The steps of a gate whose counter wraps around at `size`. -/
inductive Move (size : Nat) (gate : Gate) : Gate → Prop
  | stay : Move size gate gate
  | acquire (hpermit : 0 < gate.permits) :
      Move size gate ⟨gate.permits - 1, gate.active, gate.tasks ++ [.admitted]⟩
  | count {i : Nat} (hi : gate.tasks[i]? = some .admitted) :
      Move size gate ⟨gate.permits, (gate.active + 1) % size, gate.tasks.set i .running⟩
  | uncount {i : Nat} (hi : gate.tasks[i]? = some .running) :
      Move size gate
        ⟨gate.permits, (gate.active + (size - 1)) % size, gate.tasks.set i .uncounted⟩
  | release {i : Nat} (hi : gate.tasks[i]? = some .uncounted) :
      Move size gate ⟨gate.permits + 1, gate.active, gate.tasks.set i .finished⟩

structure Balanced (size limit : Nat) (gate : Gate) : Prop where
  permits : gate.permits + gate.held = limit
  active : gate.active = gate.tasks.countP (· = .running) % size

variable {size limit : Nat} {gate next : Gate} {task : Phase}

theorem Balanced.empty (size limit : Nat) : Balanced size limit ⟨limit, 0, []⟩ :=
  ⟨rfl, (Nat.zero_mod size).symm⟩

/-! ## Steps -/

theorem Move.permits_add_held (h : Move size gate next) :
    next.permits + next.held = gate.permits + gate.held := by
  unfold held
  cases h with
  | stay => rfl
  | acquire hpermit =>
      rw [List.countP_append, List.countP_singleton]
      simp only [ne_eq, reduceCtorEq, not_false_eq_true, decide_true, if_true]
      omega
  | count hi => rw [Tasks.countP_set_of_eq hi (by decide)]
  | uncount hi => rw [Tasks.countP_set_of_eq hi (by decide)]
  | release hi =>
      have hset : (gate.tasks.set _ .finished).countP (· ≠ .finished) + 1 =
          gate.tasks.countP (· ≠ .finished) :=
        Tasks.countP_set_of_leave hi (by decide) (by decide)
      dsimp only
      omega

theorem Move.active_eq (hsize : 0 < size) (h : Move size gate next)
    (hactive : gate.active = gate.tasks.countP (· = .running) % size) :
    next.active = next.tasks.countP (· = .running) % size := by
  cases h with
  | stay => exact hactive
  | acquire hpermit => simpa using hactive
  | count hi =>
      simp only
      rw [Tasks.countP_set_of_enter hi (by decide) (by decide), hactive, Nat.mod_add_mod]
  | uncount hi =>
      have hset : (gate.tasks.set _ .uncounted).countP (· = .running) + 1 =
          gate.tasks.countP (· = .running) :=
        Tasks.countP_set_of_leave hi (by decide) (by decide)
      simp only
      rw [hactive, ← hset, Nat.mod_add_mod, Nat.add_assoc, Nat.add_sub_cancel' hsize,
        Nat.add_mod_right]
  | release hi =>
      simp only
      rw [Tasks.countP_set_of_eq hi (by decide)]
      exact hactive

theorem Move.not_admitted (h : Move size gate next)
    (hlength : next.tasks.length = gate.tasks.length)
    (hnone : ∀ task ∈ gate.tasks, task ≠ .admitted) :
    ∀ task ∈ next.tasks, task ≠ .admitted := by
  cases h with
  | stay => exact hnone
  | acquire => simp at hlength
  | count hi => exact absurd rfl (hnone _ (List.mem_of_getElem? hi))
  | uncount => exact Tasks.forall_mem_set hnone (by decide)
  | release => exact Tasks.forall_mem_set hnone (by decide)

theorem Move.not_running (h : Move size gate next)
    (hadmitted : ∀ task ∈ gate.tasks, task ≠ .admitted)
    (hnone : ∀ task ∈ gate.tasks, task ≠ .running) :
    ∀ task ∈ next.tasks, task ≠ .running := by
  cases h with
  | stay => exact hnone
  | acquire => exact Tasks.forall_mem_append hnone (by decide)
  | count hi => exact absurd rfl (hadmitted _ (List.mem_of_getElem? hi))
  | uncount => exact Tasks.forall_mem_set hnone (by decide)
  | release => exact Tasks.forall_mem_set hnone (by decide)

theorem Balanced.move (hsize : 0 < size) (h : Balanced size limit gate)
    (hmove : Move size gate next) : Balanced size limit next :=
  ⟨hmove.permits_add_held.trans h.permits, hmove.active_eq hsize h.active⟩

/-! ## Tasks that are more than their phase -/

section Tasks

variable {α : Type*} {phase : α → Phase} {permits active : Nat} {tasks : List α} {i : Nat}
  {a b : α}

def ofTasks (phase : α → Phase) (permits active : Nat) (tasks : List α) : Gate :=
  ⟨permits, active, tasks.map phase⟩

private theorem phase_eq (hi : tasks[i]? = some a) (ha : phase a = task) :
    (tasks.map phase)[i]? = some task := by
  rw [List.getElem?_map, hi, ← ha]
  rfl

theorem Move.keep (hi : tasks[i]? = some a) (hab : phase b = phase a) :
    Move size (ofTasks phase permits active tasks)
      (ofTasks phase permits active (tasks.set i b)) := by
  obtain ⟨hlt, rfl⟩ := List.getElem?_eq_some_iff.mp hi
  rw [ofTasks, ofTasks, List.map_set, hab, ← List.map_set, List.set_getElem_self]
  exact .stay

theorem Move.acquireTask (hpermit : 0 < permits) (hb : phase b = .admitted) :
    Move size (ofTasks phase permits active tasks)
      (ofTasks phase (permits - 1) active (tasks ++ [b])) := by
  rw [ofTasks, ofTasks, List.map_append, List.map_singleton, hb]
  exact .acquire hpermit

theorem Move.countTask (hi : tasks[i]? = some a) (ha : phase a = .admitted)
    (hb : phase b = .running) :
    Move size (ofTasks phase permits active tasks)
      (ofTasks phase permits ((active + 1) % size) (tasks.set i b)) := by
  rw [ofTasks, ofTasks, List.map_set, hb]
  exact .count (phase_eq hi ha)

theorem Move.uncountTask (hi : tasks[i]? = some a) (ha : phase a = .running)
    (hb : phase b = .uncounted) :
    Move size (ofTasks phase permits active tasks)
      (ofTasks phase permits ((active + (size - 1)) % size) (tasks.set i b)) := by
  rw [ofTasks, ofTasks, List.map_set, hb]
  exact .uncount (phase_eq hi ha)

theorem Move.releaseTask (hi : tasks[i]? = some a) (ha : phase a = .uncounted)
    (hb : phase b = .finished) :
    Move size (ofTasks phase permits active tasks)
      (ofTasks phase (permits + 1) active (tasks.set i b)) := by
  rw [ofTasks, ofTasks, List.map_set, hb]
  exact .release (phase_eq hi ha)

end Tasks

/-! ## What balance means -/

theorem Balanced.handlers_le (h : Balanced size limit gate) : gate.handlers ≤ limit := by
  have hheld : gate.handlers ≤ gate.held :=
    List.countP_mono_left fun task _ htask => by cases task <;> simp_all
  have hpermits := h.permits
  omega

theorem Balanced.active_le (h : Balanced size limit gate) : gate.active ≤ gate.held := by
  rw [h.active]
  refine (Nat.mod_le _ _).trans (List.countP_mono_left fun task _ htask => ?_)
  cases task <;> simp_all

theorem Balanced.active_eq_zero_iff (h : Balanced size limit gate) (hlimit : limit < size) :
    gate.active = 0 ↔ ∀ task ∈ gate.tasks, task ≠ .running := by
  have hrunning : gate.tasks.countP (· = .running) ≤ gate.held :=
    List.countP_mono_left fun task _ htask => by cases task <;> simp_all
  have hpermits := h.permits
  rw [h.active, Nat.mod_eq_of_lt (by omega), List.countP_eq_zero]
  simp

theorem Balanced.drained (h : Balanced size limit gate)
    (hfinished : ∀ task ∈ gate.tasks, task = .finished) :
    gate.active = 0 ∧ gate.permits = limit := by
  have hheld : gate.held = 0 :=
    List.countP_eq_zero.mpr fun task hmem => by simp [hfinished task hmem]
  have hactive := h.active_le
  have hpermits := h.permits
  omega

end Gate

end Interlink.Foundation
