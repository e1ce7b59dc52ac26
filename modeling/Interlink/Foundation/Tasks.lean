import Mathlib.Data.List.Basic
import Mathlib.Data.List.Count
import Mathlib.Algebra.Order.BigOperators.Group.List
import Mathlib.Algebra.Order.Ring.Nat
import Mathlib.Algebra.Group.Action.Defs

/-!
# Tables of tasks

Concurrent tasks are kept in a list and named by their position; a finished task
stays in its place.  A resource is accounted for by counting the tasks that hold
it, so the lemmas here say how such a count follows the update of one task.
-/

namespace Interlink.Foundation.Tasks

universe u

variable {α : Type u} {tasks : List α} {i j : Nat} {a b : α} {p q : α → Bool}

theorem countP_set (h : tasks[i]? = some a) (b : α) (p : α → Bool) :
    (tasks.set i b).countP p + (p a).toNat = tasks.countP p + (p b).toNat := by
  obtain ⟨hi, rfl⟩ := List.getElem?_eq_some_iff.mp h
  rw [List.countP_set hi]
  cases ha : p tasks[i] with
  | false => cases p b <;> simp
  | true =>
      have hpos : 0 < tasks.countP p :=
        List.countP_pos_iff.mpr ⟨_, List.getElem_mem hi, ha⟩
      cases p b <;> simp <;> omega

theorem countP_set_of_eq (h : tasks[i]? = some a) (hp : p b = p a) :
    (tasks.set i b).countP p = tasks.countP p := by
  have := countP_set h b p
  rw [hp] at this
  omega

theorem countP_set_of_enter (h : tasks[i]? = some a) (ha : p a = false) (hb : p b = true) :
    (tasks.set i b).countP p = tasks.countP p + 1 := by
  have := countP_set h b p
  simpa [ha, hb] using this

theorem countP_set_of_leave (h : tasks[i]? = some a) (ha : p a = true) (hb : p b = false) :
    (tasks.set i b).countP p + 1 = tasks.countP p := by
  have := countP_set h b p
  simpa [ha, hb] using this

theorem countP_pos (h : tasks[i]? = some a) (ha : p a = true) : 0 < tasks.countP p :=
  List.countP_pos_iff.mpr ⟨a, List.mem_of_getElem? h, ha⟩

theorem eq_of_countP_le_one (h : tasks.countP p ≤ 1) (hi : tasks[i]? = some a)
    (hj : tasks[j]? = some b) (ha : p a = true) (hb : p b = true) : i = j := by
  induction tasks generalizing i j with
  | nil => simp at hi
  | cons t ts ih =>
      cases i with
      | zero =>
          cases j with
          | zero => rfl
          | succ j =>
              obtain rfl : t = a := by simpa using hi
              have := countP_pos (p := p) (by simpa using hj) hb
              simp only [List.countP_cons, ha, if_true] at h
              omega
      | succ i =>
          cases j with
          | zero =>
              obtain rfl : t = b := by simpa using hj
              have := countP_pos (p := p) (by simpa using hi) ha
              simp only [List.countP_cons, hb, if_true] at h
              omega
          | succ j =>
              have hts : ts.countP p ≤ 1 := by
                rw [List.countP_cons] at h
                omega
              exact congrArg Nat.succ (ih hts (by simpa using hi) (by simpa using hj))

theorem countP_le_one
    (h : ∀ (i j : Nat) (a b : α), tasks[i]? = some a → tasks[j]? = some b →
      p a = true → p b = true → i = j) : tasks.countP p ≤ 1 := by
  induction tasks with
  | nil => exact Nat.zero_le 1
  | cons t ts ih =>
      rw [List.countP_cons]
      split
      next ht =>
        have hnone : ts.countP p = 0 := by
          refine List.countP_eq_zero.mpr fun a ha hp => ?_
          obtain ⟨k, hk⟩ := List.getElem?_of_mem ha
          have := h 0 (k + 1) t a rfl hk ht hp
          omega
        omega
      next =>
        refine ih fun i j a b hi hj ha hb => ?_
        have := h (i + 1) (j + 1) a b hi hj ha hb
        omega

theorem countP_lt_countP (h : tasks[i]? = some a) (hpq : ∀ t ∈ tasks, p t = true → q t = true)
    (hp : p a = false) (hq : q a = true) : tasks.countP p < tasks.countP q := by
  obtain ⟨left, right, rfl⟩ := List.append_of_mem (List.mem_of_getElem? h)
  have hleft : left.countP p ≤ left.countP q :=
    List.countP_mono_left fun t ht => hpq t (by simp [ht])
  have hright : right.countP p ≤ right.countP q :=
    List.countP_mono_left fun t ht => hpq t (by simp [ht])
  simp only [List.countP_append, List.countP_cons, hp, hq, if_true, Bool.false_eq_true, if_false]
  omega

theorem countP_add_countP_le {r : α → Bool}
    (h : ∀ t ∈ tasks, (p t).toNat + (q t).toNat ≤ (r t).toNat) :
    tasks.countP p + tasks.countP q ≤ tasks.countP r := by
  induction tasks with
  | nil => exact Nat.le_refl 0
  | cons t ts ih =>
      have hhead := h t (by simp)
      have htail := ih fun u hu => h u (by simp [hu])
      have hite : ∀ b : Bool, (if b = true then 1 else 0) = b.toNat := by decide
      simp only [List.countP_cons, hite]
      omega

theorem getElem?_set_of (h : tasks[i]? = some a) (b : α) : (tasks.set i b)[i]? = some b :=
  List.getElem?_set_self (List.getElem?_eq_some_iff.mp h).1

theorem mem_set_of (h : tasks[i]? = some a) (b : α) : b ∈ tasks.set i b :=
  List.mem_of_getElem? (getElem?_set_of h b)

theorem getElem?_append_of (h : tasks[i]? = some a) (more : List α) :
    (tasks ++ more)[i]? = some a :=
  (List.getElem?_append_left (List.getElem?_eq_some_iff.mp h).1).trans h

theorem getElem?_set_cases (h : (tasks.set i b)[j]? = some a) :
    (j = i ∧ b = a) ∨ (j ≠ i ∧ tasks[j]? = some a) := by
  rw [List.getElem?_set] at h
  split at h
  next hij =>
    split at h
    · exact .inl ⟨hij.symm, Option.some.inj h⟩
    · cases h
  next hij => exact .inr ⟨Ne.symm hij, h⟩

theorem getElem?_of_set (h : (tasks.set i b)[j]? = some a) (hne : b ≠ a) :
    tasks[j]? = some a := by
  rcases getElem?_set_cases h with ⟨-, heq⟩ | ⟨-, hold⟩
  · exact absurd heq hne
  · exact hold

theorem getElem?_set_of_ne (hi : tasks[i]? = some b) (hj : tasks[j]? = some a) (hne : b ≠ a)
    (c : α) : (tasks.set i c)[j]? = some a := by
  have hij : i ≠ j := by
    rintro rfl
    exact hne (Option.some.inj (hi.symm.trans hj))
  exact (List.getElem?_set_ne hij).trans hj

theorem getElem?_append_cases (h : (tasks ++ [b])[j]? = some a) :
    (j = tasks.length ∧ b = a) ∨ tasks[j]? = some a := by
  rcases Nat.lt_or_ge j tasks.length with hj | hj
  · exact .inr (by rwa [List.getElem?_append_left hj] at h)
  · rw [List.getElem?_append_right hj, List.getElem?_singleton] at h
    split at h
    · exact .inl ⟨by omega, Option.some.inj h⟩
    · cases h

instance decidableForall {P : Nat → α → Prop} [∀ i a, Decidable (P i a)] :
    Decidable (∀ i a, tasks[i]? = some a → P i a) :=
  decidable_of_iff (∀ task ∈ tasks.zipIdx, P task.2 task.1) <| by
    constructor
    · intro h i a ha
      exact h (a, i) (List.mk_mem_zipIdx_iff_getElem?.mpr ha)
    · intro h task hmem
      exact h task.2 task.1 (List.mk_mem_zipIdx_iff_getElem?.mp hmem)

theorem forall_mem_set {P : α → Prop} (h : ∀ t ∈ tasks, P t) (hb : P b) :
    ∀ t ∈ tasks.set i b, P t := by
  intro t ht
  rcases List.mem_or_eq_of_mem_set ht with ht | rfl
  · exact h t ht
  · exact hb

theorem forall_mem_append {P : α → Prop} (h : ∀ t ∈ tasks, P t) (hb : P b) :
    ∀ t ∈ tasks ++ [b], P t := by
  simpa [or_imp, forall_and] using ⟨h, hb⟩

/-! ## Tasks that hold one of several resources -/

section Keys

variable {κ : Type*} [DecidableEq κ] {key : α → Option κ} {keys : List κ}

private theorem sum_countP_cons (t : α) (tasks : List α) (keys : List κ) :
    (keys.map fun k => (t :: tasks).countP fun u => key u = some k).sum =
      (keys.map fun k => tasks.countP fun u => key u = some k).sum +
        keys.countP fun k => key t = some k := by
  induction keys with
  | nil => rfl
  | cons k keys ih =>
      rw [List.map_cons, List.sum_cons, ih, List.map_cons, List.sum_cons, List.countP_cons,
        List.countP_cons]
      omega

private theorem countP_key_le (hkeys : keys.Nodup) (t : α) :
    (keys.countP fun k => key t = some k) ≤ if (key t).isSome then 1 else 0 := by
  cases hkey : key t with
  | none => simp
  | some held =>
      have hcount := List.nodup_iff_count.mp hkeys held
      rw [List.count_eq_countP] at hcount
      calc (keys.countP fun k => some held = some k)
          = keys.countP (· == held) := by
            refine List.countP_congr fun k _ => ?_
            simp only [Option.some.injEq, decide_eq_true_eq, beq_iff_eq]
            exact eq_comm
        _ ≤ _ := by simpa using hcount

theorem sum_countP_le (hkeys : keys.Nodup) (tasks : List α) :
    (keys.map fun k => tasks.countP fun t => key t = some k).sum ≤
      tasks.countP fun t => (key t).isSome := by
  induction tasks with
  | nil => simp
  | cons t tasks ih =>
      have hone : (keys.countP fun k => key t = some k) ≤ if (key t).isSome then 1 else 0 :=
        countP_key_le hkeys t
      rw [sum_countP_cons, List.countP_cons]
      omega

theorem length_le_sum_countP (htasks : ∀ t ∈ tasks, ∃ k ∈ keys, key t = some k) :
    tasks.length ≤ (keys.map fun k => tasks.countP fun t => key t = some k).sum := by
  induction tasks with
  | nil => exact Nat.zero_le _
  | cons t tasks ih =>
      obtain ⟨k, hk, hkey⟩ := htasks t (by simp)
      have hpos : 0 < keys.countP fun k => key t = some k :=
        List.countP_pos_iff.mpr ⟨k, hk, decide_eq_true hkey⟩
      have hrest := ih fun u hu => htasks u (by simp [hu])
      rw [sum_countP_cons, List.length_cons]
      omega

/-- The resource held least is held by an even share of the holders at most. -/
theorem length_mul_le_countP (hkeys : keys.Nodup) {n : Nat}
    (hleast : ∀ k ∈ keys, n ≤ tasks.countP fun t => key t = some k) :
    keys.length * n ≤ tasks.countP fun t => (key t).isSome := by
  have hsum := List.card_nsmul_le_sum (keys.map fun k => tasks.countP fun t => key t = some k) n
    (by simpa using hleast)
  rw [List.length_map, smul_eq_mul] at hsum
  exact hsum.trans (sum_countP_le hkeys tasks)

/-- Some resource is held by more than an even share of the tasks. -/
theorem exists_lt_countP (htasks : ∀ t ∈ tasks, ∃ k ∈ keys, key t = some k) {n : Nat}
    (hmany : keys.length * n < tasks.length) :
    ∃ k ∈ keys, n < tasks.countP fun t => key t = some k := by
  by_contra hnone
  have hsum := List.sum_le_card_nsmul (keys.map fun k => tasks.countP fun t => key t = some k) n
    (by simpa using hnone)
  rw [List.length_map, smul_eq_mul] at hsum
  have := length_le_sum_countP htasks
  omega

end Keys

end Interlink.Foundation.Tasks
