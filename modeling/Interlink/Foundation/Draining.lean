import Interlink.Foundation.Tasks
import Interlink.Foundation.Transition

/-!
# Draining

Tasks that come and go in a table each have a bounded amount of work.  A step either
advances one task, or lets a new task in, or leaves the table as it is.  So the steps of
a task are paid from its budget, whatever is interleaved with them, and a run that lets
nothing in comes to an end.  What is left to show of a system is what a state looks like
in which none of the steps in question is possible.
-/

namespace Interlink.Foundation

universe u v w

/-! ## One step of a table -/

namespace Tasks

variable {α : Type u} {work : α → Nat} {budget : Nat} {tasks tasks' : List α}
  {who : Option Nat} {i : Nat}

/-- What a step does to a table of tasks, by the task that it advances. -/
inductive Turn (work : α → Nat) (budget : Nat) (tasks : List α) : Option Nat → List α → Prop
  | advance {i : Nat} {a b : α} (hi : tasks[i]? = some a) (hb : work b < work a) :
      Turn work budget tasks (some i) (tasks.set i b)
  | rest : Turn work budget tasks none tasks
  | arrive {b : α} (hb : work b ≤ budget) : Turn work budget tasks none (tasks ++ [b])

theorem Turn.same {a : α} (h : tasks[i]? = some a) :
    Turn work budget tasks none (tasks.set i a) := by
  obtain ⟨hlt, rfl⟩ := List.getElem?_eq_some_iff.mp h
  rw [List.set_getElem_self]
  exact .rest

theorem Turn.getElem?_of_ne (h : Turn work budget tasks who tasks') (hwho : who ≠ some i) {a : α}
    (hi : tasks[i]? = some a) : tasks'[i]? = some a := by
  cases h with
  | @advance j =>
      have hij : j ≠ i := by
        rintro rfl
        exact hwho rfl
      exact (List.getElem?_set_ne hij).trans hi
  | rest => exact hi
  | arrive => exact getElem?_append_of hi _

theorem Turn.exists_getElem? (h : Turn work budget tasks who tasks') {a : α}
    (hi : tasks[i]? = some a) : ∃ b, tasks'[i]? = some b := by
  have hlt := (List.getElem?_eq_some_iff.mp hi).1
  have hle : tasks.length ≤ tasks'.length := by
    cases h <;> simp
  exact ⟨_, List.getElem?_eq_getElem (Nat.lt_of_lt_of_le hlt hle)⟩

/-- The work that the task at a position has left; a task that is still to come has it all. -/
def allowance (work : α → Nat) (budget : Nat) (tasks : List α) (i : Nat) : Nat :=
  (tasks[i]?.map work).getD budget

theorem Turn.allowance_le (h : Turn work budget tasks who tasks') (i : Nat) :
    allowance work budget tasks' i + (decide (who = some i)).toNat ≤
      allowance work budget tasks i := by
  cases h with
  | @advance j a b hj hb =>
      by_cases hij : j = i
      · subst hij
        rw [allowance, allowance, getElem?_set_of hj, hj]
        simpa using Nat.succ_le_of_lt hb
      · simp [allowance, List.getElem?_set_ne hij, hij]
  | rest => simp
  | @arrive b hb =>
      rcases Nat.lt_trichotomy i tasks.length with hlt | heq | hgt
      · simp [allowance, List.getElem?_append_left hlt]
      · subst heq
        simpa [allowance] using hb
      · have hlength : (tasks ++ [b]).length ≤ i := by
          simpa using Nat.succ_le_of_lt hgt
        simp [allowance, List.getElem?_eq_none hlength, List.getElem?_eq_none hgt.le]

theorem sum_map_set {a b : α} (h : tasks[i]? = some a) (f : α → Nat) :
    ((tasks.set i b).map f).sum + f a = (tasks.map f).sum + f b := by
  induction tasks generalizing i with
  | nil => cases h
  | cons t ts ih =>
      cases i with
      | zero =>
          obtain rfl : t = a := by simpa using h
          simp only [List.set_cons_zero, List.map_cons, List.sum_cons]
          omega
      | succ i =>
          have := ih (i := i) (by simpa using h)
          simp only [List.set_cons_succ, List.map_cons, List.sum_cons]
          omega

theorem Turn.sum_lt (h : Turn work budget tasks (some i) tasks') :
    (tasks'.map work).sum < (tasks.map work).sum := by
  cases h with
  | @advance _ a b hi hb =>
      have := sum_map_set (b := b) hi work
      omega

theorem Turn.not_advance (h : ∀ a ∈ tasks, work a = 0) :
    ¬ Turn work budget tasks (some i) tasks' := by
  intro hturn
  cases hturn with
  | @advance _ a b hi hb =>
      have hzero := h a (List.mem_of_getElem? hi)
      omega

end Tasks

/-! ## Runs -/

namespace Step

variable {σ : Type u} {ε : Type v} {ω : Type w} {step : Step σ ε ω}

/-- The events of a kind are paid from an account that no step fills up. -/
theorem countP_add_le {p : ε → Bool} {μ : σ → Nat}
    (hstep : ∀ {s e s' out}, step s e = some (s', out) → μ s' + (p e).toNat ≤ μ s)
    {s s' : σ} {es : List ε} {outs : List ω} (hexec : exec step s es = some (s', outs)) :
    es.countP p + μ s' ≤ μ s := by
  induction es generalizing s outs with
  | nil =>
      obtain ⟨rfl, -⟩ := exec_nil.mp hexec
      simp
  | cons e es ih =>
      obtain ⟨next, out, rest, hnext, hrest, -⟩ := exec_cons.mp hexec
      have hpaid := hstep hnext
      have htail := ih hrest
      rw [List.countP_cons]
      cases hp : p e with
      | true =>
          simp only [hp, Bool.toNat_true, if_true] at hpaid ⊢
          omega
      | false =>
          simp only [hp, Bool.toNat_false, Bool.false_eq_true, if_false] at hpaid ⊢
          omega

section Budget

variable {α : Type*} {work : α → Nat} {budget : Nat} {table : σ → List α}
  {who : ε → Option Nat}

/-- In no run does a task make more steps than its budget allows. -/
theorem countP_add_allowance_le
    (hstep : ∀ {s e s' out}, step s e = some (s', out) →
      Tasks.Turn work budget (table s) (who e) (table s'))
    {s s' : σ} {es : List ε} {outs : List ω} (hexec : exec step s es = some (s', outs))
    (i : Nat) :
    es.countP (fun e => who e = some i) + Tasks.allowance work budget (table s') i ≤
      Tasks.allowance work budget (table s) i :=
  countP_add_le (p := fun e => decide (who e = some i))
    (μ := fun s => Tasks.allowance work budget (table s) i)
    (fun hnext => (hstep hnext).allowance_le i) hexec

theorem countP_le_budget
    (hstep : ∀ {s e s' out}, step s e = some (s', out) →
      Tasks.Turn work budget (table s) (who e) (table s'))
    {s s' : σ} {es : List ε} {outs : List ω} (hempty : table s = [])
    (hexec : exec step s es = some (s', outs)) (i : Nat) :
    es.countP (fun e => who e = some i) ≤ budget := by
  have hle := countP_add_allowance_le hstep hexec i
  have hall : Tasks.allowance work budget (table s) i = budget := by simp [Tasks.allowance, hempty]
  omega

end Budget

def Stuck (step : Step σ ε ω) (W : ε → Prop) (s : σ) : Prop :=
  ∀ e, W e → step s e = none

/--
If every event of a kind lowers a measure, the events of that kind lead to a state in
which none of them can happen.
-/
theorem exists_stuck_of_invariant {W : ε → Prop} {μ : σ → Nat} {J : σ → Prop}
    (hkeeps : ∀ {s e s' out}, J s → step s e = some (s', out) → J s')
    (hlower : ∀ {s e s' out}, J s → W e → step s e = some (s', out) → μ s' < μ s) {s : σ}
    (hJ : J s) :
    ∃ es s' outs, (∀ e ∈ es, W e) ∧ exec step s es = some (s', outs) ∧ J s' ∧
      Stuck step W s' := by
  induction hn : μ s using Nat.strong_induction_on generalizing s with
  | _ n ih =>
      by_cases hstuck : Stuck step W s
      · exact ⟨[], s, [], by simp, rfl, hJ, hstuck⟩
      · obtain ⟨e, hW, hne⟩ : ∃ e, W e ∧ step s e ≠ none := by
          simpa [Stuck] using hstuck
        obtain ⟨⟨next, out⟩, hnext⟩ := Option.ne_none_iff_exists'.mp hne
        obtain ⟨es, s', outs, hes, hexec, hlast⟩ :=
          ih (μ next) (hn ▸ hlower hJ hW hnext) (hkeeps hJ hnext) rfl
        refine ⟨e :: es, s', out ++ outs, ?_, ?_, hlast⟩
        · simpa using ⟨hW, hes⟩
        · exact exec_cons.mpr ⟨next, out, outs, hnext, hexec, rfl⟩

theorem exists_stuck {W : ε → Prop} {μ : σ → Nat}
    (hlower : ∀ {s e s' out}, W e → step s e = some (s', out) → μ s' < μ s) (s : σ) :
    ∃ es s' outs, (∀ e ∈ es, W e) ∧ exec step s es = some (s', outs) ∧ Stuck step W s' := by
  obtain ⟨es, s', outs, hes, hexec, -, hstuck⟩ := exists_stuck_of_invariant (J := fun _ => True)
    (fun _ _ => trivial) (fun _ => hlower) (s := s) trivial
  exact ⟨es, s', outs, hes, hexec, hstuck⟩

end Step

end Interlink.Foundation
