import Interlink.Discovery.Resolve
import Interlink.Foundation.Draining

/-!
# Every call to `resolve` returns

A call makes a bounded number of steps, whatever is interleaved with it.  The only thing
it waits for besides its own lookup is a permit, and the call that owns the permit can go
on.  So if lookups return, calls return, and then every permit is free again.
-/

namespace Interlink.ServiceDiscovery

open Interlink.Foundation

/-! ## The work of a call -/

def Pc.work : Pc → Nat
  | .returned _ | .dropped => 0
  | .releasing _ _ => 1
  | .leaving _ _ | .reading _ => 2
  | .caching _ _ | .waiting _ => 3
  | .lookingUp _ => 4
  | .leading _ => 5
  | .electing _ => 6
  | .joining => 7
  | .checking => 8

def Call.work (call : Call) : Nat :=
  call.pc.work

def budget : Nat := 8

def Event.advances : Event → Option Nat
  | .run i | .lookupDone i _ | .drop i => some i
  | .resolve _ | .elapse _ | .clearCache => none

def Event.Runs : Event → Prop
  | .run _ | .lookupDone _ _ => True
  | _ => False

def Call.ended (call : Call) : Prop :=
  call.pc = .dropped ∨ ∃ result, call.pc = .returned result

variable {s s' : State} {e : Event} {i : Nat} {call : Call} {trace out : List Observation}
  {events : List Event} {ttl now : Nat}

theorem Change.turn (h : Change s e s' out) :
    Tasks.Turn Call.work budget s.calls e.advances s'.calls := by
  cases h with
  | resolve name => exact .arrive (Nat.le_refl 8)
  | elapse duration => exact .rest
  | clearCache => exact .rest
  | hit hi | miss hi | join hi | allocate hi | elect hi | wait hi | issue hi | answer _ hi
  | insert hi | leave hi | grant hi | read hi | release hi | dropLeader hi | dropWaiter hi =>
      exact .advance hi (by simp [Call.work, Pc.work])

/-! ## Who can go on -/

private theorem runs_of_not_waiting (hi : s.calls[i]? = some call) (hended : ¬ call.ended)
    (hwaiting : ∀ sem, call.pc = .waiting sem → 0 < s.available sem) :
    ∃ e, e.Runs ∧ step s e ≠ none := by
  obtain ⟨name, pc⟩ := call
  cases pc with
  | lookingUp sem =>
      exact ⟨.lookupDone i (.ok []), trivial, by simp [step, hi, answerCall]⟩
  | waiting sem =>
      exact ⟨.run i, trivial, by simp [step, hi, advance, hwaiting sem rfl]⟩
  | returned result => exact absurd (.inr ⟨result, rfl⟩) hended
  | dropped => exact absurd (.inl rfl) hended
  | checking | joining | electing sem =>
      refine ⟨.run i, trivial, ?_⟩
      simp only [step, hi, Option.bind_some, advance]
      split <;> simp
  | _ => exact ⟨.run i, trivial, by simp [step, hi, advance]⟩

private theorem not_ended_of_holds {sem : Nat} (h : call.holds sem = true) : ¬ call.ended := by
  obtain ⟨name, pc⟩ := call
  rintro (hpc | ⟨result, hpc⟩)
  · cases hpc
    cases h
  · cases hpc
    cases h

private theorem ne_waiting_of_holds {sem other : Nat} (h : call.holds sem = true) :
    call.pc ≠ .waiting other := by
  obtain ⟨name, pc⟩ := call
  rintro ⟨⟩
  cases h

/--
While a call has not ended, some call can go on: a permit that is not free is owned by a
call that waits for nothing but its lookup.
-/
theorem Accounted.exists_runs (h : Accounted s) (hi : s.calls[i]? = some call)
    (hended : ¬ call.ended) : ∃ e, e.Runs ∧ ServiceDiscovery.step s e ≠ none := by
  by_cases htaken : ∃ sem, call.pc = .waiting sem ∧ s.available sem = 0
  · obtain ⟨sem, hpc, hzero⟩ := htaken
    have hlt : sem < s.permits.length :=
      h.known call (List.mem_of_getElem? hi) sem (by simp [hpc, Pc.semaphore])
    have hcount : 0 < s.calls.countP (Call.holds sem) := by
      have := h.permits sem hlt
      omega
    obtain ⟨owner, hmem, hholds⟩ := List.countP_pos_iff.mp hcount
    obtain ⟨j, hj⟩ := List.getElem?_of_mem hmem
    exact runs_of_not_waiting hj (not_ended_of_holds hholds)
      fun other hother => absurd hother (ne_waiting_of_holds hholds)
  · refine runs_of_not_waiting hi hended fun sem hpc => ?_
    exact Nat.pos_of_ne_zero fun hzero => htaken ⟨sem, hpc, hzero⟩

/-! ## Runs -/

/-- No call is going on, and every semaphore that was ever allocated has its permit. -/
structure AtRest (s : State) : Prop where
  ended : ∀ call ∈ s.calls, call.ended
  free : ∀ sem < s.permits.length, s.available sem = 1

theorem Accounted.settled (h : Accounted s) (hstuck : ServiceDiscovery.step.Stuck Event.Runs s) :
    AtRest s := by
  have hended : ∀ call ∈ s.calls, call.ended := by
    intro call hmem
    obtain ⟨i, hi⟩ := List.getElem?_of_mem hmem
    by_contra hended
    obtain ⟨e, hruns, hne⟩ := h.exists_runs hi hended
    exact hne (hstuck e hruns)
  refine ⟨hended, fun sem hlt => ?_⟩
  have hnone : s.calls.countP (Call.holds sem) = 0 :=
    List.countP_eq_zero.mpr fun call hmem hholds => not_ended_of_holds hholds (hended call hmem)
  have hone := h.permits sem hlt
  omega

theorem accounted_of_run (hrun : step.exec (withResolver ttl now) events = some (s, trace)) :
    Accounted s :=
  Step.invariant (I := fun _ s => Accounted s) (fun h hstep => h.step (step_change hstep))
    (.withResolver ttl now) hrun

private theorem work_lt (he : e.Runs) (h : step s e = some (s', out)) :
    (s'.calls.map Call.work).sum < (s.calls.map Call.work).sum := by
  have hturn := (step_change h).turn
  cases e with
  | run i => exact hturn.sum_lt
  | lookupDone i answer => exact hturn.sum_lt
  | _ => cases he

/--
However calls are interleaved, dropped and mixed with clearings of the cache, a call
makes at most `budget` steps.  If no call can run and no lookup is out, every call has
ended and every permit is back, and from every reachable state the calls and their
lookups lead there.
-/
theorem resolve_settles
    (hrun : step.exec (withResolver ttl now) events = some (s, trace)) :
    (∀ i, events.countP (fun e => e.advances = some i) ≤ budget) ∧
      (step.Stuck Event.Runs s → AtRest s) ∧
      ∃ more last rest, (∀ e ∈ more, e.Runs) ∧ step.exec s more = some (last, rest) ∧
        AtRest last := by
  refine ⟨Step.countP_le_budget (fun hstep => (step_change hstep).turn) rfl hrun,
    (accounted_of_run hrun).settled, ?_⟩
  obtain ⟨more, last, rest, hmore, hexec, hstuck⟩ := step.exists_stuck work_lt s
  exact ⟨more, last, rest, hmore, hexec,
    (accounted_of_run (Step.exec_append hrun hexec)).settled hstuck⟩

theorem droppedLeader_settles :
    ∃ last, step.exec (withResolver 30 0)
        [.resolve [], .resolve [], .run 0, .run 0, .run 0, .run 0, .run 1, .run 1, .run 1,
          .drop 0] = some last ∧
      last.1.calls.map Call.pc = [.dropped, .waiting 0] ∧
      ∃ more settled rest, step.exec last.1 more = some (settled, rest) ∧ AtRest settled := by
  have hlast : (step.exec (withResolver 30 0)
      [.resolve [], .resolve [], .run 0, .run 0, .run 0, .run 0, .run 1, .run 1, .run 1,
        .drop 0]).any (fun last => last.1.calls.map Call.pc = [.dropped, .waiting 0]) = true := by
    decide +kernel
  obtain ⟨last, hrun, hcheck⟩ := (Option.any_eq_true _ _).mp hlast
  obtain ⟨-, -, more, settled, rest, -, hexec, hsettled⟩ := resolve_settles hrun
  exact ⟨last, hrun, of_decide_eq_true hcheck, more, settled, rest, hexec, hsettled⟩

end Interlink.ServiceDiscovery
