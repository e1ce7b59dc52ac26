import Interlink.Discovery.Resolve

/-!
# Single flight

`in_flight` elects a leader for each name.  A leader removes the entry of its
name before it releases its permit, while other calls may still hold the
semaphore that was in it.  The results here say which schedules keep the
promise of one lookup for a name, and give schedules that break it.
-/

namespace Interlink.ServiceDiscovery

open Interlink.Foundation

variable {s s' : State} {e : Event} {out trace : List Observation} {name : Str}

/-! ## One lookup at a time -/

def Call.looksUp (name : Str) (call : Call) : Bool :=
  match call.pc with
  | .lookingUp _ => call.name == name
  | _ => false

def lookupsInProgress (name : Str) (s : State) : Nat :=
  s.calls.countP (Call.looksUp name)

/-- The semaphore of a call that was elected and has not yet removed the in-flight entry. -/
def Pc.leads : Pc → Option Nat
  | .leading sem | .lookingUp sem | .caching sem _ | .leaving sem _ => some sem
  | _ => none

def election (s : State) : Event → Option (Str × Nat)
  | .run i =>
      match s.calls[i]? with
      | some ⟨name, .electing sem⟩ =>
          if 0 < s.available sem then some (name, sem) else none
      | _ => none
  | _ => none

/-- A leader for the name is elected on the semaphore that the in-flight map holds for the name. -/
def ElectsRegistered (name : Str) (s : State) (e : Event) : Prop :=
  ∀ elected ∈ election s e, elected.1 = name → s.inFlight name = some elected.2

instance (name : Str) (s : State) (e : Event) : Decidable (ElectsRegistered name s e) :=
  inferInstanceAs (Decidable (∀ elected ∈ election s e, _))

theorem election_eq_some {i sem : Nat} (hi : s.calls[i]? = some ⟨name, .electing sem⟩)
    (hfree : 0 < s.available sem) : election s (.run i) = some (name, sem) := by
  simp [election, hi, hfree]

structure OneLeader (name : Str) (s : State) : Prop where
  accounted : Accounted s
  registered : ∀ call ∈ s.calls, call.name = name → ∀ sem, call.pc.leads = some sem →
    s.inFlight name = some sem

theorem Pc.holds_of_leads {pc : Pc} {sem : Nat} (h : pc.leads = some sem) :
    pc.holds sem = true := by
  cases pc <;> simp_all [Pc.leads, Pc.holds]

namespace OneLeader

theorem eq_of_leads (h : OneLeader name s) {i j semI semJ : Nat} {pcI pcJ : Pc}
    (hi : s.calls[i]? = some ⟨name, pcI⟩) (hj : s.calls[j]? = some ⟨name, pcJ⟩)
    (hI : pcI.leads = some semI) (hJ : pcJ.leads = some semJ) : i = j := by
  have hsemI := h.registered _ (List.mem_of_getElem? hi) rfl _ hI
  have hsemJ := h.registered _ (List.mem_of_getElem? hj) rfl _ hJ
  obtain rfl : semI = semJ := Option.some.inj (hsemI.symm.trans hsemJ)
  have hone := h.accounted.permits semI (h.accounted.registered _ _ hsemI)
  exact Tasks.eq_of_countP_le_one (p := Call.holds semI) (by omega) hi hj
    (Pc.holds_of_leads hI) (Pc.holds_of_leads hJ)

theorem lookupsInProgress_le_one (h : OneLeader name s) : lookupsInProgress name s ≤ 1 := by
  cases hflight : s.inFlight name with
  | none =>
      have hzero : lookupsInProgress name s = 0 := by
        refine List.countP_eq_zero.mpr fun call hcall hlooks => ?_
        obtain ⟨other, pc⟩ := call
        cases pc <;> simp [Call.looksUp] at hlooks
        next sem =>
          have := h.registered _ hcall hlooks sem rfl
          simp [hflight] at this
      omega
  | some sem =>
      have hle : lookupsInProgress name s ≤ s.calls.countP (Call.holds sem) := by
        refine List.countP_mono_left fun call hcall hlooks => ?_
        obtain ⟨other, pc⟩ := call
        cases pc <;> simp [Call.looksUp] at hlooks
        next k =>
          obtain rfl : sem = k :=
            Option.some.inj (hflight.symm.trans (h.registered _ hcall hlooks k rfl))
          simp [Call.holds, Pc.holds]
      have := h.accounted.permits sem (h.accounted.registered _ _ hflight)
      omega

variable {i : Nat} {other : Str} {pc : Pc}

private theorem registered_goto (h : OneLeader name s)
    (hpc : other = name → ∀ sem, pc.leads = some sem → s.inFlight name = some sem) :
    ∀ call ∈ (s.goto i other pc).calls, call.name = name → ∀ sem,
      call.pc.leads = some sem → s.inFlight name = some sem :=
  Tasks.forall_mem_set h.registered hpc

private theorem registered_of_leads (h : OneLeader name s) {pc' : Pc}
    (hi : s.calls[i]? = some ⟨other, pc'⟩) (hleads : pc.leads = pc'.leads) :
    other = name → ∀ sem, pc.leads = some sem → s.inFlight name = some sem := by
  intro hname sem hsem
  rw [hleads] at hsem
  exact h.registered _ (List.mem_of_getElem? hi) hname sem hsem

private theorem registered_leave (h : OneLeader name s) {sem : Nat} {result : Outcome}
    (hi : s.calls[i]? = some ⟨other, .leaving sem result⟩) :
    ∀ call ∈ (s.goto i other (.releasing sem result)).calls, call.name = name → ∀ k,
      call.pc.leads = some k → (s.leaveFlight other).inFlight name = some k := by
  intro call hcall hname k hk
  by_cases hother : other = name
  · subst hother
    obtain ⟨j, hj⟩ := List.mem_iff_getElem?.mp hcall
    rcases Tasks.getElem?_set_cases hj with ⟨-, rfl⟩ | ⟨hji, hold⟩
    · simp [Pc.leads] at hk
    · obtain ⟨callName, callPc⟩ := call
      obtain rfl : callName = other := hname
      exact absurd (h.eq_of_leads hi hold rfl hk) (Ne.symm hji)
  · have hflight := h.registered_goto (by simp [hother]) call hcall hname k hk
    rw [inFlight_leaveFlight, if_neg (Ne.symm hother)]
    exact hflight

private theorem registered_allocate (h : OneLeader name s)
    (hflight : s.inFlight other = none) :
    ∀ call ∈ (s.goto i other (.electing s.permits.length)).calls, call.name = name →
      ∀ sem, call.pc.leads = some sem → (s.joinFlight other).inFlight name = some sem := by
  intro call hcall hname sem hsem
  have hold := h.registered_goto (by simp [Pc.leads]) call hcall hname sem hsem
  by_cases hother : other = name
  · subst hother
    simp [hflight] at hold
  · rw [inFlight_joinFlight, if_neg (Ne.symm hother)]
    exact hold

theorem step (h : OneLeader name s) (hchange : Change s e s' out)
    (helects : ElectsRegistered name s e) : OneLeader name s' := by
  refine ⟨h.accounted.step hchange, ?_⟩
  cases hchange with
  | resolve other => exact Tasks.forall_mem_append h.registered (by simp [Pc.leads])
  | hit hi _ => exact h.registered_goto (by simp [Pc.leads])
  | miss hi _ => exact h.registered_goto (by simp [Pc.leads])
  | join hi _ => exact h.registered_goto (by simp [Pc.leads])
  | allocate hi hflight => exact h.registered_allocate hflight
  | @elect i other sem hi hfree =>
      refine h.registered_goto fun hname k hk => ?_
      obtain rfl : sem = k := by simpa [Pc.leads] using hk
      exact helects _ (election_eq_some hi hfree) hname
  | wait hi _ => exact h.registered_goto (by simp [Pc.leads])
  | issue hi => exact h.registered_goto (h.registered_of_leads hi rfl)
  | answer _ hi => exact h.registered_goto (h.registered_of_leads hi rfl)
  | insert hi => exact h.registered_goto (h.registered_of_leads hi rfl)
  | leave hi => exact h.registered_leave hi
  | grant hi _ => exact h.registered_goto (by simp [Pc.leads])
  | read hi => exact h.registered_goto (by simp [Pc.leads])
  | release hi => exact h.registered_goto (by simp [Pc.leads])
  | elapse _ => exact h.registered
  | clearCache => exact h.registered
  | dropLeader hi => exact h.registered_goto (by simp [Pc.leads])
  | dropWaiter hi => exact h.registered_goto (by simp [Pc.leads])

end OneLeader

/--
Two lookups for a name are never in progress at once in a run whose elections
are all made on the semaphore registered at the time.
-/
theorem lookupsInProgress_le_one_of_electsRegistered {ttl now : Nat} {events : List Event}
    (hrun : step.exec (withResolver ttl now) events = some (s, trace))
    (helects : step.Always (ElectsRegistered name) (withResolver ttl now) events) :
    lookupsInProgress name s ≤ 1 := by
  have hinit : OneLeader name (withResolver ttl now) :=
    ⟨.withResolver ttl now, fun _ hcall => absurd hcall List.not_mem_nil⟩
  have hlast : OneLeader name s :=
    Step.invariant_of_always (I := fun _ s => OneLeader name s)
      (fun h hC hstep => h.step (step_change hstep) hC) hinit helects hrun
  exact hlast.lookupsInProgress_le_one

section Example

private def service : Str := "db.example.".toList

private def failure : Answer := .error (.dnsResolution "lookup failed: timed out".toList)

private def leaderSteps (i : Nat) : List Event :=
  [.run i, .run i, .run i, .run i]

/--
The second call fetches the semaphore of the first, whose lookup fails.  The third
call finds the in-flight entry gone and leads on a semaphore of its own; the second
then leads on the old one.
-/
private def overtaken : List Event :=
  [.resolve service, .resolve service, .resolve service] ++ leaderSteps 0 ++
    [.run 1, .run 1, .lookupDone 0 failure, .run 0, .run 0, .run 0] ++ leaderSteps 2 ++
    [.run 1, .run 1]

theorem lookupsInProgress_overtaken :
    (step.exec (withResolver 30 0) overtaken).map
      (fun last => lookupsInProgress service last.1) = some 2 := by
  decide

private def inTurn : List Event :=
  [.resolve service, .resolve service] ++ leaderSteps 0 ++ [.run 1, .run 1, .run 1]

theorem lookupsInProgress_inTurn :
    ∃ last, step.exec (withResolver 30 0) inTurn = some last ∧
      lookupsInProgress service last.1 ≤ 1 := by
  have hsome : (step.exec (withResolver 30 0) inTurn).isSome = true := by decide
  obtain ⟨last, hlast⟩ := Option.isSome_iff_exists.mp hsome
  have helects : step.Always (ElectsRegistered service) (withResolver 30 0) inTurn := by
    decide
  exact ⟨last, hlast, lookupsInProgress_le_one_of_electsRegistered hlast helects⟩

end Example

end Interlink.ServiceDiscovery
