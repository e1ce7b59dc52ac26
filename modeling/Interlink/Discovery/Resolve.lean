import Interlink.Common.Identity
import Interlink.Foundation.Tasks
import Interlink.Foundation.Transition
import Mathlib.Logic.Function.Basic

/-!
# DNS service discovery

`ServiceDiscovery::resolve` as a table of concurrent calls.  Every operation on
the two maps and on a semaphore is one step, so a call may be suspended between
any two of them.  A semaphore is named by the position at which it was allocated:
a call keeps the one it fetched although the in-flight map may have dropped it.
-/

namespace Interlink

open Interlink.Foundation

structure ResolvedEndpoints where
  addrs : List SocketAddr
  spiffeId : Option SpiffeId
  deriving DecidableEq, Repr

structure CacheEntry where
  endpoints : Option ResolvedEndpoints
  expiresAt : Nat
  deriving DecidableEq, Repr

def CacheEntry.isExpired (entry : CacheEntry) (now : Nat) : Bool :=
  decide (entry.expiresAt ≤ now)

namespace ServiceDiscovery

abbrev Answer := Except InterlinkError (List SocketAddr)

abbrev Outcome := Except InterlinkError ResolvedEndpoints

/--
Where a call stands.  From `leading` to `releasing` it owns a permit of the
semaphore; a call that waited for the leader owns one in `reading` and
`releasing`.
-/
inductive Pc where
  | checking
  | joining
  | electing (sem : Nat)
  | leading (sem : Nat)
  | lookingUp (sem : Nat)
  | caching (sem : Nat) (result : Outcome)
  | leaving (sem : Nat) (result : Outcome)
  | waiting (sem : Nat)
  | reading (sem : Nat)
  | releasing (sem : Nat) (result : Outcome)
  | returned (result : Outcome)
  | dropped
  deriving DecidableEq

structure Call where
  name : Str
  pc : Pc
  deriving DecidableEq

structure State where
  ttl : Nat
  cache : Str → Option CacheEntry
  inFlight : Str → Option Nat
  permits : List Nat
  calls : List Call
  now : Nat

inductive Event where
  | resolve (name : Str)
  | run (i : Nat)
  | lookupDone (i : Nat) (answer : Answer)
  | elapse (duration : Nat)
  | clearCache
  | drop (i : Nat)
  deriving DecidableEq

inductive Observation where
  | issued (name : Str)
  | answered (name : Str) (answer : Answer)
  deriving DecidableEq

def withResolver (ttl now : Nat) : State :=
  ⟨ttl, fun _ => none, fun _ => none, [], [], now⟩

/-! ## One step of a call -/

namespace State

def goto (s : State) (i : Nat) (name : Str) (pc : Pc) : State :=
  { s with calls := s.calls.set i ⟨name, pc⟩ }

def available (s : State) (sem : Nat) : Nat :=
  s.permits[sem]?.getD 0

def takePermit (s : State) (sem : Nat) : State :=
  { s with permits := s.permits.set sem (s.available sem - 1) }

def givePermit (s : State) (sem : Nat) : State :=
  { s with permits := s.permits.set sem (s.available sem + 1) }

def cached (s : State) (name : Str) : Option ResolvedEndpoints :=
  (s.cache name).bind CacheEntry.endpoints

/-- The fast path: an entry that has not expired and holds endpoints. -/
def fresh (s : State) (name : Str) : Option ResolvedEndpoints :=
  (s.cache name).bind fun entry =>
    if entry.isExpired s.now then none else entry.endpoints

end State

def resolveInner (answer : Answer) : Outcome :=
  answer.map fun addrs => ⟨addrs, none⟩

def lookupFailed : InterlinkError :=
  .dnsResolution "lookup failed".toList

def State.readCache (s : State) (name : Str) : Outcome :=
  match s.cached name with
  | some endpoints => .ok endpoints
  | none => .error lookupFailed

def State.joinFlight (s : State) (name : Str) : State :=
  { s with
    permits := s.permits ++ [1]
    inFlight := Function.update s.inFlight name (some s.permits.length) }

def State.insertEntry (s : State) (name : Str) (result : Outcome) : State :=
  { s with cache := Function.update s.cache name (some ⟨result.toOption, s.now + s.ttl⟩) }

def State.leaveFlight (s : State) (name : Str) : State :=
  { s with inFlight := Function.update s.inFlight name none }

def advance (s : State) (i : Nat) : Call → Option (State × List Observation)
  | ⟨name, .checking⟩ =>
      match s.fresh name with
      | some endpoints => some (s.goto i name (.returned (.ok endpoints)), [])
      | none => some (s.goto i name .joining, [])
  | ⟨name, .joining⟩ =>
      match s.inFlight name with
      | some sem => some (s.goto i name (.electing sem), [])
      | none => some ((s.joinFlight name).goto i name (.electing s.permits.length), [])
  | ⟨name, .electing sem⟩ =>
      if 0 < s.available sem then some ((s.takePermit sem).goto i name (.leading sem), [])
      else some (s.goto i name (.waiting sem), [])
  | ⟨name, .leading sem⟩ => some (s.goto i name (.lookingUp sem), [.issued name])
  | ⟨_, .lookingUp _⟩ => none
  | ⟨name, .caching sem result⟩ =>
      some ((s.insertEntry name result).goto i name (.leaving sem result), [])
  | ⟨name, .leaving sem result⟩ =>
      some ((s.leaveFlight name).goto i name (.releasing sem result), [])
  | ⟨name, .waiting sem⟩ =>
      if 0 < s.available sem then some ((s.takePermit sem).goto i name (.reading sem), [])
      else none
  | ⟨name, .reading sem⟩ =>
      some (s.goto i name (.releasing sem (s.readCache name)), [])
  | ⟨name, .releasing sem result⟩ =>
      some ((s.givePermit sem).goto i name (.returned result), [])
  | ⟨_, .returned _⟩ => none
  | ⟨_, .dropped⟩ => none

/--
A dropped future gives back the permit it owns.  Futures are dropped at an await:
a leader's at its lookup, a waiter's at the semaphore.
-/
def dropCall (s : State) (i : Nat) : Call → Option (State × List Observation)
  | ⟨name, .lookingUp sem⟩ => some ((s.givePermit sem).goto i name .dropped, [])
  | ⟨name, .waiting _⟩ => some (s.goto i name .dropped, [])
  | _ => none

def answerCall (s : State) (i : Nat) (answer : Answer) :
    Call → Option (State × List Observation)
  | ⟨name, .lookingUp sem⟩ =>
      some (s.goto i name (.caching sem (resolveInner answer)), [.answered name answer])
  | _ => none

def step : Step State Event Observation
  | s, .resolve name => some ({ s with calls := s.calls ++ [⟨name, .checking⟩] }, [])
  | s, .run i => s.calls[i]?.bind (advance s i)
  | s, .lookupDone i answer => s.calls[i]?.bind (answerCall s i answer)
  | s, .elapse duration => some ({ s with now := s.now + duration }, [])
  | s, .clearCache => some ({ s with cache := fun _ => none }, [])
  | s, .drop i => s.calls[i]?.bind (dropCall s i)

/-! ## What a step can do -/

inductive Change (s : State) : Event → State → List Observation → Prop
  | resolve (name : Str) :
      Change s (.resolve name) { s with calls := s.calls ++ [⟨name, .checking⟩] } []
  | hit {i name endpoints} (hi : s.calls[i]? = some ⟨name, .checking⟩)
      (hfresh : s.fresh name = some endpoints) :
      Change s (.run i) (s.goto i name (.returned (.ok endpoints))) []
  | miss {i name} (hi : s.calls[i]? = some ⟨name, .checking⟩)
      (hfresh : s.fresh name = none) :
      Change s (.run i) (s.goto i name .joining) []
  | join {i name sem} (hi : s.calls[i]? = some ⟨name, .joining⟩)
      (hflight : s.inFlight name = some sem) :
      Change s (.run i) (s.goto i name (.electing sem)) []
  | allocate {i name} (hi : s.calls[i]? = some ⟨name, .joining⟩)
      (hflight : s.inFlight name = none) :
      Change s (.run i) ((s.joinFlight name).goto i name (.electing s.permits.length)) []
  | elect {i name sem} (hi : s.calls[i]? = some ⟨name, .electing sem⟩)
      (hfree : 0 < s.available sem) :
      Change s (.run i) ((s.takePermit sem).goto i name (.leading sem)) []
  | wait {i name sem} (hi : s.calls[i]? = some ⟨name, .electing sem⟩)
      (htaken : s.available sem = 0) :
      Change s (.run i) (s.goto i name (.waiting sem)) []
  | issue {i name sem} (hi : s.calls[i]? = some ⟨name, .leading sem⟩) :
      Change s (.run i) (s.goto i name (.lookingUp sem)) [.issued name]
  | answer {i name sem} (answer : Answer) (hi : s.calls[i]? = some ⟨name, .lookingUp sem⟩) :
      Change s (.lookupDone i answer) (s.goto i name (.caching sem (resolveInner answer)))
        [.answered name answer]
  | insert {i name sem result} (hi : s.calls[i]? = some ⟨name, .caching sem result⟩) :
      Change s (.run i) ((s.insertEntry name result).goto i name (.leaving sem result)) []
  | leave {i name sem result} (hi : s.calls[i]? = some ⟨name, .leaving sem result⟩) :
      Change s (.run i) ((s.leaveFlight name).goto i name (.releasing sem result)) []
  | grant {i name sem} (hi : s.calls[i]? = some ⟨name, .waiting sem⟩)
      (hfree : 0 < s.available sem) :
      Change s (.run i) ((s.takePermit sem).goto i name (.reading sem)) []
  | read {i name sem} (hi : s.calls[i]? = some ⟨name, .reading sem⟩) :
      Change s (.run i) (s.goto i name (.releasing sem (s.readCache name))) []
  | release {i name sem result} (hi : s.calls[i]? = some ⟨name, .releasing sem result⟩) :
      Change s (.run i) ((s.givePermit sem).goto i name (.returned result)) []
  | elapse (duration : Nat) :
      Change s (.elapse duration) { s with now := s.now + duration } []
  | clearCache : Change s .clearCache { s with cache := fun _ => none } []
  | dropLeader {i name sem} (hi : s.calls[i]? = some ⟨name, .lookingUp sem⟩) :
      Change s (.drop i) ((s.givePermit sem).goto i name .dropped) []
  | dropWaiter {i name sem} (hi : s.calls[i]? = some ⟨name, .waiting sem⟩) :
      Change s (.drop i) (s.goto i name .dropped) []

variable {s s' : State} {out : List Observation}

private theorem advance_change {i : Nat} {call : Call} (hi : s.calls[i]? = some call)
    (h : advance s i call = some (s', out)) : Change s (.run i) s' out := by
  obtain ⟨name, pc⟩ := call
  cases pc with
  | checking =>
      cases hfresh : s.fresh name with
      | some endpoints =>
          simp only [advance, hfresh, Option.some.injEq, Prod.mk.injEq] at h
          obtain ⟨rfl, rfl⟩ := h
          exact .hit hi hfresh
      | none =>
          simp only [advance, hfresh, Option.some.injEq, Prod.mk.injEq] at h
          obtain ⟨rfl, rfl⟩ := h
          exact .miss hi hfresh
  | joining =>
      cases hflight : s.inFlight name with
      | some sem =>
          simp only [advance, hflight, Option.some.injEq, Prod.mk.injEq] at h
          obtain ⟨rfl, rfl⟩ := h
          exact .join hi hflight
      | none =>
          simp only [advance, hflight, Option.some.injEq, Prod.mk.injEq] at h
          obtain ⟨rfl, rfl⟩ := h
          exact .allocate hi hflight
  | electing sem =>
      rcases Nat.eq_zero_or_pos (s.available sem) with htaken | hfree
      · simp only [advance, htaken, Nat.lt_irrefl, if_false, Option.some.injEq,
          Prod.mk.injEq] at h
        obtain ⟨rfl, rfl⟩ := h
        exact .wait hi htaken
      · simp only [advance, hfree, if_true, Option.some.injEq, Prod.mk.injEq] at h
        obtain ⟨rfl, rfl⟩ := h
        exact .elect hi hfree
  | leading sem =>
      obtain ⟨rfl, rfl⟩ : _ ∧ _ := by simpa [advance] using h
      exact .issue hi
  | lookingUp sem => simp [advance] at h
  | caching sem result =>
      obtain ⟨rfl, rfl⟩ : _ ∧ _ := by simpa [advance] using h
      exact .insert hi
  | leaving sem result =>
      obtain ⟨rfl, rfl⟩ : _ ∧ _ := by simpa [advance] using h
      exact .leave hi
  | waiting sem =>
      simp only [advance, Option.ite_none_right_eq_some, Option.some.injEq,
        Prod.mk.injEq] at h
      obtain ⟨hfree, rfl, rfl⟩ := h
      exact .grant hi hfree
  | reading sem =>
      obtain ⟨rfl, rfl⟩ : _ ∧ _ := by simpa [advance] using h
      exact .read hi
  | releasing sem result =>
      obtain ⟨rfl, rfl⟩ : _ ∧ _ := by simpa [advance] using h
      exact .release hi
  | returned result => simp [advance] at h
  | dropped => simp [advance] at h

theorem step_change {e : Event} (h : step s e = some (s', out)) : Change s e s' out := by
  cases e with
  | resolve name =>
      obtain ⟨rfl, rfl⟩ : _ ∧ _ := by simpa [step] using h
      exact .resolve name
  | run i =>
      obtain ⟨call, hi, hadvance⟩ := Option.bind_eq_some_iff.mp h
      exact advance_change hi hadvance
  | lookupDone i answer =>
      obtain ⟨⟨name, pc⟩, hi, hanswer⟩ := Option.bind_eq_some_iff.mp h
      cases pc <;> simp only [answerCall, Option.some.injEq, Prod.mk.injEq,
        reduceCtorEq] at hanswer
      obtain ⟨rfl, rfl⟩ := hanswer
      exact .answer answer hi
  | elapse duration =>
      obtain ⟨rfl, rfl⟩ : _ ∧ _ := by simpa [step] using h
      exact .elapse duration
  | clearCache =>
      obtain ⟨rfl, rfl⟩ : _ ∧ _ := by simpa [step] using h
      exact .clearCache
  | drop i =>
      obtain ⟨⟨name, pc⟩, hi, hdrop⟩ := Option.bind_eq_some_iff.mp h
      cases pc <;> simp only [dropCall, Option.some.injEq, Prod.mk.injEq,
        reduceCtorEq] at hdrop
      · obtain ⟨rfl, rfl⟩ := hdrop
        exact .dropLeader hi
      · obtain ⟨rfl, rfl⟩ := hdrop
        exact .dropWaiter hi

/-! ## Permits are accounted for -/

def Pc.semaphore : Pc → Option Nat
  | .electing sem | .leading sem | .lookingUp sem | .caching sem _ | .leaving sem _
  | .waiting sem | .reading sem | .releasing sem _ => some sem
  | _ => none

def Pc.holds (sem : Nat) : Pc → Bool
  | .leading k | .lookingUp k | .caching k _ | .leaving k _ | .reading k
  | .releasing k _ => k == sem
  | _ => false

def Call.holds (sem : Nat) (call : Call) : Bool :=
  call.pc.holds sem

/-- Every semaphore has one permit, free or owned by one call. -/
structure Accounted (s : State) : Prop where
  permits : ∀ sem < s.permits.length,
    s.available sem + s.calls.countP (Call.holds sem) = 1
  known : ∀ call ∈ s.calls, ∀ sem, call.pc.semaphore = some sem → sem < s.permits.length
  registered : ∀ name sem, s.inFlight name = some sem → sem < s.permits.length

theorem lt_length_of_available {sem : Nat} (h : 0 < s.available sem) :
    sem < s.permits.length := by
  by_contra hlt
  simp [State.available, List.getElem?_eq_none (Nat.le_of_not_lt hlt)] at h

theorem available_takePermit (sem k : Nat) :
    (s.takePermit sem).available k =
      if k = sem then s.available sem - 1 else s.available k := by
  by_cases hk : k = sem
  · subst hk
    by_cases hlt : k < s.permits.length
    · simp [State.takePermit, State.available, hlt]
    · simp [State.takePermit, State.available, Nat.le_of_not_lt hlt]
  · simp [State.takePermit, State.available, hk, List.getElem?_set_ne (Ne.symm hk)]

theorem available_givePermit {sem : Nat} (hsem : sem < s.permits.length) (k : Nat) :
    (s.givePermit sem).available k =
      if k = sem then s.available sem + 1 else s.available k := by
  by_cases hk : k = sem
  · subst hk
    simp [State.givePermit, State.available, hsem]
  · simp [State.givePermit, State.available, hk, List.getElem?_set_ne (Ne.symm hk)]

theorem available_joinFlight (name : Str) {k : Nat} (hk : k < s.permits.length) :
    (s.joinFlight name).available k = s.available k := by
  simp [State.joinFlight, State.available, List.getElem?_append_left hk]

theorem inFlight_joinFlight (name other : Str) :
    (s.joinFlight name).inFlight other =
      if other = name then some s.permits.length else s.inFlight other :=
  Function.update_apply ..

theorem inFlight_leaveFlight (name other : Str) :
    (s.leaveFlight name).inFlight other = if other = name then none else s.inFlight other :=
  Function.update_apply ..

namespace Accounted

variable {i : Nat} {name : Str} {pc pc' : Pc}

theorem lt_length (h : Accounted s) (hi : s.calls[i]? = some ⟨name, pc⟩) {sem : Nat}
    (hsem : pc.semaphore = some sem) : sem < s.permits.length :=
  h.known _ (List.mem_of_getElem? hi) sem hsem

private theorem countP_holds_goto (h : Accounted s) (hi : s.calls[i]? = some ⟨name, pc⟩)
    (pc' : Pc) {sem : Nat} (hsem : sem < s.permits.length) :
    s.available sem + (s.calls.set i ⟨name, pc'⟩).countP (Call.holds sem) +
      (pc.holds sem).toNat = 1 + (pc'.holds sem).toNat := by
  have hcount := Tasks.countP_set hi ⟨name, pc'⟩ (Call.holds sem)
  have hone := h.permits sem hsem
  simp only [Call.holds] at hcount hone ⊢
  omega

private theorem goto (h : Accounted s) (hi : s.calls[i]? = some ⟨name, pc⟩)
    (hholds : ∀ sem, pc'.holds sem = pc.holds sem)
    (hsem : ∀ sem, pc'.semaphore = some sem → sem < s.permits.length) :
    Accounted (s.goto i name pc') where
  permits sem hlt := by
    have := h.countP_holds_goto hi pc' hlt
    rw [hholds] at this
    exact Nat.add_right_cancel this
  known := Tasks.forall_mem_set h.known hsem
  registered := h.registered

private theorem take (h : Accounted s) (hi : s.calls[i]? = some ⟨name, pc⟩) {sem : Nat}
    (hfree : 0 < s.available sem) (hpc : ∀ k, pc.holds k = false)
    (hpc' : ∀ k, pc'.holds k = (sem == k)) (hsem : pc'.semaphore = some sem) :
    Accounted ((s.takePermit sem).goto i name pc') where
  permits k hlt := by
    have hlt : k < s.permits.length := by simpa [State.goto, State.takePermit] using hlt
    have := h.countP_holds_goto hi pc' hlt
    change (s.takePermit sem).available k + (s.calls.set i ⟨name, pc'⟩).countP _ = 1
    rw [hpc, hpc'] at this
    rw [available_takePermit]
    split
    next heq =>
      subst heq
      simp only [beq_self_eq_true, Bool.toNat_true, Bool.toNat_false] at this
      omega
    next hne =>
      simpa [beq_eq_false_iff_ne.mpr (Ne.symm hne)] using this
  known := by
    have hlt := lt_length_of_available hfree
    simpa [State.goto, State.takePermit] using
      Tasks.forall_mem_set (i := i) (b := (⟨name, pc'⟩ : Call)) h.known
        fun k hk => by
          obtain rfl : sem = k := by simpa [hsem] using hk
          exact hlt
  registered := by simpa [State.goto, State.takePermit] using h.registered

private theorem give (h : Accounted s) (hi : s.calls[i]? = some ⟨name, pc⟩) {sem : Nat}
    (hsem : pc.semaphore = some sem) (hpc : ∀ k, pc.holds k = (sem == k))
    (hpc' : ∀ k, pc'.holds k = false) (hnone : pc'.semaphore = none) :
    Accounted ((s.givePermit sem).goto i name pc') where
  permits k hlt := by
    have hlt : k < s.permits.length := by simpa [State.goto, State.givePermit] using hlt
    have := h.countP_holds_goto hi pc' hlt
    change (s.givePermit sem).available k + (s.calls.set i ⟨name, pc'⟩).countP _ = 1
    rw [hpc, hpc'] at this
    rw [available_givePermit (h.lt_length hi hsem)]
    split
    next heq =>
      subst heq
      simp only [beq_self_eq_true, Bool.toNat_true, Bool.toNat_false] at this
      omega
    next hne =>
      simpa [beq_eq_false_iff_ne.mpr (Ne.symm hne)] using this
  known := by
    simpa [State.goto, State.givePermit] using
      Tasks.forall_mem_set (i := i) (b := (⟨name, pc'⟩ : Call)) h.known
        fun k hk => by simp [hnone] at hk
  registered := by simpa [State.goto, State.givePermit] using h.registered

private theorem allocate (h : Accounted s) (hi : s.calls[i]? = some ⟨name, .joining⟩) :
    Accounted ((s.joinFlight name).goto i name (.electing s.permits.length)) where
  permits sem hlt := by
    change (s.joinFlight name).available sem +
      (s.calls.set i ⟨name, .electing s.permits.length⟩).countP _ = 1
    by_cases hold : sem < s.permits.length
    · rw [available_joinFlight name hold]
      simpa [Pc.holds] using h.countP_holds_goto hi (.electing s.permits.length) hold
    · obtain rfl : sem = s.permits.length := by
        simp only [State.goto, State.joinFlight, List.length_append, List.length_singleton]
          at hlt
        omega
      have hnone : s.calls.countP (Call.holds s.permits.length) = 0 := by
        refine List.countP_eq_zero.mpr fun call hcall hholds => ?_
        refine absurd (h.known call hcall s.permits.length ?_) (lt_irrefl _)
        cases hpc : call.pc <;> simp_all [Call.holds, Pc.holds, Pc.semaphore]
      have hcount : (s.calls.set i ⟨name, .electing s.permits.length⟩).countP
          (Call.holds s.permits.length) = 0 :=
        (Tasks.countP_set_of_eq hi (by rfl)).trans hnone
      rw [hcount]
      simp [State.joinFlight, State.available]
  known := by
    refine Tasks.forall_mem_set (fun call hcall sem hsem => ?_) ?_
    · have := h.known call hcall sem hsem
      simp only [State.goto, State.joinFlight, List.length_append, List.length_singleton]
      omega
    · intro sem hsem
      obtain rfl : s.permits.length = sem := by simpa [Pc.semaphore] using hsem
      simp [State.goto, State.joinFlight]
  registered other sem hsem := by
    change (s.joinFlight name).inFlight other = some sem at hsem
    change sem < (s.permits ++ [1]).length
    rw [inFlight_joinFlight] at hsem
    rw [List.length_append, List.length_singleton]
    split at hsem
    next =>
      obtain rfl : s.permits.length = sem := Option.some.inj hsem
      omega
    next =>
      have := h.registered other sem hsem
      omega

theorem withResolver (ttl now : Nat) : Accounted (withResolver ttl now) where
  permits sem hlt := absurd hlt (Nat.not_lt_zero sem)
  known call hcall := absurd hcall List.not_mem_nil
  registered name sem hsem := by simp [ServiceDiscovery.withResolver] at hsem

private theorem of_fields (h : Accounted s) (hpermits : s'.permits = s.permits)
    (hcalls : s'.calls = s.calls)
    (hflight : ∀ name sem, s'.inFlight name = some sem → s.inFlight name = some sem) :
    Accounted s' where
  permits := by simpa [State.available, hpermits, hcalls] using h.permits
  known := by simpa [hpermits, hcalls] using h.known
  registered name sem hsem := by
    rw [hpermits]
    exact h.registered name sem (hflight name sem hsem)

theorem step {e : Event} (h : Accounted s) (hchange : Change s e s' out) :
    Accounted s' := by
  cases hchange with
  | resolve name =>
      refine ⟨fun sem hlt => ?_, Tasks.forall_mem_append h.known ?_, h.registered⟩
      · simpa [State.available, Call.holds, Pc.holds] using h.permits sem hlt
      · simp [Pc.semaphore]
  | hit hi _ => exact h.goto hi (fun _ => rfl) (by simp [Pc.semaphore])
  | miss hi _ => exact h.goto hi (fun _ => rfl) (by simp [Pc.semaphore])
  | join hi hflight =>
      refine h.goto hi (fun _ => rfl) fun sem hsem => ?_
      obtain rfl := Option.some.inj hsem
      exact h.registered _ _ hflight
  | allocate hi _ => exact h.allocate hi
  | elect hi hfree => exact h.take hi hfree (fun _ => rfl) (fun _ => rfl) rfl
  | wait hi _ => exact h.goto hi (fun _ => rfl) fun sem hsem => h.lt_length hi hsem
  | issue hi => exact h.goto hi (fun _ => rfl) fun sem hsem => h.lt_length hi hsem
  | answer _ hi => exact h.goto hi (fun _ => rfl) fun sem hsem => h.lt_length hi hsem
  | @insert i name sem result hi =>
      have hs : Accounted (s.goto i name (.leaving sem result)) :=
        h.goto hi (fun _ => rfl) fun sem hsem => h.lt_length hi hsem
      exact hs.of_fields rfl rfl fun _ _ hsem => hsem
  | @leave i name sem result hi =>
      have hs : Accounted (s.goto i name (.releasing sem result)) :=
        h.goto hi (fun _ => rfl) fun sem hsem => h.lt_length hi hsem
      refine hs.of_fields rfl rfl fun other sem hsem => ?_
      change (s.leaveFlight name).inFlight other = some sem at hsem
      rw [inFlight_leaveFlight] at hsem
      split at hsem
      next => exact absurd hsem (by simp)
      next => exact hsem
  | grant hi hfree => exact h.take hi hfree (fun _ => rfl) (fun _ => rfl) rfl
  | read hi => exact h.goto hi (fun _ => rfl) fun sem hsem => h.lt_length hi hsem
  | release hi => exact h.give hi rfl (fun _ => rfl) (fun _ => rfl) rfl
  | elapse _ => exact h.of_fields rfl rfl fun _ _ hsem => hsem
  | clearCache => exact h.of_fields rfl rfl fun _ _ hsem => hsem
  | dropLeader hi => exact h.give hi rfl (fun _ => rfl) (fun _ => rfl) rfl
  | dropWaiter hi => exact h.goto hi (fun _ => rfl) (by simp [Pc.semaphore])

end Accounted

end ServiceDiscovery

end Interlink
