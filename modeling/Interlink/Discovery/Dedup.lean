import Interlink.Discovery.SingleFlight

/-!
# Concurrent calls share one lookup

`N` calls for one name start on an empty cache and every lookup succeeds.  The
calls share a single lookup exactly in the schedules in which nobody is elected
once the answer is in the cache.
-/

namespace Interlink.ServiceDiscovery

open Interlink.Foundation

variable {s s' : State} {e : Event} {out trace : List Observation} {name : Str}

def start (N ttl now : Nat) (name : Str) : State :=
  { withResolver ttl now with calls := List.replicate N ⟨name, .checking⟩ }

/--
The events of a run in which every lookup succeeds, no call is dropped and the
cache is not cleared.
-/
def Succeeds : Event → Prop
  | .run _ => True
  | .lookupDone _ answer => answer.isOk = true
  | .elapse _ => True
  | _ => False

instance : DecidablePred Succeeds
  | .run _ => isTrue trivial
  | .lookupDone _ answer => inferInstanceAs (Decidable (answer.isOk = true))
  | .elapse _ => isTrue trivial
  | .resolve _ => isFalse id
  | .clearCache => isFalse id
  | .drop _ => isFalse id

def Settled (s : State) : Prop :=
  ∀ i, step s (.run i) = none ∧ ∀ answer, step s (.lookupDone i answer) = none

def SingleLookup (N : Nat) (name : Str) (s : State) (trace : List Observation) : Prop :=
  trace.count (.issued name) = 1 ∧
    ∃ addrs, .answered name (.ok addrs) ∈ trace ∧
      s.calls = List.replicate N ⟨name, .returned (.ok ⟨addrs, none⟩)⟩

def ElectsUncached (name : Str) (s : State) (e : Event) : Prop :=
  ∀ elected ∈ election s e, elected.1 = name → s.cache name = none

instance (name : Str) (s : State) (e : Event) : Decidable (ElectsUncached name s e) :=
  inferInstanceAs (Decidable (∀ elected ∈ election s e, _))

/-! ## No deadlock -/

theorem Settled.not_holds (h : Settled s) {i : Nat} {pc : Pc}
    (hi : s.calls[i]? = some ⟨name, pc⟩) (sem : Nat) : pc.holds sem = false := by
  have hrun := (h i).1
  have hanswer := (h i).2 (.ok [])
  cases pc with
  | checking | joining | electing _ | waiting _ | returned _ | dropped => rfl
  | lookingUp _ => simp [step, answerCall, hi] at hanswer
  | leading _ | caching _ _ | leaving _ _ | reading _ | releasing _ _ =>
      simp [step, advance, hi] at hrun

theorem Settled.finished (h : Settled s) (haccounted : Accounted s) {i : Nat} {pc : Pc}
    (hi : s.calls[i]? = some ⟨name, pc⟩) : pc = .dropped ∨ ∃ result, pc = .returned result := by
  have hrun := (h i).1
  have hholds := h.not_holds hi
  cases pc with
  | checking =>
      simp only [step, hi, Option.bind_some, advance] at hrun
      split at hrun <;> simp at hrun
  | joining =>
      simp only [step, hi, Option.bind_some, advance] at hrun
      split at hrun <;> simp at hrun
  | electing sem =>
      simp only [step, hi, Option.bind_some, advance] at hrun
      split at hrun <;> simp at hrun
  | waiting sem =>
      simp only [step, hi, Option.bind_some, advance] at hrun
      have htaken : s.available sem = 0 := by
        by_contra hne
        simp [Nat.pos_of_ne_zero hne] at hrun
      have hone := haccounted.permits sem (haccounted.lt_length hi rfl)
      have hholder : 0 < s.calls.countP (Call.holds sem) := by omega
      obtain ⟨call, hcall, hheld⟩ := List.countP_pos_iff.mp hholder
      obtain ⟨j, hj⟩ := List.mem_iff_getElem?.mp hcall
      exact absurd hheld (by simp [Call.holds, h.not_holds hj])
  | returned result => exact .inr ⟨result, rfl⟩
  | dropped => exact .inl rfl
  | leading sem => exact absurd (hholds sem) (by simp [Pc.holds])
  | lookingUp sem => exact absurd (hholds sem) (by simp [Pc.holds])
  | caching sem result => exact absurd (hholds sem) (by simp [Pc.holds])
  | leaving sem result => exact absurd (hholds sem) (by simp [Pc.holds])
  | reading sem => exact absurd (hholds sem) (by simp [Pc.holds])
  | releasing sem result => exact absurd (hholds sem) (by simp [Pc.holds])

/-! ## Every election costs a lookup -/

def Call.isLeading (call : Call) : Bool :=
  match call.pc with
  | .leading _ => true
  | _ => false

def Call.isAnswering (call : Call) : Bool :=
  match call.pc with
  | .lookingUp _ | .caching _ _ => true
  | _ => false

/-- The lookups issued, and those that calls already elected are about to issue. -/
def lookupsDue (name : Str) (trace : List Observation) (s : State) : Nat :=
  trace.count (.issued name) + s.calls.countP Call.isLeading

def Named (name : Str) (s : State) : Prop :=
  ∀ call ∈ s.calls, call.name = name

theorem Named.eq (h : Named name s) {i : Nat} {other : Str} {pc : Pc}
    (hi : s.calls[i]? = some ⟨other, pc⟩) : other = name :=
  h _ (List.mem_of_getElem? hi)

theorem Named.step (h : Named name s) (hchange : Change s e s' out)
    (hsucceeds : Succeeds e) : Named name s' := by
  cases hchange with
  | resolve | clearCache | dropLeader | dropWaiter => exact hsucceeds.elim
  | elapse => exact h
  | hit hi | miss hi | join hi | allocate hi | elect hi | wait hi | issue hi | answer _ hi
  | insert hi | leave hi | grant hi | read hi | release hi =>
      exact Tasks.forall_mem_set h (h.eq hi)

theorem lookupsDue_le (hnamed : Named name s) (hchange : Change s e s' out)
    (hsucceeds : Succeeds e) :
    lookupsDue name trace s ≤ lookupsDue name (trace ++ out) s' := by
  rw [lookupsDue, lookupsDue, List.count_append]
  cases hchange with
  | resolve | clearCache | dropLeader | dropWaiter => exact hsucceeds.elim
  | elapse => exact Nat.le_refl _
  | hit hi | miss hi | join hi | allocate hi | wait hi | insert hi | leave hi | grant hi
  | read hi | release hi | answer _ hi =>
      refine Nat.add_le_add (Nat.le_add_right _ _) (Nat.le_of_eq ?_)
      exact (Tasks.countP_set_of_eq hi (by rfl)).symm
  | elect hi hfree =>
      refine Nat.add_le_add (Nat.le_add_right _ _) (Nat.le_of_succ_le (Nat.le_of_eq ?_))
      exact (Tasks.countP_set_of_enter hi (by rfl) (by rfl)).symm
  | @issue i other sem hi =>
      obtain rfl := hnamed.eq hi
      have hleave : (s.goto i other (.lookingUp sem)).calls.countP Call.isLeading + 1 = _ :=
        Tasks.countP_set_of_leave hi (by rfl) (by rfl)
      rw [List.count_singleton_self]
      omega

structure Asked (name : Str) (trace : List Observation) (s : State) : Prop where
  named : Named name s
  answering : ∀ call ∈ s.calls, call.isAnswering = true → 0 < trace.count (.issued name)
  cached : s.cache name ≠ none → 0 < trace.count (.issued name)

theorem Asked.step (h : Asked name trace s) (hchange : Change s e s' out)
    (hsucceeds : Succeeds e) : Asked name (trace ++ out) s' := by
  have hmono : 0 < trace.count (.issued name) → 0 < (trace ++ out).count (.issued name) := by
    rw [List.count_append]
    omega
  have hold := fun call hcall hanswering => hmono (h.answering call hcall hanswering)
  have hcached := fun hne => hmono (h.cached hne)
  have hnamed := h.named.step hchange hsucceeds
  cases hchange with
  | resolve | clearCache | dropLeader | dropWaiter => exact hsucceeds.elim
  | elapse => exact ⟨hnamed, hold, hcached⟩
  | hit | miss | join | allocate | elect | wait | leave | grant | read | release =>
      exact ⟨hnamed, Tasks.forall_mem_set hold (by simp [Call.isAnswering]), hcached⟩
  | answer answer hi =>
      have hpos := hold _ (List.mem_of_getElem? hi) rfl
      exact ⟨hnamed, Tasks.forall_mem_set hold fun _ => hpos, hcached⟩
  | insert hi =>
      have hpos := hold _ (List.mem_of_getElem? hi) rfl
      exact ⟨hnamed, Tasks.forall_mem_set hold fun _ => hpos, fun _ => hpos⟩
  | @issue i other sem hi =>
      obtain rfl := h.named.eq hi
      have hpos : 0 < (trace ++ [Observation.issued other]).count (.issued other) := by
        simp [List.count_append]
      exact ⟨hnamed, fun _ _ _ => hpos, fun _ => hpos⟩

theorem Asked.start (N ttl now : Nat) : Asked name [] (start N ttl now name) where
  named call hcall := by simp [List.eq_of_mem_replicate hcall]
  answering call hcall hanswering := by
    simp [List.eq_of_mem_replicate hcall, Call.isAnswering] at hanswering
  cached hne := by simp [ServiceDiscovery.start, withResolver] at hne

theorem election_eq_some_iff {elected : Str × Nat} :
    election s e = some elected ↔
      ∃ i, e = .run i ∧ s.calls[i]? = some ⟨elected.1, .electing elected.2⟩ ∧
        0 < s.available elected.2 := by
  constructor
  · intro h
    unfold election at h
    split at h
    next i =>
      split at h
      next hi =>
        rw [Option.ite_none_right_eq_some, Option.some.injEq] at h
        obtain ⟨hfree, rfl⟩ := h
        exact ⟨i, rfl, hi, hfree⟩
      next => cases h
    next => cases h
  · rintro ⟨i, rfl, hi, hfree⟩
    exact election_eq_some hi hfree

theorem lookupsDue_lt (name : Str) (trace : List Observation) {elected : Str × Nat}
    (helected : election s e = some elected)
    (hstep : step s e = some (s', out)) :
    lookupsDue name trace s < lookupsDue name (trace ++ out) s' := by
  obtain ⟨i, rfl, hi, hfree⟩ := election_eq_some_iff.mp helected
  simp only [step, hi, Option.bind_some, advance, hfree, if_true, Option.some.injEq,
    Prod.mk.injEq] at hstep
  obtain ⟨rfl, rfl⟩ := hstep
  rw [lookupsDue, lookupsDue, List.append_nil]
  refine Nat.add_lt_add_left (Nat.lt_of_succ_le (Nat.le_of_eq ?_)) _
  exact (Tasks.countP_set_of_enter hi (by rfl) (by rfl)).symm

/-- Somebody elected while the answer is in the cache issues a second lookup. -/
theorem electsUncached_of_count_le_one {N ttl now : Nat} {events : List Event}
    (hrun : step.exec (start N ttl now name) events = some (s, trace))
    (hsucceeds : ∀ e ∈ events, Succeeds e) (hsettled : Settled s)
    (hcount : trace.count (.issued name) ≤ 1) :
    step.Always (ElectsUncached name) (start N ttl now name) events := by
  by_contra hnot
  obtain ⟨es₁, e, es₂, m₁, outs₁, m₂, out, outs₂, rfl, hrun₁, hstep, hcached, hrun₂, rfl⟩ :=
    Step.exists_of_not_always hrun hnot
  simp only [List.mem_append, List.mem_cons, or_imp, forall_and, forall_eq] at hsucceeds
  obtain ⟨hsucceeds₁, hsucceeds, hsucceeds₂⟩ := hsucceeds
  have hasked : Asked name outs₁ m₁ :=
    Step.invariant_of_always (fun h hC hs => h.step (step_change hs) hC) (Asked.start N ttl now)
      (Step.always_of_forall hsucceeds₁ _) hrun₁
  simp only [ElectsUncached, not_forall] at hcached
  obtain ⟨elected, helected, -, hcached⟩ := hcached
  have htwo : 2 ≤ lookupsDue name (outs₁ ++ out) m₂ := by
    have hpos := hasked.cached hcached
    have hlt := lookupsDue_lt name outs₁ helected hstep
    rw [lookupsDue] at hlt
    omega
  have hlast : Named name s ∧ 2 ≤ lookupsDue name (outs₁ ++ out ++ outs₂) s :=
    Step.invariant_append (I := fun trace s => Named name s ∧ 2 ≤ lookupsDue name trace s)
      (fun h hC hs => ⟨h.1.step (step_change hs) hC,
        h.2.trans (lookupsDue_le h.1 (step_change hs) hC)⟩)
      ⟨hasked.named.step (step_change hstep) hsucceeds, htwo⟩
      (Step.always_of_forall hsucceeds₂ _) hrun₂
  have hleading : s.calls.countP Call.isLeading = 0 := by
    refine List.countP_eq_zero.mpr fun call hcall hleading => ?_
    obtain ⟨i, hi⟩ := List.mem_iff_getElem?.mp hcall
    obtain ⟨other, pc⟩ := call
    have hholds := hsettled.not_holds hi
    cases pc <;> simp [Call.isLeading] at hleading
    simp [Pc.holds] at hholds
  have := hlast.2
  rw [lookupsDue, hleading, List.append_assoc] at this
  omega

/-! ## One flight -/

def IsAnswer (name : Str) (trace : List Observation) (result : Outcome) : Prop :=
  ∃ addrs, result = .ok ⟨addrs, none⟩ ∧ .answered name (.ok addrs) ∈ trace

def Pc.Early (name : Str) (trace : List Observation) : Pc → Prop
  | .checking | .joining | .electing _ | .waiting _ | .leading _ | .lookingUp _ => True
  | .caching _ result => IsAnswer name trace result
  | _ => False

def Pc.Late (endpoints : ResolvedEndpoints) : Pc → Prop
  | .checking | .joining | .electing _ | .waiting _ | .reading _ => True
  | .leaving _ result | .releasing _ result | .returned result => result = .ok endpoints
  | _ => False

structure Before (name : Str) (trace : List Observation) (s : State) : Prop where
  uncached : s.cache name = none
  permits : s.permits.length ≤ 1
  flight : s.inFlight name = none → s.permits.length = 0
  early : ∀ call ∈ s.calls, call.pc.Early name trace
  taken : ∀ call ∈ s.calls, ∀ sem, call.pc = .waiting sem → s.available sem = 0
  issued : trace.count (.issued name) = s.calls.countP Call.isAnswering

structure After (name : Str) (addrs : List SocketAddr) (trace : List Observation)
    (s : State) : Prop where
  cached : s.cached name = some ⟨addrs, none⟩
  answered : .answered name (.ok addrs) ∈ trace
  issued : trace.count (.issued name) = 1
  late : ∀ call ∈ s.calls, call.pc.Late ⟨addrs, none⟩

theorem Pc.Early.mono {pc : Pc} (h : pc.Early name trace) (out : List Observation) :
    pc.Early name (trace ++ out) := by
  cases pc with
  | caching sem result =>
      obtain ⟨addrs, hresult, hmem⟩ := h
      exact ⟨addrs, hresult, List.mem_append_left out hmem⟩
  | _ => exact h

theorem cached_of_fresh {endpoints : ResolvedEndpoints}
    (h : s.fresh name = some endpoints) : s.cached name = some endpoints := by
  unfold State.fresh at h
  unfold State.cached
  cases hentry : s.cache name with
  | none => simp [hentry] at h
  | some entry =>
      simp only [hentry, Option.bind_some, Option.ite_none_left_eq_some] at h
      exact h.2

namespace Before

variable {i : Nat} {other : Str} {pc pc' : Pc}

private theorem goto (h : Before name trace s) (hi : s.calls[i]? = some ⟨other, pc⟩)
    (hearly : pc'.Early name (trace ++ out))
    (htaken : ∀ sem, pc' = .waiting sem → s.available sem = 0)
    (hissued : out.count (.issued name) + (Call.isAnswering ⟨other, pc⟩).toNat =
      (Call.isAnswering ⟨other, pc'⟩).toNat) :
    Before name (trace ++ out) (s.goto i other pc') where
  uncached := h.uncached
  permits := h.permits
  flight := h.flight
  early := Tasks.forall_mem_set (fun call hcall => (h.early call hcall).mono out) hearly
  taken := Tasks.forall_mem_set h.taken htaken
  issued := by
    have := Tasks.countP_set hi ⟨other, pc'⟩ Call.isAnswering
    have hold := h.issued
    rw [List.count_append]
    simp only [State.goto]
    omega

private theorem elect (h : Before name trace s) {sem : Nat}
    (hi : s.calls[i]? = some ⟨other, .electing sem⟩) :
    Before name trace ((s.takePermit sem).goto i other (.leading sem)) where
  uncached := h.uncached
  permits := by simpa [State.goto, State.takePermit] using h.permits
  flight := by simpa [State.goto, State.takePermit] using h.flight
  early := Tasks.forall_mem_set h.early trivial
  taken := by
    refine Tasks.forall_mem_set (fun call hcall k hk => ?_) (by simp)
    have htaken := h.taken call hcall k hk
    change (s.takePermit sem).available k = 0
    rw [available_takePermit]
    split <;> simp_all
  issued := h.issued.trans (Tasks.countP_set_of_eq hi (by rfl)).symm

private theorem allocate (h : Before name trace s) (haccounted : Accounted s)
    (hi : s.calls[i]? = some ⟨name, .joining⟩) (hflight : s.inFlight name = none) :
    Before name trace
      ((s.joinFlight name).goto i name (.electing s.permits.length)) where
  uncached := h.uncached
  permits := by simp [State.goto, State.joinFlight, h.flight hflight]
  flight hnone := by
    change (s.joinFlight name).inFlight name = none at hnone
    simp [inFlight_joinFlight] at hnone
  early := Tasks.forall_mem_set h.early trivial
  taken := by
    refine Tasks.forall_mem_set (fun call hcall k hk => ?_) (by simp)
    have hlt := haccounted.known call hcall k (by simp [hk, Pc.semaphore])
    exact absurd hlt (by simp [h.flight hflight])
  issued := h.issued.trans (Tasks.countP_set_of_eq hi (by rfl)).symm

private theorem holds_zero (h : Before name trace s) (haccounted : Accounted s)
    {call : Call} (hcall : call ∈ s.calls)
    (hasking : call.isLeading = true ∨ call.isAnswering = true) :
    call.holds 0 = true := by
  obtain ⟨other, pc⟩ := call
  have hknown := haccounted.known _ hcall
  have hpermits := h.permits
  cases pc <;> simp [Call.isLeading, Call.isAnswering] at hasking <;>
    have := hknown _ rfl <;> simp [Call.holds, Pc.holds] <;> omega

private theorem countP_holds_le_one (haccounted : Accounted s)
    (hi : s.calls[i]? = some ⟨other, pc⟩) (hholds : pc.holds 0 = true) :
    s.calls.countP (Call.holds 0) ≤ 1 := by
  have hlt : 0 < s.permits.length := by
    cases pc <;> simp [Pc.holds] at hholds <;>
      exact hholds ▸ haccounted.lt_length hi rfl
  have := haccounted.permits 0 hlt
  omega

private theorem insert (h : Before name trace s) (haccounted : Accounted s) {sem : Nat}
    {result : Outcome} (hi : s.calls[i]? = some ⟨name, .caching sem result⟩) :
    ∃ addrs, After name addrs trace
      ((s.insertEntry name result).goto i name (.leaving sem result)) := by
  obtain ⟨addrs, rfl, hanswered⟩ : IsAnswer name trace result :=
    h.early _ (List.mem_of_getElem? hi)
  have hholds := h.holds_zero haccounted (List.mem_of_getElem? hi) (.inr rfl)
  have hone := countP_holds_le_one haccounted hi hholds
  refine ⟨addrs, ?_, hanswered, ?_, ?_⟩
  · simp [State.cached, State.goto, State.insertEntry, Except.toOption]
  · have hle : s.calls.countP Call.isAnswering ≤ s.calls.countP (Call.holds 0) :=
      List.countP_mono_left fun call hcall hanswering =>
        h.holds_zero haccounted hcall (.inr hanswering)
    have hpos : 0 < s.calls.countP Call.isAnswering := Tasks.countP_pos hi rfl
    have := h.issued
    omega
  · intro call hcall
    obtain ⟨j, hj⟩ := List.mem_iff_getElem?.mp hcall
    rcases Tasks.getElem?_set_cases hj with ⟨-, rfl⟩ | ⟨hji, hold⟩
    · rfl
    · have hcall : call ∈ s.calls := List.mem_of_getElem? hold
      have hearly := h.early call hcall
      have hother : ¬ (call.isLeading = true ∨ call.isAnswering = true) := fun hasking =>
        hji (Tasks.eq_of_countP_le_one hone hi hold hholds
          (h.holds_zero haccounted hcall hasking)).symm
      obtain ⟨other, pc⟩ := call
      cases pc with
      | checking | joining | electing _ | waiting _ => trivial
      | leading _ => exact absurd (.inl rfl) hother
      | lookingUp _ | caching _ _ => exact absurd (.inr rfl) hother
      | leaving _ _ | reading _ | releasing _ _ | returned _ | dropped => exact hearly.elim

theorem step (h : Before name trace s) (haccounted : Accounted s) (hnamed : Named name s)
    (hchange : Change s e s' out) (hsucceeds : Succeeds e) :
    Before name (trace ++ out) s' ∨ ∃ addrs, After name addrs (trace ++ out) s' := by
  cases hchange with
  | resolve | clearCache | dropLeader | dropWaiter => exact hsucceeds.elim
  | elapse =>
      rw [List.append_nil]
      exact .inl ⟨h.uncached, h.permits, h.flight, h.early, h.taken, h.issued⟩
  | hit hi hfresh =>
      obtain rfl := hnamed.eq hi
      simp [State.fresh, h.uncached] at hfresh
  | miss hi => exact .inl (h.goto hi trivial (by simp) rfl)
  | join hi => exact .inl (h.goto hi trivial (by simp) rfl)
  | allocate hi hflight =>
      obtain rfl := hnamed.eq hi
      rw [List.append_nil]
      exact .inl (h.allocate haccounted hi hflight)
  | elect hi hfree =>
      rw [List.append_nil]
      exact .inl (h.elect hi)
  | wait hi htaken =>
      refine .inl (h.goto hi trivial (fun sem hsem => ?_) rfl)
      rw [← Pc.waiting.inj hsem]
      exact htaken
  | issue hi =>
      obtain rfl := hnamed.eq hi
      exact .inl (h.goto hi trivial (by simp) (by simp [Call.isAnswering]))
  | @answer i other sem answer hi =>
      obtain rfl := hnamed.eq hi
      cases answer with
      | error error => simp [Succeeds, Except.isOk, Except.toBool] at hsucceeds
      | ok addrs =>
          have hearly : (Pc.caching sem (resolveInner (.ok addrs))).Early other
              (trace ++ [.answered other (.ok addrs)]) := ⟨addrs, rfl, by simp⟩
          exact .inl (h.goto hi hearly (by simp) (by simp [Call.isAnswering]))
  | insert hi =>
      obtain rfl := hnamed.eq hi
      rw [List.append_nil]
      exact .inr (h.insert haccounted hi)
  | grant hi hfree =>
      have := h.taken _ (List.mem_of_getElem? hi) _ rfl
      omega
  | leave hi => exact (h.early _ (List.mem_of_getElem? hi)).elim
  | read hi => exact (h.early _ (List.mem_of_getElem? hi)).elim
  | release hi => exact (h.early _ (List.mem_of_getElem? hi)).elim

end Before

theorem After.step {addrs : List SocketAddr} (h : After name addrs trace s)
    (hnamed : Named name s) (hchange : Change s e s' out) (hsucceeds : Succeeds e)
    (helects : ElectsUncached name s e) : After name addrs (trace ++ out) s' := by
  have hcached : s.cache name ≠ none := by
    intro hnone
    have := h.cached
    simp [State.cached, hnone] at this
  have hlate := fun {i other pc} (hi : s.calls[i]? = some ⟨other, pc⟩) =>
    h.late _ (List.mem_of_getElem? hi)
  cases hchange with
  | resolve | clearCache | dropLeader | dropWaiter => exact hsucceeds.elim
  | issue hi | answer _ hi | insert hi => exact (hlate hi).elim
  | elapse =>
      rw [List.append_nil]
      exact ⟨h.cached, h.answered, h.issued, h.late⟩
  | elect hi hfree =>
      exact absurd (helects _ (election_eq_some hi hfree) (hnamed.eq hi)) hcached
  | hit hi hfresh =>
      obtain rfl := hnamed.eq hi
      obtain rfl := Option.some.inj ((cached_of_fresh hfresh).symm.trans h.cached)
      rw [List.append_nil]
      exact ⟨h.cached, h.answered, h.issued, Tasks.forall_mem_set h.late rfl⟩
  | read hi =>
      obtain rfl := hnamed.eq hi
      rw [List.append_nil]
      refine ⟨h.cached, h.answered, h.issued, Tasks.forall_mem_set h.late ?_⟩
      simp [Pc.Late, State.readCache, h.cached]
  | leave hi | release hi =>
      have hsame := hlate hi
      rw [List.append_nil]
      exact ⟨h.cached, h.answered, h.issued, Tasks.forall_mem_set h.late hsame⟩
  | miss | join | allocate | wait | grant =>
      rw [List.append_nil]
      exact ⟨h.cached, h.answered, h.issued, Tasks.forall_mem_set h.late trivial⟩

structure Flight (name : Str) (trace : List Observation) (s : State) : Prop where
  named : Named name s
  accounted : Accounted s
  phase : Before name trace s ∨ ∃ addrs, After name addrs trace s

theorem Flight.step (h : Flight name trace s) (hchange : Change s e s' out)
    (hsucceeds : Succeeds e) (helects : ElectsUncached name s e) :
    Flight name (trace ++ out) s' := by
  refine ⟨h.named.step hchange hsucceeds, h.accounted.step hchange, ?_⟩
  rcases h.phase with hbefore | ⟨addrs, hafter⟩
  · exact hbefore.step h.accounted h.named hchange hsucceeds
  · exact .inr ⟨addrs, hafter.step h.named hchange hsucceeds helects⟩

theorem Flight.start (N ttl now : Nat) : Flight name [] (start N ttl now name) := by
  have hchecking : ∀ call ∈ (ServiceDiscovery.start N ttl now name).calls,
      call = ⟨name, .checking⟩ := fun call => List.eq_of_mem_replicate
  refine ⟨(Asked.start N ttl now).named, ⟨?_, ?_, ?_⟩, .inl ⟨rfl, ?_, ?_, ?_, ?_, ?_⟩⟩
  · intro sem hlt
    exact absurd hlt (Nat.not_lt_zero sem)
  · intro call hcall sem hsem
    simp [hchecking call hcall, Pc.semaphore] at hsem
  · intro other sem hsem
    simp [ServiceDiscovery.start, withResolver] at hsem
  · exact Nat.zero_le 1
  · exact fun _ => rfl
  · intro call hcall
    rw [hchecking call hcall]
    trivial
  · intro call hcall sem hsem
    simp [hchecking call hcall] at hsem
  · refine (List.countP_eq_zero.mpr fun call hcall => ?_).symm
    simp [hchecking call hcall, Call.isAnswering]

theorem length_calls_of_change (hchange : Change s e s' out) (hsucceeds : Succeeds e) :
    s'.calls.length = s.calls.length := by
  cases hchange with
  | resolve | clearCache | dropLeader | dropWaiter => exact hsucceeds.elim
  | elapse => rfl
  | _ => exact List.length_set

theorem Flight.singleLookup {N : Nat} (h : Flight name trace s) (hN : 1 ≤ N)
    (hlength : s.calls.length = N) (hsettled : Settled s) : SingleLookup N name s trace := by
  rcases h.phase with hbefore | ⟨addrs, hafter⟩
  · obtain ⟨⟨other, pc⟩, hfirst⟩ : ∃ call, s.calls[0]? = some call :=
      ⟨s.calls[0], List.getElem?_eq_getElem (by omega)⟩
    have hearly := hbefore.early _ (List.mem_of_getElem? hfirst)
    rcases hsettled.finished h.accounted hfirst with rfl | ⟨result, rfl⟩
    · exact hearly.elim
    · exact hearly.elim
  · refine ⟨hafter.issued, addrs, hafter.answered, List.eq_replicate_iff.mpr ⟨hlength, ?_⟩⟩
    intro call hcall
    obtain ⟨i, hi⟩ := List.mem_iff_getElem?.mp hcall
    obtain ⟨other, pc⟩ := call
    have hlate := hafter.late _ hcall
    obtain rfl := h.named.eq hi
    rcases hsettled.finished h.accounted hi with rfl | ⟨result, rfl⟩
    · exact hlate.elim
    · rw [show result = _ from hlate]

/--
`N` calls share one lookup exactly when every leader is elected while the name is
not in the cache.
-/
theorem singleLookup_iff_electsUncached {N ttl now : Nat} {events : List Event} (hN : 1 ≤ N)
    (hrun : step.exec (start N ttl now name) events = some (s, trace))
    (hsucceeds : ∀ e ∈ events, Succeeds e) (hsettled : Settled s) :
    SingleLookup N name s trace ↔
      step.Always (ElectsUncached name) (start N ttl now name) events := by
  have hall : step.Always (fun _ e => Succeeds e) (start N ttl now name) events :=
    Step.always_of_forall hsucceeds _
  constructor
  · intro hsingle
    exact electsUncached_of_count_le_one hrun hsucceeds hsettled (Nat.le_of_eq hsingle.1)
  · intro helects
    have hflight : Flight name trace s :=
      Step.invariant_of_always (fun h hC hs => h.step (step_change hs) hC.1 hC.2)
        (Flight.start N ttl now) (hall.and helects) hrun
    have hlength : s.calls.length = N :=
      Step.invariant_of_always (I := fun _ s => s.calls.length = N)
        (fun h hC hs => (length_calls_of_change (step_change hs) hC).trans h)
        (by simp [start]) hall hrun
    exact hflight.singleLookup hN hlength hsettled

section Example

private def host : Str := "test.example.".toList

private def loopback : List SocketAddr := [⟨.v4 0x7f000001, 8080⟩]

private def flightSteps (i : Nat) : List Event :=
  [.run i, .run i, .run i, .lookupDone i (.ok loopback), .run i, .run i, .run i]

/-- The second call is suspended after its cache check until the first has returned. -/
private def suspended : List Event :=
  [.run 0, .run 1] ++ flightSteps 0 ++ flightSteps 1

theorem suspended_two_lookups :
    (∀ e ∈ suspended, Succeeds e) ∧
      (step.exec (start 2 30 0 host) suspended).map
        (fun last => (last.1.calls.map Call.pc, last.2.count (.issued host))) =
        some ([.returned (.ok ⟨loopback, none⟩), .returned (.ok ⟨loopback, none⟩)], 2) := by
  decide

private def shared : List Event :=
  [.run 0, .run 1] ++ [.run 0, .run 0, .run 0, .run 1, .run 1] ++
    [.lookupDone 0 (.ok loopback), .run 0, .run 0, .run 0, .run 1, .run 1, .run 1]

private theorem settled_of_returned
    (h : ∀ call ∈ s.calls, call.pc = .returned (.ok ⟨loopback, none⟩)) : Settled s := by
  intro i
  cases hi : s.calls[i]? with
  | none => simp [step, hi]
  | some call =>
      obtain ⟨other, pc⟩ := call
      obtain rfl := h _ (List.mem_of_getElem? hi)
      simp [step, hi, advance, answerCall]

theorem shared_single_lookup :
    ∃ last, step.exec (start 2 30 0 host) shared = some last ∧
      SingleLookup 2 host last.1 last.2 := by
  have hsome : (step.exec (start 2 30 0 host) shared).isSome = true := by decide
  obtain ⟨last, hlast⟩ := Option.isSome_iff_exists.mp hsome
  have hreturned : ∀ call ∈ last.1.calls, call.pc = .returned (.ok ⟨loopback, none⟩) := by
    have hall : (step.exec (start 2 30 0 host) shared).all (fun last =>
        last.1.calls.all fun call => call.pc = .returned (.ok ⟨loopback, none⟩)) = true := by
      decide
    simpa [hlast] using hall
  exact ⟨last, hlast, (singleLookup_iff_electsUncached (by decide) hlast (by decide)
    (settled_of_returned hreturned)).mpr (by decide)⟩

end Example

end Interlink.ServiceDiscovery
