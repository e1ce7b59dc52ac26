import Interlink.Discovery.Flights

/-!
# What a waiter returns

A call that finds the permit taken waits for it and then reads the cache, whoever gave
the permit back and whatever the cache holds by then.  The results here say which
schedules hand it the outcome of a lookup that was answered after its own cache check,
and give one that hands it a failure although no lookup was answered.
-/

namespace Interlink.ServiceDiscovery

open Interlink.Foundation

variable {s s' : State} {e : Event} {out trace : List Observation} {name other : Str}
  {i sem : Nat} {pc pc' : Pc}

def Pc.resolves : Pc → Option Nat
  | .leading sem | .lookingUp sem | .caching sem _ => some sem
  | _ => none

theorem LeaderStage.ofResolves : LeaderStage Pc.resolves where
  leading _ := rfl
  lookingUp _ := rfl
  caching _ _ := rfl
  leads pc sem h := by cases pc <;> simp_all [Pc.resolves, Pc.leads]

def Pc.storing : Pc → Bool
  | .caching _ _ | .leaving _ _ => true
  | _ => false

theorem Pc.resolves_of_leads {pc : Pc} {sem : Nat} (hleads : pc.leads = some sem)
    (hstoring : pc.storing = false) : pc.resolves = some sem := by
  cases pc with
  | leaving _ _ => cases hstoring
  | _ => exact hleads

/-- The semaphore whose leader a call relies on, if it is not elected itself. -/
def State.awaited (s : State) : Call → Option Nat
  | ⟨name, .joining⟩ => s.inFlight name
  | ⟨_, .electing sem⟩ | ⟨_, .waiting sem⟩ | ⟨_, .reading sem⟩ => some sem
  | _ => none

def misses (s : State) : Event → Option Str
  | .run i =>
      match s.calls[i]? with
      | some ⟨name, .checking⟩ => if s.fresh name = none then some name else none
      | _ => none
  | _ => none

/--
No leader is dropped while a call waits for it, the cache is cleared only while every
call that relies on a leader has one that stores later, and no cache check misses while
a leader for the name is between its answer and the removal of its entry.
-/
structure Undisturbed (s : State) (e : Event) : Prop where
  leader : KeepsLeader s e
  cache : e = .clearCache → ∀ call ∈ s.calls, ∀ sem ∈ s.awaited call,
    s.InHand Pc.resolves call.name sem
  check : ∀ name ∈ misses s e, ∀ call ∈ s.calls, call.name = name → call.pc.storing = false

instance (s : State) (sem : Nat) : Decidable (s.Idle sem) :=
  inferInstanceAs (Decidable (_ ∧ _))

instance (s : State) (stage : Pc → Option Nat) (name : Str) (sem : Nat) :
    Decidable (s.InHand stage name sem) :=
  inferInstanceAs (Decidable (s.Idle sem ∨ ∃ call ∈ s.calls, _))

instance (s : State) (e : Event) : Decidable (KeepsLeader s e) :=
  inferInstanceAs (Decidable (∀ sem ∈ abandons s e, _))

instance (s : State) (e : Event) : Decidable (Undisturbed s e) :=
  decidable_of_iff (KeepsLeader s e ∧ (e = .clearCache → _) ∧ _)
    ⟨fun h => ⟨h.1, h.2.1, h.2.2⟩, fun h => ⟨h.leader, h.cache, h.check⟩⟩

/-! ## Results answered since the check -/

def told : Outcome → Outcome
  | .ok endpoints => .ok endpoints
  | .error _ => .error lookupFailed

def Answered (trace : List Observation) (name : Str) (result : Outcome) : Prop :=
  ∃ answer, .answered name answer ∈ trace ∧ result = resolveInner answer

theorem Answered.append {result : Outcome} (h : Answered trace name result)
    (out : List Observation) : Answered (trace ++ out) name result := by
  obtain ⟨answer, hmem, hresult⟩ := h
  exact ⟨answer, List.mem_append_left _ hmem, hresult⟩

def Informed (trace : List Observation) (name : Str) (s : State) : Prop :=
  ∃ result, Answered trace name result ∧ s.cached name = result.toOption

theorem Informed.readCache (h : Informed trace name s) :
    ∃ answer, .answered name answer ∈ trace ∧
      s.readCache name = told (resolveInner answer) := by
  obtain ⟨result, ⟨answer, hmem, rfl⟩, hcached⟩ := h
  refine ⟨answer, hmem, ?_⟩
  rw [State.readCache, hcached]
  cases resolveInner answer <;> rfl

def Stored (trace : List Observation) (name : Str) (s : State) : Prop :=
  ∀ sem result, ⟨name, .caching sem result⟩ ∈ s.calls → Answered trace name result

theorem cached_insertEntry (other : Str) (result : Outcome) :
    (s.insertEntry other result).cached name =
      if name = other then result.toOption else s.cached name := by
  simp only [State.cached, State.insertEntry, Function.update_apply]
  split <;> rfl

theorem Informed.step (h : Informed trace name s) (hstored : Stored trace name s)
    (hchange : Change s e s' out) (hclear : e ≠ .clearCache) :
    Informed (trace ++ out) name s' := by
  obtain ⟨result, hanswered, hcached⟩ := h
  cases hchange with
  | clearCache => exact absurd rfl hclear
  | @insert i other sem result hi =>
      by_cases hname : name = other
      · subst hname
        refine ⟨result, (hstored sem result (List.mem_of_getElem? hi)).append _, ?_⟩
        exact (cached_insertEntry name result).trans (if_pos rfl)
      · refine ⟨_, hanswered.append _, Eq.trans ?_ hcached⟩
        exact (cached_insertEntry other result).trans (if_neg hname)
  | resolve _ | hit _ _ | miss _ _ | join _ _ | allocate _ _ | elect _ _ | wait _ _ | issue _
  | answer _ _ | leave _ | grant _ _ | read _ | release _ | elapse _ | dropLeader _
  | dropWaiter _ => exact ⟨result, hanswered.append _, hcached⟩

namespace Stored

private theorem goto (h : Stored trace name s)
    (hcalls : s'.calls = s.calls.set i ⟨other, pc'⟩)
    (hpc : ∀ sem result, pc' ≠ .caching sem result) : Stored (trace ++ out) name s' := by
  intro sem result hmem
  rw [hcalls] at hmem
  rcases List.mem_or_eq_of_mem_set hmem with hold | hnew
  · exact (h sem result hold).append out
  · cases hnew
    exact absurd rfl (hpc sem result)

theorem step (h : Stored trace name s) (hchange : Change s e s' out) :
    Stored (trace ++ out) name s' := by
  cases hchange with
  | resolve other =>
      intro sem result hmem
      rcases List.mem_append.mp hmem with hold | hnew
      · exact (h sem result hold).append _
      · simp at hnew
  | @answer i other k answer hi =>
      intro sem result hmem
      rcases List.mem_or_eq_of_mem_set hmem with hold | hnew
      · exact (h sem result hold).append _
      · cases hnew
        exact ⟨answer, by simp, rfl⟩
  | hit | miss | join | allocate | elect | wait | issue | insert | leave | grant | read | release
  | dropLeader | dropWaiter => exact h.goto rfl (by simp)
  | elapse | clearCache => exact fun sem result hmem => (h sem result hmem).append _

end Stored

/-! ## Calls that rely on a leader -/

theorem Owned.awaited {owner : Nat → Str} (h : Owned owner s)
    (hi : s.calls[i]? = some ⟨name, pc⟩) (hsem : s.awaited ⟨name, pc⟩ = some sem) :
    owner sem = name := by
  cases pc with
  | joining => exact h.registered name sem hsem
  | electing _ | waiting _ | reading _ => exact h.name_eq hi hsem
  | checking | leading _ | lookingUp _ | caching _ _ | leaving _ _ | releasing _ _ | returned _
  | dropped => simp [State.awaited] at hsem

theorem Flights.inHand_of_check (h : Flights s)
    (hcheck : ∀ call ∈ s.calls, call.name = name → call.pc.storing = false)
    (hflight : s.inFlight name = some sem) : s.InHand Pc.resolves name sem := by
  rcases h.led name sem hflight with hidle | ⟨⟨other, pc⟩, hmem, hname, hleads⟩
  · exact .inl hidle
  · refine .inr ⟨⟨other, pc⟩, hmem, hname, ?_⟩
    exact Pc.resolves_of_leads hleads (hcheck _ hmem hname)

private theorem Flights.awaited_stay (h : Flights s) (hchange : Change s e s' out)
    (hi : s.calls[i]? = some ⟨name, pc⟩) (hsem : s'.awaited ⟨name, pc⟩ = some sem) :
    (∃ pc, s.calls[i]? = some ⟨name, pc⟩ ∧ s.awaited ⟨name, pc⟩ = some sem) ∨
      s'.InHand Pc.resolves name sem := by
  cases pc with
  | joining =>
      rcases h.accounted.inFlight_cases hchange hsem with hold | hidle
      · exact .inl ⟨.joining, hi, hold⟩
      · exact .inr (.inl hidle)
  | electing k => exact .inl ⟨.electing k, hi, hsem⟩
  | waiting k => exact .inl ⟨.waiting k, hi, hsem⟩
  | reading k => exact .inl ⟨.reading k, hi, hsem⟩
  | checking | leading _ | lookingUp _ | caching _ _ | leaving _ _ | releasing _ _ | returned _
  | dropped => simp [State.awaited] at hsem

theorem Flights.awaited_cases (h : Flights s) (hchange : Change s e s' out)
    (hcheck : ∀ name ∈ misses s e, ∀ call ∈ s.calls, call.name = name →
      call.pc.storing = false)
    (hi : s'.calls[i]? = some ⟨name, pc'⟩) (hsem : s'.awaited ⟨name, pc'⟩ = some sem) :
    (∃ pc, s.calls[i]? = some ⟨name, pc⟩ ∧ s.awaited ⟨name, pc⟩ = some sem) ∨
      s'.InHand Pc.resolves name sem := by
  have hcalls : ∀ {j : Nat} {other : Str} {pcJ : Pc},
      s'.calls = s.calls.set j ⟨other, pcJ⟩ →
      (i = j → other = name → pcJ = pc' →
        (∃ pc, s.calls[i]? = some ⟨name, pc⟩ ∧ s.awaited ⟨name, pc⟩ = some sem) ∨
          s'.InHand Pc.resolves name sem) →
      (∃ pc, s.calls[i]? = some ⟨name, pc⟩ ∧ s.awaited ⟨name, pc⟩ = some sem) ∨
        s'.InHand Pc.resolves name sem := by
    intro j other pcJ hset hmoved
    rw [hset] at hi
    rcases Tasks.getElem?_set_cases hi with ⟨hij, hcall⟩ | ⟨-, hold⟩
    · cases hcall
      exact hmoved hij rfl rfl
    · exact h.awaited_stay hchange hold hsem
  cases hchange with
  | resolve other =>
      rcases Tasks.getElem?_append_cases hi with ⟨-, hcall⟩ | hold
      · cases hcall
        simp [State.awaited] at hsem
      · exact h.awaited_stay (.resolve other) hold hsem
  | @miss j other hj hfresh =>
      refine hcalls rfl ?_
      rintro rfl rfl rfl
      have hinHand := h.inHand_of_check (hcheck other (by simp [misses, hj, hfresh])) hsem
      exact .inr (hinHand.goto hj rfl (Nat.le_refl _) (by simp) (by simp [Pc.resolves]))
  | join hj hflight =>
      refine hcalls rfl ?_
      rintro rfl rfl rfl
      exact .inl ⟨.joining, hj, hflight.trans hsem⟩
  | @allocate j other hj hflight =>
      refine hcalls rfl ?_
      rintro rfl rfl rfl
      refine .inr (.inl ?_)
      have hregistered : (s.joinFlight other).inFlight other = some sem := by
        rw [inFlight_joinFlight, if_pos rfl]
        exact hsem
      refine (h.accounted.inFlight_cases (.allocate hj hflight) hregistered).resolve_left ?_
      simp [hflight]
  | wait hj =>
      refine hcalls rfl ?_
      rintro rfl rfl rfl
      exact .inl ⟨_, hj, hsem⟩
  | grant hj =>
      refine hcalls rfl ?_
      rintro rfl rfl rfl
      exact .inl ⟨_, hj, hsem⟩
  | hit | elect | issue | answer | insert | leave | read | release | dropLeader | dropWaiter =>
      refine hcalls rfl ?_
      rintro rfl rfl rfl
      simp [State.awaited] at hsem
  | elapse duration => exact h.awaited_stay (.elapse duration) hi hsem
  | clearCache => exact h.awaited_stay .clearCache hi hsem

structure Follows (trace : List Observation) (name : Str) (i : Nat) (s : State) : Prop where
  flights : Flights s
  stored : Stored trace name s
  awaits : ∀ pc, s.calls[i]? = some ⟨name, pc⟩ → ∀ sem, s.awaited ⟨name, pc⟩ = some sem →
    Informed trace name s ∨ s.InHand Pc.resolves name sem

namespace Follows

theorem begin (h : Flights s) (hundisturbed : Undisturbed s (.run i))
    (hi : s.calls[i]? = some ⟨name, .checking⟩) (hfresh : s.fresh name = none) :
    Follows [] name i (s.goto i name .joining) := by
  have hmiss : name ∈ misses s (.run i) := by simp [misses, hi, hfresh]
  refine ⟨h.step (.miss hi hfresh) hundisturbed.leader, fun sem result hmem => ?_,
    fun pc hpc sem hsem => ?_⟩
  · rcases List.mem_or_eq_of_mem_set hmem with hold | hnew
    · have hstoring := hundisturbed.check name hmiss _ hold rfl
      simp [Pc.storing] at hstoring
    · cases hnew
  · have hcall : (s.goto i name .joining).calls[i]? = some ⟨name, .joining⟩ :=
      Tasks.getElem?_set_of hi _
    cases hcall.symm.trans hpc
    have hinHand := h.inHand_of_check (hundisturbed.check name hmiss) hsem
    exact .inr (hinHand.goto hi rfl (Nat.le_refl _) (by simp) (by simp [Pc.resolves]))

private theorem awaits_step (h : Follows trace name i s) (hchange : Change s e s' out)
    (hundisturbed : Undisturbed s e) (hi : s.calls[i]? = some ⟨name, pc⟩)
    (hsem : s.awaited ⟨name, pc⟩ = some sem) :
    Informed (trace ++ out) name s' ∨ s'.InHand Pc.resolves name sem := by
  have hkept : s.InHand Pc.resolves name sem →
      Informed (trace ++ out) name s' ∨ s'.InHand Pc.resolves name sem := by
    intro hinHand
    obtain ⟨owner, howned⟩ := h.flights.owned
    rcases hinHand.step .ofResolves h.flights.accounted howned (howned.awaited hi hsem) hchange
      hundisturbed.leader with hstep | hpasses
    · exact .inr hstep
    · cases hpasses with
      | @insert j k result hj =>
          refine .inl ⟨result, (h.stored k result (List.mem_of_getElem? hj)).append out, ?_⟩
          exact (cached_insertEntry name result).trans (if_pos rfl)
      | leave _ hstage => simp [Pc.resolves] at hstage
  rcases h.awaits pc hi sem hsem with hinformed | hinHand
  · by_cases hclear : e = .clearCache
    · exact hkept (hundisturbed.cache hclear _ (List.mem_of_getElem? hi) sem hsem)
    · exact .inl (hinformed.step h.stored hchange hclear)
  · exact hkept hinHand

theorem step (h : Follows trace name i s) (hchange : Change s e s' out)
    (hundisturbed : Undisturbed s e) : Follows (trace ++ out) name i s' where
  flights := h.flights.step hchange hundisturbed.leader
  stored := h.stored.step hchange
  awaits pc hi sem hsem := by
    rcases h.flights.awaited_cases hchange hundisturbed.check hi hsem with
      ⟨pcOld, hold, hawaited⟩ | hinHand
    · exact h.awaits_step hchange hundisturbed hold hawaited
    · exact .inr hinHand

/-- A call that reads owns the only permit, so no leader of its semaphore is left. -/
theorem informed_of_reading (h : Follows trace name i s)
    (hi : s.calls[i]? = some ⟨name, .reading sem⟩) : Informed trace name s := by
  have hlt := h.flights.accounted.lt_length hi rfl
  have hone := h.flights.accounted.permits sem hlt
  have hholds : Call.holds sem ⟨name, .reading sem⟩ = true := by simp [Call.holds, Pc.holds]
  have hpos := Tasks.countP_pos hi hholds
  rcases h.awaits _ hi sem rfl with hinformed | hidle | ⟨⟨other, pc⟩, hmem, -, hstage⟩
  · exact hinformed
  · exact absurd hidle.1 (by omega)
  · obtain ⟨j, hj⟩ := List.mem_iff_getElem?.mp hmem
    have hleads := LeaderStage.ofResolves.leads _ _ hstage
    obtain rfl : i = j := Tasks.eq_of_countP_le_one (p := Call.holds sem) (by omega) hi hj hholds
      (Pc.holds_of_leads hleads)
    cases hi.symm.trans hj
    simp [Pc.resolves] at hstage

end Follows

theorem returned_step {result : Outcome} (hchange : Change s e s' out)
    (hi : s.calls[i]? = some ⟨name, .returned result⟩) :
    s'.calls[i]? = some ⟨name, .returned result⟩ := by
  have hmoved : ∀ {j : Nat} {call : Call}, s.calls[j]? = some call →
      (∀ result, call.pc ≠ .returned result) → ∀ call' : Call,
      (s.calls.set j call')[i]? = some ⟨name, .returned result⟩ := by
    intro j call hj hpc call'
    refine Tasks.getElem?_set_of_ne hj hi ?_ call'
    rintro rfl
    exact hpc result rfl
  cases hchange with
  | resolve other => exact Tasks.getElem?_append_of hi _
  | hit hj | miss hj | join hj | allocate hj | elect hj | wait hj | issue hj | answer _ hj
  | insert hj | leave hj | grant hj | read hj | release hj | dropLeader hj | dropWaiter hj =>
      exact hmoved hj (by simp) _
  | elapse _ | clearCache => exact hi

/--
In a run whose steps are all undisturbed, what a waiter returns is what a lookup for the
name told its leader after the cache check of the waiter.
-/
theorem waiter_outcome {ttl now : Nat} {before after : List Event} {m : State}
    {earlier : List Observation}
    (hbefore : step.exec (withResolver ttl now) before = some (m, earlier))
    (hbegin : m.calls[i]? = some ⟨name, .checking⟩)
    (hafter : step.exec m (.run i :: after) = some (s, trace))
    (hundisturbed : step.Always Undisturbed (withResolver ttl now) (before ++ .run i :: after))
    (hreading : s.calls[i]? = some ⟨name, .reading sem⟩) :
    ∃ answer, .answered name answer ∈ trace ∧
      step s (.run i) = some (s.goto i name (.releasing sem (told (resolveInner answer))), [])
      := by
  obtain ⟨hleft, hright⟩ := Step.Always.of_append hbefore hundisturbed
  have hflights : Flights m :=
    Step.invariant_of_always (I := fun _ s => Flights s)
      (fun h hC hstep => h.step (step_change hstep) hC.leader) (.withResolver ttl now) hleft
      hbefore
  obtain ⟨next, out, rest, hnext, hrest, rfl⟩ := Step.exec_cons.mp hafter
  simp only [Step.Always, hnext] at hright
  obtain ⟨hfirst, hright⟩ := hright
  cases hfresh : m.fresh name with
  | some endpoints =>
      obtain ⟨rfl, rfl⟩ : m.goto i name (.returned (.ok endpoints)) = next ∧ [] = out := by
        simpa [step, hbegin, advance, hfresh] using hnext
      have hlast : s.calls[i]? = some ⟨name, .returned (.ok endpoints)⟩ :=
        Step.invariant (I := fun _ s => s.calls[i]? = some ⟨name, .returned (.ok endpoints)⟩)
          (fun h hstep => returned_step (step_change hstep) h) (Tasks.getElem?_set_of hbegin _)
          hrest
      cases hlast.symm.trans hreading
  | none =>
      obtain ⟨rfl, rfl⟩ : m.goto i name .joining = next ∧ [] = out := by
        simpa [step, hbegin, advance, hfresh] using hnext
      have hlast : Follows rest name i s :=
        Step.invariant_of_always (I := fun trace s => Follows trace name i s)
          (fun h hC hstep => h.step (step_change hstep) hC)
          (.begin hflights hfirst hbegin hfresh) hright hrest
      obtain ⟨answer, hmem, hread⟩ := (hlast.informed_of_reading hreading).readCache
      refine ⟨answer, hmem, ?_⟩
      simp [step, hreading, advance, hread]

section Example

private def ledger : Str := "ledger.example.".toList

private def electAndWait : List Event :=
  [.run 0, .run 0, .run 0, .run 0, .run 1, .run 1, .run 1]

/-- The leader is dropped at its lookup: the waiter gets its permit and reads an empty cache. -/
theorem waiter_abandoned :
    (step.exec (withResolver 30 0)
      ([.resolve ledger, .resolve ledger] ++ electAndWait ++ [.drop 0, .run 1, .run 1, .run 1])).map
        (fun last => (last.1.calls, last.2)) =
      some ([⟨ledger, .dropped⟩, ⟨ledger, .returned (.error lookupFailed)⟩], [.issued ledger]) := by
  decide

private def lookup : List Event :=
  [.resolve ledger, .resolve ledger, .run 0, .run 0, .run 0, .run 0]

private def duringLookup : State :=
  ⟨30, fun _ => none, Function.update (fun _ => none) ledger (some 0), [0],
    [⟨ledger, .lookingUp 0⟩, ⟨ledger, .checking⟩], 0⟩

private def served : List Event :=
  [.run 1, .run 1, .lookupDone 0 (.ok []), .run 0, .run 0, .run 0, .run 1]

theorem waiter_served :
    ∃ last, step.exec duringLookup (.run 1 :: served) = some last ∧
      ∃ answer, .answered ledger answer ∈ last.2 ∧
        step last.1 (.run 1) =
          some (last.1.goto 1 ledger (.releasing 0 (told (resolveInner answer))), []) := by
  have hlookup : step.exec (withResolver 30 0) lookup = some (duringLookup, [.issued ledger]) :=
    rfl
  have hsome : (step.exec duringLookup (.run 1 :: served)).isSome = true := by decide
  obtain ⟨last, hlast⟩ := Option.isSome_iff_exists.mp hsome
  have hreading : (step.exec duringLookup (.run 1 :: served)).map (fun last => last.1.calls[1]?) =
      some (some ⟨ledger, .reading 0⟩) := by decide
  rw [hlast] at hreading
  have hundisturbed :
      step.Always Undisturbed (withResolver 30 0) (lookup ++ .run 1 :: served) := by decide
  exact ⟨last, hlast,
    waiter_outcome hlookup rfl hlast hundisturbed (Option.some.inj hreading)⟩

end Example

end Interlink.ServiceDiscovery
