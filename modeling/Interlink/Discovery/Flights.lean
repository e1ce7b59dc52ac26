import Interlink.Discovery.SingleFlight

/-!
# What the in-flight map registers

Whoever misses the cache registers a semaphore for the name, and any leader for the name
removes whatever is registered.  A registered semaphore has a leader that will still
remove it, or it is idle: its permit is free and nobody waits for it.
-/

namespace Interlink.ServiceDiscovery

open Interlink.Foundation

variable {s s' : State} {e : Event} {out trace : List Observation} {name other : Str}
  {i sem : Nat} {pc pc' : Pc} {stage : Pc → Option Nat}

def State.Idle (s : State) (sem : Nat) : Prop :=
  0 < s.available sem ∧ ∀ call ∈ s.calls, call.pc ≠ .waiting sem

def State.Staged (s : State) (stage : Pc → Option Nat) (name : Str) (sem : Nat) : Prop :=
  ∃ call ∈ s.calls, call.name = name ∧ stage call.pc = some sem

def State.InHand (s : State) (stage : Pc → Option Nat) (name : Str) (sem : Nat) : Prop :=
  s.Idle sem ∨ s.Staged stage name sem

def abandons (s : State) : Event → Option Nat
  | .drop i =>
      match s.calls[i]? with
      | some ⟨_, .lookingUp sem⟩ => some sem
      | _ => none
  | _ => none

def KeepsLeader (s : State) (e : Event) : Prop :=
  ∀ sem ∈ abandons s e, ∀ call ∈ s.calls, call.pc ≠ .waiting sem

/-! ## Semaphores belong to names -/

structure Owned (owner : Nat → Str) (s : State) : Prop where
  calls : ∀ call ∈ s.calls, ∀ sem, call.pc.semaphore = some sem → owner sem = call.name
  registered : ∀ name sem, s.inFlight name = some sem → owner sem = name

namespace Owned

variable {owner : Nat → Str}

theorem name_eq (h : Owned owner s) (hi : s.calls[i]? = some ⟨other, pc⟩)
    (hpc : pc.semaphore = some sem) : owner sem = other :=
  h.calls _ (List.mem_of_getElem? hi) sem hpc

private theorem goto (h : Owned owner s) (hcalls : s'.calls = s.calls.set i ⟨other, pc'⟩)
    (hflight : s'.inFlight = s.inFlight)
    (hpc : ∀ sem, pc'.semaphore = some sem → owner sem = other) : Owned owner s' where
  calls := by
    rw [hcalls]
    exact Tasks.forall_mem_set h.calls hpc
  registered := by
    rw [hflight]
    exact h.registered

private theorem stay (h : Owned owner s) (hi : s.calls[i]? = some ⟨other, pc⟩)
    (hcalls : s'.calls = s.calls.set i ⟨other, pc'⟩) (hflight : s'.inFlight = s.inFlight)
    (hpc : pc'.semaphore = pc.semaphore) : Owned owner s' :=
  h.goto hcalls hflight fun _ hsem => h.name_eq hi (hpc ▸ hsem)

private theorem allocate (h : Owned owner s) (haccounted : Accounted s)
    (hcalls : s'.calls = s.calls.set i ⟨name, .electing s.permits.length⟩)
    (hflight : s'.inFlight = (s.joinFlight name).inFlight) :
    Owned (Function.update owner s.permits.length name) s' where
  calls := by
    rw [hcalls]
    refine Tasks.forall_mem_set (fun call hcall sem hsem => ?_) fun sem hsem => ?_
    · have hlt := haccounted.known call hcall sem hsem
      rw [Function.update_of_ne (Nat.ne_of_lt hlt)]
      exact h.calls call hcall sem hsem
    · obtain rfl : s.permits.length = sem := Option.some.inj hsem
      exact Function.update_self ..
  registered other sem hsem := by
    rw [hflight, inFlight_joinFlight] at hsem
    split at hsem
    next heq =>
      obtain rfl : s.permits.length = sem := Option.some.inj hsem
      rw [Function.update_self, heq]
    next =>
      have hlt := haccounted.registered other sem hsem
      rw [Function.update_of_ne (Nat.ne_of_lt hlt)]
      exact h.registered other sem hsem

theorem step (h : Owned owner s) (haccounted : Accounted s) (hchange : Change s e s' out) :
    ∃ owner, Owned owner s' := by
  cases hchange with
  | resolve name =>
      exact ⟨owner, Tasks.forall_mem_append h.calls (by simp [Pc.semaphore]), h.registered⟩
  | hit | miss | release | dropLeader | dropWaiter =>
      exact ⟨owner, h.goto rfl rfl (by simp [Pc.semaphore])⟩
  | join hi hflight =>
      refine ⟨owner, h.goto rfl rfl fun sem hsem => ?_⟩
      obtain rfl := Option.some.inj hsem
      exact h.registered _ _ hflight
  | allocate hi hflight => exact ⟨_, h.allocate haccounted rfl rfl⟩
  | elect hi | wait hi | issue hi | answer _ hi | insert hi | grant hi | read hi =>
      exact ⟨owner, h.stay hi rfl rfl rfl⟩
  | @leave i other sem result hi =>
      have hgoto : Owned owner (s.goto i other (.releasing sem result)) := h.stay hi rfl rfl rfl
      refine ⟨owner, hgoto.calls, fun name k hk => ?_⟩
      change (s.leaveFlight other).inFlight name = some k at hk
      rw [inFlight_leaveFlight] at hk
      split at hk
      next => cases hk
      next => exact h.registered name k hk
  | elapse | clearCache => exact ⟨owner, h.calls, h.registered⟩

end Owned

/-! ## Idle, or with a leader at work -/

/-- The stages that a leader is in at least until its lookup is answered. -/
structure LeaderStage (stage : Pc → Option Nat) : Prop where
  leading : ∀ sem, stage (.leading sem) = some sem
  lookingUp : ∀ sem, stage (.lookingUp sem) = some sem
  caching : ∀ sem result, stage (.caching sem result) = some sem
  leads : ∀ pc sem, stage pc = some sem → pc.leads = some sem

theorem LeaderStage.ofLeads : LeaderStage Pc.leads :=
  ⟨fun _ => rfl, fun _ => rfl, fun _ _ => rfl, fun _ _ h => h⟩

inductive Passes (stage : Pc → Option Nat) (s : State) (name : Str) : State → Prop
  | insert {i k result} (hi : s.calls[i]? = some ⟨name, .caching k result⟩)
      (hstage : stage (.leaving k result) ≠ some k) :
      Passes stage s name ((s.insertEntry name result).goto i name (.leaving k result))
  | leave {i k result} (hi : s.calls[i]? = some ⟨name, .leaving k result⟩)
      (hstage : stage (.leaving k result) = some k) :
      Passes stage s name ((s.leaveFlight name).goto i name (.releasing k result))

theorem State.Staged.goto (h : s.Staged stage name sem)
    (hi : s.calls[i]? = some ⟨other, pc⟩) (hcalls : s'.calls = s.calls.set i ⟨other, pc'⟩)
    (hpc : other = name → stage pc = some sem → stage pc' = some sem) :
    s'.Staged stage name sem := by
  obtain ⟨⟨callName, pcJ⟩, hmem, rfl, hstage⟩ := h
  obtain ⟨j, hj⟩ := List.mem_iff_getElem?.mp hmem
  by_cases hij : i = j
  · subst hij
    cases hi.symm.trans hj
    refine ⟨⟨other, pc'⟩, ?_, rfl, hpc rfl hstage⟩
    rw [hcalls]
    exact Tasks.mem_set_of hi _
  · refine ⟨⟨callName, pcJ⟩, List.mem_of_getElem? (i := j) ?_, rfl, hstage⟩
    rw [hcalls, List.getElem?_set_ne hij, hj]

theorem State.Idle.goto (h : s.Idle sem) (hcalls : s'.calls = s.calls.set i ⟨other, pc'⟩)
    (havailable : s.available sem ≤ s'.available sem) (hpc : pc' ≠ .waiting sem) :
    s'.Idle sem := by
  refine ⟨Nat.lt_of_lt_of_le h.1 havailable, ?_⟩
  rw [hcalls]
  exact Tasks.forall_mem_set h.2 hpc

theorem Accounted.le_available_givePermit (h : Accounted s)
    (hi : s.calls[i]? = some ⟨other, pc⟩) {k : Nat} (hpc : pc.semaphore = some k) (sem : Nat) :
    s.available sem ≤ (s.givePermit k).available sem := by
  rw [available_givePermit (h.lt_length hi hpc)]
  split
  next heq =>
    subst heq
    exact Nat.le_succ _
  next => exact Nat.le_refl _

theorem le_available_joinFlight (name : Str) (sem : Nat) :
    s.available sem ≤ (s.joinFlight name).available sem := by
  by_cases hlt : sem < s.permits.length
  · exact Nat.le_of_eq (available_joinFlight name hlt).symm
  · simp [State.available, List.getElem?_eq_none (Nat.le_of_not_lt hlt)]

namespace State.InHand

theorem goto (h : s.InHand stage name sem) (hi : s.calls[i]? = some ⟨other, pc⟩)
    (hcalls : s'.calls = s.calls.set i ⟨other, pc'⟩)
    (havailable : s.available sem ≤ s'.available sem) (hwaiting : pc' ≠ .waiting sem)
    (hstage : other = name → stage pc = some sem → stage pc' = some sem) :
    s'.InHand stage name sem := by
  rcases h with hidle | hstaged
  · exact .inl (hidle.goto hcalls havailable hwaiting)
  · exact .inr (hstaged.goto hi hcalls hstage)

private theorem elect (h : s.InHand stage name sem) (hstages : LeaderStage stage) {k : Nat}
    (hi : s.calls[i]? = some ⟨other, .electing k⟩) (hname : k = sem → other = name) :
    ((s.takePermit k).goto i other (.leading k)).InHand stage name sem := by
  by_cases hk : k = sem
  · subst hk
    exact .inr ⟨⟨other, .leading k⟩, Tasks.mem_set_of hi _, hname rfl, hstages.leading k⟩
  · refine h.goto hi rfl ?_ (by simp) fun _ hstage => ?_
    · change s.available sem ≤ (s.takePermit k).available sem
      rw [available_takePermit, if_neg (Ne.symm hk)]
    · cases hstages.leads _ _ hstage

private theorem grant (h : s.InHand stage name sem) (hstages : LeaderStage stage) {k : Nat}
    (hi : s.calls[i]? = some ⟨other, .waiting k⟩) :
    ((s.takePermit k).goto i other (.reading k)).InHand stage name sem := by
  rcases h with hidle | hstaged
  · have hk : k ≠ sem := by
      rintro rfl
      exact hidle.2 _ (List.mem_of_getElem? hi) rfl
    refine .inl (hidle.goto rfl ?_ (by simp))
    change s.available sem ≤ (s.takePermit k).available sem
    rw [available_takePermit, if_neg (Ne.symm hk)]
  · refine .inr (hstaged.goto hi rfl fun _ hstage => ?_)
    cases hstages.leads _ _ hstage

private theorem wait (h : s.InHand stage name sem) (hstages : LeaderStage stage) {k : Nat}
    (hi : s.calls[i]? = some ⟨other, .electing k⟩) (htaken : s.available k = 0) :
    (s.goto i other (.waiting k)).InHand stage name sem := by
  rcases h with hidle | hstaged
  · refine .inl (hidle.goto rfl (Nat.le_refl _) ?_)
    rintro ⟨rfl⟩
    exact absurd hidle.1 (by omega)
  · refine .inr (hstaged.goto hi rfl fun _ hstage => ?_)
    cases hstages.leads _ _ hstage

private theorem dropLeader (h : s.InHand stage name sem) (hstages : LeaderStage stage)
    (haccounted : Accounted s) {k : Nat} (hi : s.calls[i]? = some ⟨other, .lookingUp k⟩)
    (hkeeps : ∀ call ∈ s.calls, call.pc ≠ .waiting k) :
    ((s.givePermit k).goto i other .dropped).InHand stage name sem := by
  by_cases hk : k = sem
  · subst hk
    refine .inl ⟨?_, Tasks.forall_mem_set hkeeps (by simp)⟩
    change 0 < (s.givePermit k).available k
    rw [available_givePermit (haccounted.lt_length hi rfl), if_pos rfl]
    exact Nat.succ_pos _
  · refine h.goto hi rfl (haccounted.le_available_givePermit hi rfl sem) (by simp)
      fun _ hstage => ?_
    exact absurd (Option.some.inj (hstages.leads _ _ hstage)) hk

private theorem stay (h : s.InHand stage name sem) (hstages : LeaderStage stage)
    (hi : s.calls[i]? = some ⟨other, pc⟩) (hcalls : s'.calls = s.calls.set i ⟨other, pc'⟩)
    (havailable : s.available sem ≤ s'.available sem) (hwaiting : pc' ≠ .waiting sem)
    (hleads : pc.leads = none) : s'.InHand stage name sem := by
  refine h.goto hi hcalls havailable hwaiting fun _ hstage => ?_
  have hsome := hstages.leads _ _ hstage
  simp [hleads] at hsome

private theorem insert (h : s.InHand stage name sem) (hstages : LeaderStage stage) {k : Nat}
    {result : Outcome} (hi : s.calls[i]? = some ⟨other, .caching k result⟩)
    (hs' : s' = (s.insertEntry other result).goto i other (.leaving k result)) :
    s'.InHand stage name sem ∨ Passes stage s name s' := by
  by_cases hpass : other = name ∧ stage (.leaving k result) ≠ some k
  · obtain ⟨rfl, hstage⟩ := hpass
    exact .inr (hs' ▸ .insert hi hstage)
  · subst hs'
    refine .inl (h.goto hi rfl (Nat.le_refl _) (by simp) fun hname hstage => ?_)
    obtain rfl : k = sem := Option.some.inj ((hstages.caching k result).symm.trans hstage)
    exact not_not.mp fun hleaving => hpass ⟨hname, hleaving⟩

private theorem leave (h : s.InHand stage name sem) (hstages : LeaderStage stage) {k : Nat}
    {result : Outcome} (hi : s.calls[i]? = some ⟨other, .leaving k result⟩)
    (hs' : s' = (s.leaveFlight other).goto i other (.releasing k result)) :
    s'.InHand stage name sem ∨ Passes stage s name s' := by
  by_cases hpass : other = name ∧ stage (.leaving k result) = some k
  · obtain ⟨rfl, hstage⟩ := hpass
    exact .inr (hs' ▸ .leave hi hstage)
  · subst hs'
    refine .inl (h.goto hi rfl (Nat.le_refl _) (by simp) fun hname hstage => ?_)
    obtain rfl : k = sem := Option.some.inj (hstages.leads _ _ hstage)
    exact absurd ⟨hname, hstage⟩ hpass

theorem step {owner : Nat → Str} (h : s.InHand stage name sem) (hstages : LeaderStage stage)
    (haccounted : Accounted s) (howned : Owned owner s) (howner : owner sem = name)
    (hchange : Change s e s' out) (hkeeps : KeepsLeader s e) :
    s'.InHand stage name sem ∨ Passes stage s name s' := by
  cases hchange with
  | resolve other =>
      rcases h with hidle | ⟨call, hmem, hstage⟩
      · exact .inl (.inl ⟨hidle.1, Tasks.forall_mem_append hidle.2 (by simp)⟩)
      · exact .inl (.inr ⟨call, List.mem_append_left _ hmem, hstage⟩)
  | hit hi | miss hi | join hi | read hi | dropWaiter hi =>
      exact .inl (h.stay hstages hi rfl (Nat.le_refl _) (by simp) rfl)
  | @allocate i other hi =>
      exact .inl (h.stay hstages hi rfl (le_available_joinFlight other sem) (by simp) rfl)
  | elect hi =>
      refine .inl (h.elect hstages hi fun hk => ?_)
      subst hk
      exact (howned.name_eq hi rfl).symm.trans howner
  | wait hi htaken => exact .inl (h.wait hstages hi htaken)
  | @issue i other k hi =>
      refine .inl (h.goto hi rfl (Nat.le_refl _) (by simp) fun _ hstage => ?_)
      exact (hstages.lookingUp k).trans ((hstages.leading k).symm.trans hstage)
  | @answer i other k answer hi =>
      refine .inl (h.goto hi rfl (Nat.le_refl _) (by simp) fun _ hstage => ?_)
      exact (hstages.caching k _).trans ((hstages.lookingUp k).symm.trans hstage)
  | insert hi => exact h.insert hstages hi rfl
  | leave hi => exact h.leave hstages hi rfl
  | grant hi => exact .inl (h.grant hstages hi)
  | release hi =>
      exact .inl (h.stay hstages hi rfl (haccounted.le_available_givePermit hi rfl sem)
        (by simp) rfl)
  | elapse | clearCache => exact .inl h
  | dropLeader hi =>
      exact .inl (h.dropLeader hstages haccounted hi (hkeeps _ (by simp [abandons, hi])))

end State.InHand

/-! ## Registered semaphores have a leader or are idle -/

structure Flights (s : State) : Prop where
  accounted : Accounted s
  owned : ∃ owner, Owned owner s
  led : ∀ name sem, s.inFlight name = some sem → s.InHand Pc.leads name sem

theorem Accounted.inFlight_cases (h : Accounted s) (hchange : Change s e s' out)
    (hflight : s'.inFlight name = some sem) : s.inFlight name = some sem ∨ s'.Idle sem := by
  cases hchange with
  | @allocate i other hi =>
      change (s.joinFlight other).inFlight name = some sem at hflight
      rw [inFlight_joinFlight] at hflight
      split at hflight
      next =>
        obtain rfl : s.permits.length = sem := Option.some.inj hflight
        refine .inr ⟨?_, Tasks.forall_mem_set (fun call hcall hwaiting => ?_) (by simp)⟩
        · change 0 < (s.joinFlight other).available s.permits.length
          simp [State.joinFlight, State.available]
        · exact absurd (h.known call hcall _ (by rw [hwaiting]; rfl)) (Nat.lt_irrefl _)
      next => exact .inl hflight
  | @leave i other k result hi =>
      change (s.leaveFlight other).inFlight name = some sem at hflight
      rw [inFlight_leaveFlight] at hflight
      split at hflight
      next => cases hflight
      next => exact .inl hflight
  | resolve _ | hit _ _ | miss _ _ | join _ _ | elect _ _ | wait _ _ | issue _ | answer _ _
  | insert _ | grant _ _ | read _ | release _ | elapse _ | clearCache | dropLeader _
  | dropWaiter _ => exact .inl hflight

namespace Flights

theorem withResolver (ttl now : Nat) : Flights (withResolver ttl now) where
  accounted := .withResolver ttl now
  owned := ⟨fun _ => [], fun call hcall => absurd hcall List.not_mem_nil,
    fun name sem hsem => by simp [ServiceDiscovery.withResolver] at hsem⟩
  led name sem hsem := by simp [ServiceDiscovery.withResolver] at hsem

theorem step (h : Flights s) (hchange : Change s e s' out) (hkeeps : KeepsLeader s e) :
    Flights s' := by
  obtain ⟨owner, howned⟩ := h.owned
  refine ⟨h.accounted.step hchange, howned.step h.accounted hchange, fun name sem hflight => ?_⟩
  rcases h.accounted.inFlight_cases hchange hflight with hold | hidle
  · have howner := howned.registered name sem hold
    rcases (h.led name sem hold).step .ofLeads h.accounted howned howner hchange hkeeps with
      hkept | hpasses
    · exact hkept
    · cases hpasses with
      | insert hi hstage => exact absurd rfl hstage
      | leave hi =>
          change (s.leaveFlight name).inFlight name = some sem at hflight
          simp [inFlight_leaveFlight] at hflight
  · exact .inl hidle

end Flights

/-! ## Entries are removed -/

/-- Somebody will still remove the entry: its leader, or whoever is elected first. -/
def State.Attended (s : State) (name : Str) (sem : Nat) : Prop :=
  s.Staged Pc.leads name sem ∨ ⟨name, .electing sem⟩ ∈ s.calls

def Attended (s : State) : Prop :=
  ∀ name sem, s.inFlight name = some sem → s.Attended name sem

def Event.cancels : Event → Bool
  | .drop _ => true
  | _ => false

theorem keepsLeader_of_not_cancels (h : e.cancels = false) : KeepsLeader s e := by
  cases e <;> simp_all [Event.cancels, KeepsLeader, abandons]

theorem State.Attended.goto (h : s.Attended name sem) (hi : s.calls[i]? = some ⟨other, pc⟩)
    (hcalls : s'.calls = s.calls.set i ⟨other, pc'⟩)
    (hleads : other = name → pc.leads = some sem → pc'.leads = some sem)
    (helecting : other = name → pc = .electing sem → s'.Attended name sem) :
    s'.Attended name sem := by
  rcases h with hled | hmem
  · exact .inl (hled.goto hi hcalls hleads)
  · obtain ⟨j, hj⟩ := List.mem_iff_getElem?.mp hmem
    by_cases hij : i = j
    · subst hij
      cases hi.symm.trans hj
      exact helecting rfl rfl
    · refine .inr (List.mem_of_getElem? (i := j) ?_)
      rw [hcalls, List.getElem?_set_ne hij, hj]

namespace Attended

private theorem allocate (h : Attended s) (hi : s.calls[i]? = some ⟨other, .joining⟩) :
    Attended ((s.joinFlight other).goto i other (.electing s.permits.length)) := by
  intro name k hflight
  change (s.joinFlight other).inFlight name = some k at hflight
  rw [inFlight_joinFlight] at hflight
  split at hflight
  next hname =>
    obtain rfl : s.permits.length = k := Option.some.inj hflight
    subst hname
    exact .inr (Tasks.mem_set_of hi _)
  next => exact (h name k hflight).goto hi rfl (by simp [Pc.leads]) (by simp)

private theorem elect (h : Attended s) (hi : s.calls[i]? = some ⟨other, .electing sem⟩) :
    Attended ((s.takePermit sem).goto i other (.leading sem)) := by
  intro name k hflight
  refine (h name k hflight).goto hi rfl (by simp [Pc.leads]) fun hname hpc => ?_
  obtain rfl : sem = k := Pc.electing.inj hpc
  subst hname
  exact .inl ⟨⟨other, .leading sem⟩, Tasks.mem_set_of hi _, rfl, rfl⟩

private theorem wait (h : Attended s) (hflights : Flights s)
    (hi : s.calls[i]? = some ⟨other, .electing sem⟩) (htaken : s.available sem = 0) :
    Attended (s.goto i other (.waiting sem)) := by
  intro name k hflight
  refine (h name k hflight).goto hi rfl (by simp [Pc.leads]) fun _ hpc => ?_
  obtain rfl : sem = k := Pc.electing.inj hpc
  rcases hflights.led name sem hflight with hidle | hled
  · exact absurd hidle.1 (by omega)
  · exact .inl (hled.goto hi rfl (by simp [Pc.leads]))

private theorem leave (h : Attended s) {result : Outcome}
    (hi : s.calls[i]? = some ⟨other, .leaving sem result⟩) :
    Attended ((s.leaveFlight other).goto i other (.releasing sem result)) := by
  intro name k hflight
  change (s.leaveFlight other).inFlight name = some k at hflight
  rw [inFlight_leaveFlight] at hflight
  split at hflight
  next => cases hflight
  next hname =>
    exact (h name k hflight).goto hi rfl (fun heq => absurd heq.symm hname) (by simp)

private theorem stay (h : Attended s) (hi : s.calls[i]? = some ⟨other, pc⟩)
    (hcalls : s'.calls = s.calls.set i ⟨other, pc'⟩) (hflight : s'.inFlight = s.inFlight)
    (hleads : ∀ sem, pc.leads = some sem → pc'.leads = some sem)
    (helecting : ∀ sem, pc ≠ .electing sem) : Attended s' := by
  intro name sem hsem
  rw [hflight] at hsem
  exact (h name sem hsem).goto hi hcalls (fun _ => hleads sem)
    fun _ hpc => absurd hpc (helecting sem)

theorem step (h : Attended s) (hflights : Flights s) (hchange : Change s e s' out)
    (hcancels : e.cancels = false) : Attended s' := by
  cases hchange with
  | resolve other =>
      intro name sem hflight
      rcases h name sem hflight with ⟨call, hmem, hleads⟩ | hmem
      · exact .inl ⟨call, List.mem_append_left _ hmem, hleads⟩
      · exact .inr (List.mem_append_left _ hmem)
  | hit hi | miss hi | join hi | issue hi | answer _ hi | insert hi | grant hi | read hi
  | release hi => exact h.stay hi rfl rfl (by simp [Pc.leads]) (by simp)
  | allocate hi => exact h.allocate hi
  | elect hi => exact h.elect hi
  | wait hi htaken => exact h.wait hflights hi htaken
  | leave hi => exact h.leave hi
  | elapse | clearCache => exact h
  | dropLeader | dropWaiter => simp [Event.cancels] at hcancels

theorem inFlight_eq_none (h : Attended s)
    (hreturned : ∀ call ∈ s.calls, ∃ result, call.pc = .returned result) (name : Str) :
    s.inFlight name = none := by
  refine Option.eq_none_iff_forall_ne_some.mpr fun sem hflight => ?_
  rcases h name sem hflight with ⟨call, hmem, -, hleads⟩ | hmem
  · obtain ⟨result, hpc⟩ := hreturned call hmem
    simp [hpc, Pc.leads] at hleads
  · obtain ⟨result, hpc⟩ := hreturned _ hmem
    simp at hpc

end Attended

/--
Without cancellation no entry is left behind, although a leader removes whatever is
registered for its name and not only the semaphore it was elected on.
-/
theorem inFlight_eq_none_of_returned {ttl now : Nat} {events : List Event}
    (hrun : step.exec (withResolver ttl now) events = some (s, trace))
    (hcancels : ∀ e ∈ events, e.cancels = false)
    (hreturned : ∀ call ∈ s.calls, ∃ result, call.pc = .returned result) (name : Str) :
    s.inFlight name = none := by
  have hlast : Flights s ∧ Attended s := by
    refine Step.invariant_of_always (I := fun _ s => Flights s ∧ Attended s)
      (C := fun _ e => e.cancels = false) (fun h hC hstep => ?_)
      ⟨.withResolver ttl now, fun name sem hsem => ?_⟩
      (Step.always_of_forall hcancels _) hrun
    · have hchange := step_change hstep
      exact ⟨h.1.step hchange (keepsLeader_of_not_cancels hC), h.2.step h.1 hchange hC⟩
    · simp [withResolver] at hsem
  exact hlast.2.inFlight_eq_none hreturned name

section Example

private def printer : Str := "printer.local.".toList

/--
The second call is elected on the semaphore of the first after the first has
unregistered it, and unregisters the one the third call has put in its place.
-/
private def supersededEntry : List Event :=
  [.resolve printer, .resolve printer, .resolve printer,
    .run 0, .run 0, .run 0, .run 0, .run 1, .run 1,
    .lookupDone 0 (.error lookupFailed), .run 0, .run 0, .run 0,
    .run 2, .run 2, .run 2, .run 2, .run 1, .run 1,
    .lookupDone 1 (.ok []), .run 1, .run 1, .run 1,
    .lookupDone 2 (.ok []), .run 2, .run 2, .run 2]

theorem inFlight_supersededEntry :
    ∃ last, step.exec (withResolver 30 0) supersededEntry = some last ∧
      last.1.calls.length = 3 ∧ last.1.inFlight printer = none := by
  have hsome : (step.exec (withResolver 30 0) supersededEntry).isSome = true := by decide
  obtain ⟨last, hlast⟩ := Option.isSome_iff_exists.mp hsome
  have hcalls : (step.exec (withResolver 30 0) supersededEntry).map (fun last => last.1.calls) =
      some [⟨printer, .returned (.error lookupFailed)⟩, ⟨printer, .returned (.ok ⟨[], none⟩)⟩,
        ⟨printer, .returned (.ok ⟨[], none⟩)⟩] := by decide
  rw [hlast] at hcalls
  have hcalls := Option.some.inj hcalls
  refine ⟨last, hlast, by simp [hcalls], ?_⟩
  refine inFlight_eq_none_of_returned hlast (by decide) ?_ printer
  simp [hcalls]

end Example

end Interlink.ServiceDiscovery
