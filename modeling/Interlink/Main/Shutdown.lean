import Interlink.Main.Process

/-!
# Shutdown of the daemon

The signal may come at any time: while an acceptor is in `handle_accept`, between the
test of the channel and the wait for a change, before the tasks have run at all.  No
acceptor misses it and none stops before it, nothing is accepted by a proxy that has
stopped, and `main` returns, whether or not the connections end.
-/

namespace Interlink.Process

open Interlink.Foundation

/-! ## The run of a proxy -/

/-- What holds of the run of a proxy, by its connections and the channel. -/
structure Service.Orderly (tasks : List Phase) (channel : Watch Bool) (service : Service) :
    Prop where
  alert : ∀ wait, .selecting wait ∈ service.acceptors → wait.Alert id channel ∧ wait ≠ .done
  early : .stopped ∈ service.acceptors → channel.value = true
  handling : ∀ k, service.acceptors.countP (· = .handling k) =
    (decide (tasks[k]? = some .admitted)).toNat
  stopped : service.phase ≠ .accepting → ∀ acceptor ∈ service.acceptors, acceptor = .stopped
  disabled : service.phase = .disabled ↔ service.acceptors = []
  drained : service.phase = .complete → ∀ task ∈ tasks, task ≠ .running

namespace Service.Orderly

variable {tasks tasks' : List Phase} {channel : Watch Bool} {service : Service} {a k : Nat}
  {old new : Acceptor}

theorem start (listenPort : UInt16) (binds : List Bool) :
    (Service.start listenPort binds).Orderly [] (Watch.channel false) := by
  have hmem : ∀ acceptor ∈ (Service.start listenPort binds).acceptors, acceptor = waitShutdown := by
    intro acceptor hacceptor
    obtain ⟨-, -, rfl⟩ := List.mem_map.mp hacceptor
    rfl
  refine ⟨fun wait hwait => ?_, fun hstopped => ?_, fun k => ?_, fun hphase => ?_, ?_, ?_⟩
  · cases hmem _ hwait
    exact ⟨Nat.le_refl _, nofun⟩
  · cases hmem _ hstopped
  · refine List.countP_eq_zero.mpr fun acceptor hacceptor => ?_
    cases hmem _ hacceptor
    simp [waitShutdown]
  · simp only [Service.start] at hphase ⊢
    split at hphase
    next hnone => simp [hnone]
    next => exact absurd rfl hphase
  · simp [Service.start]
  · simp

theorem phase_eq (h : service.Orderly tasks channel) (ha : service.acceptors[a]? = some old)
    (hold : old ≠ .stopped) : service.phase = .accepting := by
  by_contra hphase
  exact hold (h.stopped hphase old (List.mem_of_getElem? ha))

theorem setAcceptor (h : service.Orderly tasks channel)
    (ha : service.acceptors[a]? = some old) (hold : old ≠ .stopped)
    (halert : ∀ wait, new = .selecting wait → wait.Alert id channel ∧ wait ≠ .done)
    (hearly : new = .stopped → channel.value = true)
    (hhandling : ∀ k, (decide (tasks'[k]? = some .admitted)).toNat +
      (decide (old = .handling k)).toNat =
        (decide (tasks[k]? = some .admitted)).toNat + (decide (new = .handling k)).toNat) :
    (service.setAcceptor a new).Orderly tasks' channel := by
  have hphase := h.phase_eq ha hold
  refine ⟨fun wait hwait => ?_, fun hstopped => ?_, fun k => ?_, ?_, ?_, ?_⟩
  · rcases List.mem_or_eq_of_mem_set hwait with hmem | heq
    · exact h.alert wait hmem
    · exact halert wait heq.symm
  · rcases List.mem_or_eq_of_mem_set hstopped with hmem | heq
    · exact h.early hmem
    · exact hearly heq.symm
  · have hcount := Tasks.countP_set ha new (· = .handling k)
    have hbefore := h.handling k
    have htasks := hhandling k
    simp only [Service.setAcceptor] at hcount ⊢
    omega
  · exact fun hne => absurd hphase hne
  · have hne : service.acceptors ≠ [] := by
      rintro hnil
      rw [hnil] at ha
      cases ha
    have hdisabled : service.phase ≠ .disabled := fun heq => hne (h.disabled.mp heq)
    simp [Service.setAcceptor, hdisabled, hne]
  · intro hcomplete
    rw [show service.phase = .complete from hcomplete] at hphase
    cases hphase

theorem setPhase (h : service.Orderly tasks channel) (hphase : service.phase ≠ .disabled)
    (phase : ServicePhase) (hdisabled : phase ≠ .disabled)
    (hstopped : ∀ acceptor ∈ service.acceptors, acceptor = .stopped)
    (hdrained : phase = .complete → ∀ task ∈ tasks, task ≠ .running) :
    { service with phase := phase }.Orderly tasks channel where
  alert := h.alert
  early := h.early
  handling := h.handling
  stopped _ := hstopped
  disabled := by
    have hne : service.acceptors ≠ [] := fun hnil => hphase (h.disabled.mpr hnil)
    simp [hdisabled, hne]
  drained := hdrained

theorem not_admitted (h : service.Orderly tasks channel) (hphase : service.phase ≠ .accepting) :
    ∀ task ∈ tasks, task ≠ .admitted := by
  rintro task hmem rfl
  obtain ⟨k, hk⟩ := List.mem_iff_getElem?.mp hmem
  have hcount := h.handling k
  have hnone : service.acceptors.countP (· = .handling k) = 0 := by
    refine List.countP_eq_zero.mpr fun acceptor hacceptor => ?_
    rw [h.stopped hphase acceptor hacceptor]
    simp
  simp [hk, hnone] at hcount

theorem move {gate gate' : Gate} (h : service.Orderly gate.tasks channel)
    (hadmitted : ∀ k : Nat, gate'.tasks[k]? = some .admitted ↔ gate.tasks[k]? = some .admitted)
    (hmove : Gate.Move wordSize gate gate') : service.Orderly gate'.tasks channel where
  alert := h.alert
  early := h.early
  handling k := by rw [h.handling k, decide_eq_decide.mpr (hadmitted k)]
  stopped := h.stopped
  disabled := h.disabled
  drained hphase := by
    refine hmove.not_running (h.not_admitted ?_) (h.drained hphase)
    rw [hphase]
    decide

theorem send (h : service.Orderly tasks channel) : service.Orderly tasks (channel.send true) where
  alert wait hwait := ⟨(h.alert wait hwait).1.send true, (h.alert wait hwait).2⟩
  early _ := rfl
  handling := h.handling
  stopped := h.stopped
  disabled := h.disabled
  drained := h.drained

end Service.Orderly

/-! ## The daemon -/

def Joined (s : Process) : Prop :=
  match s.main with
  | .serving | .joiningInbound => True
  | .joiningOutbound => (s.services .inbound).returned = true
  | .joiningAdmin => ∀ side, (s.services side).returned = true
  | .complete => (∀ side, (s.services side).returned = true) ∧ s.admin = .ended

/-- `adminBinds` is what the daemon was started with. -/
structure Inv (node : Node) (adminBinds : Bool) (s : Process) : Prop where
  balanced : Node.BothBalanced node s.node
  services : ∀ side, (s.services side).Orderly (side.gate s.node).tasks s.channel
  channel : s.channel = if s.main = .serving then Watch.channel false
    else (Watch.channel false).send true
  receiver : ∀ rx, s.admin = .selecting rx → rx = receiver
  ended : s.admin = .ended → adminBinds = false ∨ s.channel.value = true
  joined : s.Joined

section Invariant

variable {node : Node} {parse : X509Parser} {policy : PolicyEngine} {binds : Side → List Bool}
  {adminBinds : Bool} {s s' : Process} {side : Side} {a k : Nat} {old new : Acceptor}
  {service : Service} {state : Node.State} {e : Event} {event : Node.Event}
  {out : List Node.Observation}

theorem Inv.start : Inv node adminBinds (start node parse policy binds adminBinds) where
  balanced := ⟨.empty _ _, .empty _ _⟩
  services side := by
    cases side with
    | inbound => exact .start _ _
    | outbound => exact .start _ _
  channel := rfl
  receiver rx hadmin := by
    cases adminBinds with
    | true =>
        cases hadmin
        rfl
    | false => cases hadmin
  ended hended := by
    cases adminBinds with
    | true => cases hended
    | false => exact .inl rfl
  joined := trivial

theorem Inv.value_eq (h : Inv node adminBinds s) :
    s.channel.value = true ↔ s.main ≠ .serving := by
  rw [h.channel]
  by_cases hmain : s.main = .serving
  · simp [hmain, Watch.channel]
  · simp [hmain, Watch.send]

theorem Inv.closed_eq (h : Inv node adminBinds s) : s.channel.closed = false := by
  rw [h.channel]
  split <;> rfl

theorem Joined.mono (h : s.Joined) (hmain : s'.main = s.main)
    (hreturned : ∀ side, (s.services side).returned = true → (s'.services side).returned = true)
    (hended : s.admin = .ended → s'.admin = .ended) : s'.Joined := by
  unfold Joined at h ⊢
  rw [hmain]
  cases hphase : s.main with
  | serving => trivial
  | joiningInbound => trivial
  | joiningOutbound =>
      rw [hphase] at h
      exact hreturned _ h
  | joiningAdmin =>
      rw [hphase] at h
      exact fun side => hreturned side (h side)
  | complete =>
      rw [hphase] at h
      exact ⟨fun side => hreturned side (h.1 side), hended h.2⟩

private theorem returned_setService (hkeeps : (s.services side).returned = true →
      service.returned = true) (other : Side) (h : (s.services other).returned = true) :
    ((s.setService side service).services other).returned = true := by
  by_cases hside : other = side
  · subst hside
    simpa [setService] using hkeeps h
  · simpa [setService, hside] using h

theorem Inv.setService (h : Inv node adminBinds s) (hbalanced : Node.BothBalanced node state)
    (hservice : service.Orderly (side.gate state).tasks s.channel)
    (hother : ∀ other, other ≠ side → (other.gate state).tasks = (other.gate s.node).tasks)
    (hkeeps : (s.services side).returned = true → service.returned = true) (now : Nat) :
    Inv node adminBinds { s.setService side service with node := state, now := now } where
  balanced := hbalanced
  services := by
    refine Function.forall_update_iff (p := fun other service =>
      Service.Orderly (other.gate state).tasks s.channel service) s.services |>.mpr ⟨hservice, ?_⟩
    intro other hne
    rw [hother other hne]
    exact h.services other
  channel := h.channel
  receiver := h.receiver
  ended := h.ended
  joined := h.joined.mono rfl (returned_setService hkeeps) id

private theorem returned_setAcceptor (h : service.returned = true) :
    (service.setAcceptor a new).returned = true :=
  h

theorem Inv.setAcceptor (h : Inv node adminBinds s) (hbalanced : Node.BothBalanced node state)
    (ha : (s.services side).acceptors[a]? = some old) (hold : old ≠ .stopped)
    (halert : ∀ wait, new = .selecting wait → wait.Alert id s.channel ∧ wait ≠ .done)
    (hearly : new = .stopped → s.channel.value = true)
    (hhandling : ∀ k, (decide ((side.gate state).tasks[k]? = some .admitted)).toNat +
      (decide (old = .handling k)).toNat =
        (decide ((side.gate s.node).tasks[k]? = some .admitted)).toNat +
          (decide (new = .handling k)).toNat)
    (hother : ∀ other, other ≠ side → (other.gate state).tasks = (other.gate s.node).tasks) :
    Inv node adminBinds { s.setAcceptor side a new with node := state } :=
  h.setService hbalanced ((h.services side).setAcceptor ha hold halert hearly hhandling) hother
    returned_setAcceptor s.now

private theorem alert_waitShutdown (channel : Watch Bool) (wait : Watch.Wait)
    (h : waitShutdown = .selecting wait) : wait.Alert id channel ∧ wait ≠ .done := by
  cases h
  exact ⟨Nat.zero_le _, nofun⟩

private theorem handling_of_admit (tasks : List Phase) (wait : Watch.Wait) (k : Nat) :
    (decide ((tasks ++ [.admitted])[k]? = some .admitted)).toNat +
        (decide (Acceptor.selecting wait = .handling k)).toNat =
      (decide (tasks[k]? = some .admitted)).toNat +
        (decide (Acceptor.handling tasks.length = .handling k)).toNat := by
  rcases Nat.lt_trichotomy k tasks.length with hlt | rfl | hgt
  · simp [List.getElem?_append_left hlt, hlt.ne']
  · simp
  · have hlength : (tasks ++ [Phase.admitted]).length ≤ k := by
      simpa using Nat.succ_le_of_lt hgt
    rw [List.getElem?_eq_none hlength, List.getElem?_eq_none hgt.le]
    simp [hgt.ne]

private theorem handling_of_handled {tasks : List Phase} {i : Nat}
    (hi : tasks[i]? = some .admitted) (k : Nat) :
    (decide ((tasks.set i .running)[k]? = some .admitted)).toNat +
        (decide (Acceptor.handling i = .handling k)).toNat =
      (decide (tasks[k]? = some .admitted)).toNat +
        (decide (waitShutdown = .handling k)).toNat := by
  by_cases hik : i = k
  · subst hik
    simp [Tasks.getElem?_set_of hi, hi, waitShutdown]
  · simp [List.getElem?_set_ne hik, hik, waitShutdown]

theorem Inv.admitted (h : Inv node adminBinds s)
    (ha : (s.services side).acceptors[a]? = some (.handling k)) :
    (side.gate s.node).tasks[k]? = some .admitted := by
  have hcount := (h.services side).handling k
  have hpos : 0 < (s.services side).acceptors.countP (· = .handling k) :=
    Tasks.countP_pos ha (by simp)
  by_contra hne
  simp only [hne, decide_false, Bool.toNat_false] at hcount
  omega

theorem activeConnections_eq (side : Side) (state : Node.State) :
    side.activeConnections state = (side.gate state).active := by
  cases side <;> rfl

theorem Inv.not_running (h : Inv node adminBinds s)
    (hinbound : node.inbound.maxConnections < wordSize)
    (houtbound : node.outbound.maxConnections < wordSize)
    (hactive : side.activeConnections s.node = 0) :
    ∀ task ∈ (side.gate s.node).tasks, task ≠ .running := by
  rw [activeConnections_eq] at hactive
  cases side with
  | inbound => exact (h.balanced.inbound.active_eq_zero_iff hinbound).mp hactive
  | outbound => exact (h.balanced.outbound.active_eq_zero_iff houtbound).mp hactive

private theorem not_returned (hphase : (s.services side).phase = .accepting ∨
      ∃ deadline wake, (s.services side).phase = .waiting deadline wake) :
    (s.services side).returned = true → service.returned = true := by
  intro hreturned
  rcases hphase with hphase | ⟨deadline, wake, hphase⟩ <;>
    simp [Service.returned, hphase] at hreturned

private theorem Inv.poll (h : Inv node adminBinds s) {deadline wake : Nat}
    (hphase : (s.services side).phase = .waiting deadline wake) (phase : ServicePhase)
    (hdisabled : phase ≠ .disabled)
    (hdrained : phase = .complete → ∀ task ∈ (side.gate s.node).tasks, task ≠ .running)
    (now : Nat) :
    Inv node adminBinds
      { s.setService side { s.services side with phase := phase } with now := now } := by
  have hstopped := (h.services side).stopped (by simp [hphase])
  have hservice := (h.services side).setPhase (by simp [hphase]) phase hdisabled hstopped hdrained
  exact h.setService h.balanced hservice (fun _ _ => rfl) (not_returned (.inr ⟨_, _, hphase⟩)) now

theorem Inv.step (hinbound : node.inbound.maxConnections < wordSize)
    (houtbound : node.outbound.maxConnections < wordSize) (h : Inv node adminBinds s)
    (hstep : Process.step node s e = some (s', out)) : Inv node adminBinds s' := by
  cases step_change hstep with
  | node hfree hnode =>
      exact ⟨h.balanced.step (Node.step_change hnode),
        fun side => (h.services side).move (admitted_iff hnode hfree side) (gate_move hnode side),
        h.channel, h.receiver, h.ended, h.joined.mono rfl (fun _ => id) id⟩
  | refuse ha hnode htasks =>
      refine h.setAcceptor (h.balanced.step (Node.step_change hnode)) ha nofun
        (alert_waitShutdown _) nofun (fun k => ?_) (tasks_of_accept hnode).2
      rw [htasks]
      simp [waitShutdown]
  | @takeIn side a originalDst wait state _ ha hnode htasks =>
      refine h.setAcceptor (h.balanced.step (Node.step_change hnode)) ha nofun nofun nofun
        (fun k => ?_) (tasks_of_accept hnode).2
      rw [htasks]
      exact handling_of_admit _ wait k
  | acceptError ha =>
      exact h.setAcceptor h.balanced ha nofun (alert_waitShutdown _) nofun
        (by simp [waitShutdown]) (fun _ _ => rfl)
  | @handled side a k state _ ha hnode =>
      have hk := h.admitted ha
      obtain ⟨next, observed, hrun, htasks, hother⟩ := exists_run node hk
      cases hrun.symm.trans hnode
      refine h.setAcceptor (h.balanced.step (Node.step_change hnode)) ha nofun
        (alert_waitShutdown _) nofun (fun k => ?_) hother
      rw [htasks]
      exact handling_of_handled hk k
  | @wait side a wait next ha hwait hnext =>
      have halert := ((h.services side).alert wait (List.mem_of_getElem? ha)).1.step hwait
      refine h.setAcceptor h.balanced ha nofun ?_ nofun (by simp) (fun _ _ => rfl)
      rintro _ ⟨⟩
      exact ⟨halert, hnext⟩
  | stop ha hwait =>
      refine h.setAcceptor h.balanced ha nofun nofun (fun _ => ?_) (by simp) (fun _ _ => rfl)
      rcases Watch.Wait.value_of_step_done hwait with hvalue | hclosed
      · exact hvalue
      · rw [h.closed_eq] at hclosed
        cases hclosed
  | join hphase hall =>
      have hservice := (h.services _).setPhase (by simp [hphase])
        (.waiting (s.now + shutdownGrace) s.now) nofun hall nofun
      exact h.setService h.balanced hservice (fun _ _ => rfl) (not_returned (.inl hphase)) s.now
  | complete hphase hactive =>
      exact h.poll hphase .complete nofun (fun _ => h.not_running hinbound houtbound hactive) _
  | expire hphase => exact h.poll hphase .expired nofun nofun _
  | sleep hphase => exact h.poll hphase (.waiting _ _) nofun nofun _
  | adminAccept hadmin =>
      refine ⟨h.balanced, h.services, h.channel, ?_, nofun, h.joined.mono rfl (fun _ => id) ?_⟩
      · rintro rx ⟨⟩
        rfl
      · intro hended
        rw [hadmin] at hended
        cases hended
  | @adminStop rx hadmin hsent =>
      refine ⟨h.balanced, h.services, h.channel, nofun, fun _ => .inr ?_,
        h.joined.mono rfl (fun _ => id) (fun _ => rfl)⟩
      rw [h.receiver rx hadmin, h.closed_eq] at hsent
      refine h.value_eq.mpr fun hmain => ?_
      rw [h.channel, hmain] at hsent
      simp [Process.receiver, Watch.subscribe, Watch.channel] at hsent
  | signal hmain =>
      refine ⟨h.balanced, fun side => (h.services side).send, ?_, h.receiver, fun _ => .inr rfl,
        trivial⟩
      rw [h.channel, if_pos hmain]
      rfl
  | joinedInbound hmain hreturned =>
      refine ⟨h.balanced, h.services, ?_, h.receiver, h.ended, hreturned⟩
      simpa [hmain] using h.channel
  | joinedOutbound hmain hreturned =>
      refine ⟨h.balanced, h.services, ?_, h.receiver, h.ended, fun side => ?_⟩
      · simpa [hmain] using h.channel
      · have hjoined := h.joined
        simp only [Joined, hmain] at hjoined
        cases side with
        | inbound => exact hjoined
        | outbound => exact hreturned
  | joinedAdmin hmain hended =>
      refine ⟨h.balanced, h.services, ?_, h.receiver, h.ended, ?_, hended⟩
      · simpa [hmain] using h.channel
      · simpa only [Joined, hmain] using h.joined
  | elapse =>
      exact ⟨h.balanced, h.services, h.channel, h.receiver, h.ended,
        h.joined.mono rfl (fun _ => id) id⟩

end Invariant

/-! ## The end of the daemon -/

/-- What the tasks do on their own to come to an end. -/
def Event.Finishing : Event → Prop
  | .handled _ _ | .wait _ _ | .join _ | .poll _ | .adminWait | .main => True
  | _ => False

def Event.polls (side : Side) : Event → Bool
  | .poll other => other = side
  | _ => false

def Acceptor.work (channel : Watch Bool) : Acceptor → Nat
  | .selecting wait => wait.work channel
  | .handling _ => 2 * channel.version + 3
  | .stopped => 0

/-- A bound on the polls to come: the grace period has 300 intervals. -/
def ServicePhase.rounds : ServicePhase → Nat
  | .accepting => 301
  | .waiting deadline wake => (deadline + 99 - wake) / 100 + 1
  | .disabled | .complete | .expired => 0

def ServicePhase.work : ServicePhase → Nat
  | .accepting => 302
  | phase => phase.rounds

def Service.work (channel : Watch Bool) (service : Service) : Nat :=
  (service.acceptors.map (Acceptor.work channel)).sum + service.phase.work

def AdminPhase.work : AdminPhase → Nat
  | .selecting _ => 1
  | .ended => 0

def MainPhase.work : MainPhase → Nat
  | .serving => 4
  | .joiningInbound => 3
  | .joiningOutbound => 2
  | .joiningAdmin => 1
  | .complete => 0

def work (s : Process) : Nat :=
  (s.services .inbound).work s.channel + (s.services .outbound).work s.channel +
    s.admin.work + s.main.work

section Progress

variable {node : Node} {adminBinds : Bool} {s s' : Process} {side : Side} {a : Nat}
  {old new : Acceptor} {service : Service} {e : Event} {out : List Node.Observation}

theorem rounds_join (now : Nat) :
    (ServicePhase.waiting (now + shutdownGrace) now).rounds = 301 := by
  simp only [ServicePhase.rounds, shutdownGrace]
  omega

theorem rounds_sleep {deadline wake now : Nat} (hwake : wake ≤ now) (hearly : now < deadline) :
    (ServicePhase.waiting deadline (now + pollInterval)).rounds <
      (ServicePhase.waiting deadline wake).rounds := by
  simp only [ServicePhase.rounds, pollInterval]
  omega

private theorem rounds_setService {other : Side} {n : Nat}
    (h : other = side → service.phase.rounds + n ≤ (s.services side).phase.rounds)
    (hn : other ≠ side → n = 0) :
    ((s.setService side service).services other).phase.rounds + n ≤
      (s.services other).phase.rounds := by
  by_cases hside : other = side
  · subst hside
    simpa [setService] using h rfl
  · simp [setService, hside, hn hside]

theorem rounds_add_polls_le (hstep : step node s e = some (s', out)) (side : Side) :
    (s'.services side).phase.rounds + (e.polls side).toNat ≤
      (s.services side).phase.rounds := by
  have hpolls : ∀ other, side ≠ other → ((Event.poll other).polls side).toNat = 0 := by
    intro other hne
    simp [Event.polls, hne.symm]
  have hrest : ∀ {other : Side} {a : Nat} {new : Acceptor},
      ((s.setAcceptor other a new).services side).phase.rounds + 0 ≤
        (s.services side).phase.rounds :=
    rounds_setService (fun _ => Nat.le_refl _) (fun _ => rfl)
  cases step_change hstep with
  | refuse => exact hrest
  | takeIn => exact hrest
  | acceptError => exact hrest
  | handled => exact hrest
  | wait => exact hrest
  | stop => exact hrest
  | join hphase =>
      refine rounds_setService (fun _ => ?_) (fun _ => rfl)
      rw [hphase]
      exact (rounds_join s.now).le
  | complete hphase =>
      refine rounds_setService (fun hside => ?_) (hpolls _)
      subst hside
      simp [hphase, ServicePhase.rounds, Event.polls]
  | expire hphase =>
      refine rounds_setService (fun hside => ?_) (hpolls _)
      subst hside
      simp [hphase, ServicePhase.rounds, Event.polls]
  | sleep hphase hearly =>
      refine rounds_setService (fun hside => ?_) (hpolls _)
      subst hside
      rw [hphase]
      simpa [Event.polls] using
        Nat.succ_le_of_lt (rounds_sleep (le_max_right s.now _) hearly)
  | _ => exact Nat.le_refl _

private theorem work_setService (h : service.work s.channel < (s.services side).work s.channel) :
    (s.setService side service).work < s.work := by
  cases side with
  | inbound =>
      simp only [work, setService, Function.update_self, ne_eq, reduceCtorEq, not_false_eq_true,
        Function.update_of_ne]
      omega
  | outbound =>
      simp only [work, setService, Function.update_self, ne_eq, reduceCtorEq, not_false_eq_true,
        Function.update_of_ne]
      omega

private theorem work_setAcceptor (ha : (s.services side).acceptors[a]? = some old)
    (h : new.work s.channel < old.work s.channel) :
    (s.setAcceptor side a new).work < s.work := by
  refine work_setService ?_
  have hsum := Tasks.sum_map_set (b := new) ha (Acceptor.work s.channel)
  simp only [Service.work, Service.setAcceptor]
  omega

private theorem work_setPhase {phase : ServicePhase}
    (h : phase.work < (s.services side).phase.work) :
    (s.setService side { s.services side with phase := phase }).work < s.work :=
  work_setService (Nat.add_lt_add_left h _)

theorem Inv.work_lt (h : Inv node adminBinds s) (hfinishing : e.Finishing)
    (hstep : Process.step node s e = some (s', out)) : s'.work < s.work := by
  cases step_change hstep with
  | @handled side a k state _ ha =>
      have hlt : waitShutdown.work s.channel < (Acceptor.handling k).work s.channel := by
        simp [waitShutdown, Acceptor.work, Watch.Wait.work, Process.receiver, Watch.subscribe,
          Watch.channel]
      exact work_setAcceptor (s := s) ha hlt
  | @wait side a wait next ha hwait =>
      have halert := ((h.services side).alert wait (List.mem_of_getElem? ha)).1
      exact work_setAcceptor ha (halert.work_lt hwait)
  | @stop side a wait ha hwait =>
      have halert := ((h.services side).alert wait (List.mem_of_getElem? ha)).1
      exact work_setAcceptor ha (halert.work_lt hwait)
  | @join side hphase =>
      have hlt : (ServicePhase.waiting (s.now + shutdownGrace) s.now).work <
          (s.services side).phase.work := by
        rw [hphase]
        exact Nat.lt_succ_of_le (rounds_join s.now).le
      exact work_setPhase (s := s) hlt
  | @complete side deadline wake hphase =>
      have hlt : ServicePhase.complete.work < (s.services side).phase.work := by
        rw [hphase]
        exact Nat.succ_pos _
      exact work_setPhase (s := s) hlt
  | @expire side deadline wake hphase =>
      have hlt : ServicePhase.expired.work < (s.services side).phase.work := by
        rw [hphase]
        exact Nat.succ_pos _
      exact work_setPhase (s := s) hlt
  | @sleep side deadline wake hphase hearly =>
      have hlt : (ServicePhase.waiting deadline (max s.now wake + pollInterval)).work <
          (s.services side).phase.work := by
        rw [hphase]
        exact rounds_sleep (le_max_right s.now wake) hearly
      exact work_setPhase (s := s) hlt
  | adminStop hadmin => simp [work, hadmin, AdminPhase.work]
  | joinedInbound hmain => simp [work, hmain, MainPhase.work]
  | joinedOutbound hmain => simp [work, hmain, MainPhase.work]
  | joinedAdmin hmain => simp [work, hmain, MainPhase.work]
  | _ => cases hfinishing

/-- After the signal every acceptor that has not stopped can go on. -/
theorem Inv.exists_acceptor_step (h : Inv node adminBinds s) (hmain : s.main ≠ .serving)
    (ha : (s.services side).acceptors[a]? = some old) (hold : old ≠ .stopped) :
    ∃ e s' out, e.Finishing ∧ Process.step node s e = some (s', out) := by
  cases old with
  | selecting wait =>
      obtain ⟨halert, hdone⟩ := (h.services side).alert wait (List.mem_of_getElem? ha)
      obtain ⟨next, hnext⟩ := halert.exists_step (h.value_eq.mpr hmain) hdone
      refine ⟨.wait side a, ?_⟩
      simp only [Process.step, ha, Option.bind_some, Process.wait, hnext, Option.map_some]
      cases next <;> exact ⟨_, _, trivial, rfl⟩
  | handling k =>
      obtain ⟨state, out, hrun, -⟩ := exists_run node (h.admitted ha)
      refine ⟨.handled side a, { s.setAcceptor side a waitShutdown with node := state }, out,
        trivial, ?_⟩
      simp [Process.step, ha, Process.handled, hrun]
  | stopped => exact absurd rfl hold

theorem Inv.returned_of_stuck (h : Inv node adminBinds s) (hmain : s.main ≠ .serving)
    (hstuck : Step.Stuck (Process.step node) Event.Finishing s) (side : Side) :
    (s.services side).returned = true := by
  have hstopped : ∀ acceptor ∈ (s.services side).acceptors, acceptor = .stopped := by
    intro acceptor hmem
    by_contra hne
    obtain ⟨a, ha⟩ := List.mem_iff_getElem?.mp hmem
    obtain ⟨e, s', out, hfinishing, hstep⟩ := h.exists_acceptor_step hmain ha hne
    rw [hstuck e hfinishing] at hstep
    cases hstep
  cases hphase : (s.services side).phase with
  | accepting =>
      have hjoin := hstuck (.join side) trivial
      simp only [Process.step, join, hphase] at hjoin
      rw [if_pos hstopped] at hjoin
      cases hjoin
  | waiting deadline wake =>
      have hpoll := hstuck (.poll side) trivial
      simp [Process.step, Process.poll, hphase] at hpoll
  | _ => simp [Service.returned, hphase]

theorem Inv.ended_of_stuck (h : Inv node adminBinds s) (hmain : s.main ≠ .serving)
    (hstuck : Step.Stuck (Process.step node) Event.Finishing s) : s.admin = .ended := by
  cases hadmin : s.admin with
  | ended => rfl
  | selecting rx =>
      have hwait := hstuck .adminWait trivial
      have hchannel := h.channel
      rw [if_neg hmain] at hchannel
      obtain rfl := h.receiver rx hadmin
      simp [Process.step, hadmin, adminWait, hchannel, Watch.Receiver.changed, Process.receiver,
        Watch.subscribe, Watch.channel, Watch.send] at hwait

theorem Inv.complete_of_stuck (h : Inv node adminBinds s) (hmain : s.main ≠ .serving)
    (hstuck : Step.Stuck (Process.step node) Event.Finishing s) : s.main = .complete := by
  have hreturned := h.returned_of_stuck hmain hstuck
  have hended := h.ended_of_stuck hmain hstuck
  have hjoin := hstuck .main trivial
  cases hphase : s.main with
  | serving => exact absurd hphase hmain
  | complete => rfl
  | joiningInbound => simp [Process.step, hphase, joinNext, hreturned] at hjoin
  | joiningOutbound => simp [Process.step, hphase, joinNext, hreturned] at hjoin
  | joiningAdmin => simp [Process.step, hphase, joinNext, hended] at hjoin

end Progress

/-! ## Runs -/

variable {node : Node} {parse : X509Parser} {policy : PolicyEngine} {binds : Side → List Bool}
  {adminBinds : Bool} {events : List Event} {s s' : Process} {e : Event}
  {trace out : List Node.Observation}

theorem main_ne_serving (h : s.main ≠ .serving) (hstep : step node s e = some (s', out)) :
    s'.main ≠ .serving := by
  cases step_change hstep with
  | signal => nofun
  | joinedInbound => nofun
  | joinedOutbound => nofun
  | joinedAdmin => nofun
  | _ => exact h

theorem node_step (hstep : step node s e = some (s', out)) :
    (s'.node = s.node ∧ out = []) ∨ ∃ event, node.step s.node event = some (s'.node, out) := by
  cases step_change hstep with
  | node _ hnode => exact .inr ⟨_, hnode⟩
  | refuse _ hnode => exact .inr ⟨_, hnode⟩
  | takeIn _ hnode => exact .inr ⟨_, hnode⟩
  | handled _ hnode => exact .inr ⟨_, hnode⟩
  | _ => exact .inl ⟨rfl, rfl⟩

/-- The daemon refines its sidecar. -/
theorem node_run
    (hrun : (step node).exec (start node parse policy binds adminBinds) events = some (s, trace)) :
    ∃ moves, node.step.exec (node.initial parse policy) moves = some (s.node, trace) := by
  refine Step.invariant (I := fun trace s => ∃ moves,
    node.step.exec (node.initial parse policy) moves = some (s.node, trace)) ?_ ⟨[], rfl⟩ hrun
  rintro trace s e s' out ⟨moves, hmoves⟩ hstep
  rcases node_step hstep with ⟨hnode, rfl⟩ | ⟨event, hnode⟩
  · exact ⟨moves, by rw [hnode, List.append_nil]; exact hmoves⟩
  · exact ⟨moves ++ [event], Step.exec_append hmoves (Step.exec_single hnode)⟩

theorem inv_of_run (hinbound : node.inbound.maxConnections < wordSize)
    (houtbound : node.outbound.maxConnections < wordSize)
    (hrun : (step node).exec (start node parse policy binds adminBinds) events = some (s, trace)) :
    Inv node adminBinds s :=
  Step.invariant (I := fun _ s => Inv node adminBinds s)
    (fun h hstep => h.step hinbound houtbound hstep) .start hrun

structure Undisturbed (adminBinds : Bool) (s : Process) : Prop where
  acceptors : ∀ side, .stopped ∉ (s.services side).acceptors
  phase : ∀ side, (s.services side).phase = .accepting ∨ (s.services side).phase = .disabled
  admin : s.admin = .ended → adminBinds = false

theorem Inv.undisturbed (h : Inv node adminBinds s) (hmain : s.main = .serving) :
    Undisturbed adminBinds s := by
  have hvalue : s.channel.value ≠ true := fun hvalue => h.value_eq.mp hvalue hmain
  have hacceptors : ∀ side, .stopped ∉ (s.services side).acceptors :=
    fun side hstopped => hvalue ((h.services side).early hstopped)
  refine ⟨hacceptors, fun side => ?_, fun hended => (h.ended hended).resolve_right hvalue⟩
  by_contra hphase
  obtain ⟨haccepting, hdisabled⟩ := not_or.mp hphase
  have hne : (s.services side).acceptors ≠ [] :=
    fun hnil => hdisabled ((h.services side).disabled.mpr hnil)
  obtain ⟨acceptor, hmem⟩ := List.exists_mem_of_ne_nil _ hne
  obtain rfl := (h.services side).stopped haccepting acceptor hmem
  exact hacceptors side hmem

theorem Inv.accept_eq_none (h : Inv node adminBinds s) {side : Side}
    (hphase : (s.services side).phase ≠ .accepting) (a : Nat)
    (originalDst : Option SocketAddr) :
    Process.step node s (.accept side a originalDst) = none := by
  cases ha : (s.services side).acceptors[a]? with
  | none => simp [Process.step, ha]
  | some acceptor =>
      obtain rfl := (h.services side).stopped hphase acceptor (List.mem_of_getElem? ha)
      simp [Process.step, ha, Process.accept]

theorem Inv.handlers_done (h : Inv node adminBinds s) {side : Side}
    (hphase : (s.services side).phase = .complete) :
    ∀ task ∈ (side.gate s.node).tasks, task = .uncounted ∨ task = .finished := by
  intro task hmem
  have hadmitted := (h.services side).not_admitted (by simp [hphase]) task hmem
  have hrunning := (h.services side).drained hphase task hmem
  cases task with
  | admitted => exact absurd rfl hadmitted
  | running => exact absurd rfl hrunning
  | uncounted => exact .inl rfl
  | finished => exact .inr rfl

/--
Nothing stops before the signal, whatever the tasks do.  A proxy whose acceptors have
stopped accepts nothing more and polls its counter at most 301 times; if it does not
give up, its connections have ended.  After the signal the tasks come to an end by
themselves, without help of the connections or of new ones, and `main` returns then
and not before.
-/
theorem shutdown_orderly (hinbound : node.inbound.maxConnections < wordSize)
    (houtbound : node.outbound.maxConnections < wordSize)
    (hrun : (step node).exec (start node parse policy binds adminBinds) events = some (s, trace)) :
    (∃ moves, node.step.exec (node.initial parse policy) moves = some (s.node, trace)) ∧
      (s.main = .serving → Undisturbed adminBinds s) ∧
      (∀ side, events.countP (·.polls side) ≤ 301 ∧
        ((s.services side).phase ≠ .accepting →
          ∀ a originalDst, step node s (.accept side a originalDst) = none) ∧
        ((s.services side).phase = .complete →
          ∀ task ∈ (side.gate s.node).tasks, task = .uncounted ∨ task = .finished)) ∧
      (s.main = .complete → (∀ side, (s.services side).returned = true) ∧ s.admin = .ended) ∧
      (s.main ≠ .serving → (step node).Stuck Event.Finishing s → s.main = .complete) ∧
      (s.main ≠ .serving → ∃ more last rest, (∀ e ∈ more, e.Finishing) ∧
        (step node).exec s more = some (last, rest) ∧ last.main = .complete) := by
  have hinv := inv_of_run hinbound houtbound hrun
  refine ⟨node_run hrun, hinv.undisturbed,
    fun side => ⟨?_, hinv.accept_eq_none, hinv.handlers_done⟩, fun hcomplete => ?_,
    hinv.complete_of_stuck, fun hmain => ?_⟩
  · have hle := Step.countP_add_le (p := (·.polls side))
      (μ := fun s => (s.services side).phase.rounds)
      (fun hstep => rounds_add_polls_le hstep side) hrun
    have hstart :
        ((start node parse policy binds adminBinds).services side).phase.rounds ≤ 301 := by
      simp only [start, Service.start]
      split <;> simp [ServicePhase.rounds]
    omega
  · simpa only [Joined, hcomplete] using hinv.joined
  · obtain ⟨more, last, rest, hmore, hexec, ⟨hlast, hsent⟩, hstuck⟩ :=
      Step.exists_stuck_of_invariant (W := Event.Finishing) (μ := work)
        (J := fun s => Inv node adminBinds s ∧ s.main ≠ .serving)
        (fun h hstep => ⟨h.1.step hinbound houtbound hstep, main_ne_serving h.2 hstep⟩)
        (fun h hfinishing hstep => h.1.work_lt hfinishing hstep) ⟨hinv, hmain⟩
    exact ⟨more, last, rest, hmore, hexec, hlast.complete_of_stuck hsent hstuck⟩

section Example

open Node.Example

/--
The signal comes while the acceptor of the inbound proxy is in `handle_accept` and the
other one has tested the channel.
-/
private def signalled : List Event :=
  [.wait .outbound 0, .accept .inbound 0 none, .signal]

theorem signalled_completes :
    ∃ last, (step sidecar).exec
        (start sidecar readSvid allowAny (fun _ => [true]) true) signalled = some last ∧
      (last.1.services .inbound).acceptors = [.handling 0] ∧
      ∃ more complete rest, (step sidecar).exec last.1 more = some (complete, rest) ∧
        complete.main = .complete := by
  have hlast : ((step sidecar).exec
      (start sidecar readSvid allowAny (fun _ => [true]) true) signalled).any
        (fun last => (last.1.services .inbound).acceptors = [.handling 0] &&
          last.1.main ≠ .serving) = true := by
    decide +kernel
  obtain ⟨last, hrun, hcheck⟩ := (Option.any_eq_true _ _).mp hlast
  simp only [Bool.and_eq_true, decide_eq_true_eq] at hcheck
  obtain ⟨more, complete, rest, -, hexec, hcomplete⟩ :=
    (shutdown_orderly (by decide) (by decide) hrun).2.2.2.2.2 hcheck.2
  exact ⟨last, hrun, hcheck.1, more, complete, rest, hexec, hcomplete⟩

end Example

end Interlink.Process
