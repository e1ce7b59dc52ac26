import Interlink.Proxy.Admission
import Interlink.Proxy.Construct
import Interlink.Proxy.Loads

/-!
# Streams on one session

yamux refuses stream number 513 of a session.  `pick_under_cap` stays below two
hundred; `pick_any` takes the least loaded of sixteen tunnels, so it stays below the
limit as long as the connections of the proxy cannot fill all sixteen.

The counters are read and changed in separate steps.  What is shown here is about
runs in which a task is not interrupted between two awaits.
-/

namespace Interlink.OutboundProxy

open Interlink.Foundation

def yamuxMaxStreams : Nat := 512

/-! ## Runs of the scheduler -/

def Pc.awaits : Pc → Bool
  | .locking _ | .connecting _ | .opening _ _ | .relaying _ => true
  | _ => false

/-- The task is suspended, or has not started or has ended. -/
def Conn.awaits : Conn → Bool
  | .spawned _ | .resolving _ | .finished => true
  | .routing _ pc => pc.awaits
  | .accepted _ | .leaving | .releasing => false

/-- A task that is not at an await goes on before anything else happens. -/
def Cooperative (s : State) (e : Node.Event) : Prop :=
  (∀ (i : Nat) (conn : Conn), s.conns[i]? = some conn → conn.awaits = false →
    e = .outbound (.run i)) ∧
  ∀ (d : Nat) (addr : SocketAddr) (tunnel : Tunnel),
    s.drivers[d]? = some (.exited addr tunnel) → e = .outbound (.driverEvict d)

instance (e : Node.Event) (event : Event) : Decidable (e = .outbound event) :=
  match e with
  | .outbound other => decidable_of_iff (other = event) (by simp)
  | .inbound _ | .policy _ | .evictIdentity _ => isFalse (by simp)

def Driver.hasExited : Driver → Bool
  | .exited _ _ => true
  | _ => false

instance (s : State) (e : Node.Event) : Decidable (Cooperative s e) :=
  decidable_of_iff
    ((∀ (i : Nat) (conn : Conn), s.conns[i]? = some conn → conn.awaits = false →
        e = .outbound (.run i)) ∧
      ∀ (d : Nat) (driver : Driver), s.drivers[d]? = some driver → driver.hasExited = true →
        e = .outbound (.driverEvict d)) <| by
    refine and_congr_right fun _ => ⟨fun h d addr tunnel hd => h d _ hd rfl, ?_⟩
    intro h d driver hd hexited
    cases driver with
    | exited addr tunnel => exact h d addr tunnel hd
    | _ => cases hexited

theorem Cooperative.run_eq {s : State} {e : Event} (h : Cooperative s (.outbound e)) {j : Nat}
    {addr : SocketAddr} {pc : Pc} (hj : s.conns[j]? = some (.routing addr pc))
    (hawaits : pc.awaits = false) : e = .run j :=
  Node.Event.outbound.inj (h.1 j _ hj hawaits)

def Pc.stream : Pc → Option Nat
  | .returning (.muxStream carrier) | .relaying (.muxStream carrier)
  | .dropping (.muxStream carrier) => some carrier.id
  | .unlocking next => next.stream
  | _ => none

def Conn.stream : Conn → Option Nat
  | .routing _ pc => pc.stream
  | _ => none

/-- yamux opens a stream only while its session has fewer than `yamuxMaxStreams`. -/
def WithinYamux (s : State) : Node.Event → Prop
  | .outbound (.opened i true) => ∀ (addr : SocketAddr) (origin : Origin) (tunnel : Tunnel),
      s.conns[i]? = some (.routing addr (.opening origin tunnel)) →
      (s.conns.countP fun conn => conn.stream = some tunnel.id) < yamuxMaxStreams
  | _ => True

def Scheduled (s : State) (e : Node.Event) : Prop :=
  Cooperative s e ∧ WithinYamux s e

/-! ## Permits -/

def Conn.active : Conn → Bool
  | .finished => false
  | _ => true

def Permitted (proxy : OutboundProxy) (s : State) : Prop :=
  s.permits + s.conns.countP Conn.active = proxy.maxConnections

section Steps

variable {proxy : OutboundProxy} {shared shared' : Shared} {s s' : State} {i : Nat}
  {addr : SocketAddr} {pc next : Pc} {tunnel : Tunnel} {effect : Effect} {conn : Conn}
  {e : Event} {trace out : List Observation}

theorem Permitted.initial (proxy : OutboundProxy) : Permitted proxy proxy.initial := rfl

theorem permitted_iff :
    Permitted proxy s ↔ s.gate.permits + s.gate.held = proxy.maxConnections := by
  have hheld : s.gate.held = s.conns.countP Conn.active := by
    rw [Gate.held, State.gate, Gate.ofTasks, List.countP_map]
    refine List.countP_congr fun conn _ => ?_
    cases conn <;> simp [Conn.phase, Conn.active]
  rw [hheld]
  rfl

theorem Permitted.step (h : Permitted proxy s)
    (hchange : Change proxy shared s e shared' s' out) : Permitted proxy s' :=
  permitted_iff.mpr (hchange.gate.permits_add_held.trans (permitted_iff.mp h))

/-! ## The choice of a tunnel -/

def Pc.chosen : Pc → Option Tunnel
  | .evaluating (.tunnel _ carrier) | .evaluatingGlobal (.tunnel _ carrier)
  | .pushing _ carrier | .spawning _ carrier | .reserving _ carrier => some carrier
  | .unlocking next => next.chosen
  | _ => none

def Pc.falling : Pc → Bool
  | .fallingBack _ => true
  | .unlocking next => next.falling
  | _ => false

theorem awaits_of_chosen (h : pc.chosen = some tunnel) : pc.awaits = false := by
  cases pc <;> first | rfl | cases h

theorem awaits_of_falling (h : pc.falling = true) : pc.awaits = false := by
  cases pc <;> first | rfl | cases h

theorem reservation_of_chosen (h : pc.chosen = some tunnel) : pc.reservation = none := by
  induction pc with
  | unlocking next ih => exact ih h
  | _ => first | rfl | cases h

theorem reservation_of_falling (h : pc.falling = true) : pc.reservation = none := by
  induction pc with
  | unlocking next ih => exact ih h
  | _ => first | rfl | cases h

theorem chosen_leave (locked : Bool) (pc : Pc) : (leave locked pc).chosen = pc.chosen := by
  cases locked <;> rfl

theorem falling_leave (locked : Bool) (pc : Pc) : (leave locked pc).falling = pc.falling := by
  cases locked <;> rfl

theorem chosen_of_decided {subject : Subject} {decision : Decision}
    (h : (decided subject decision).chosen = some tunnel) :
    (Pc.evaluating subject).chosen = some tunnel := by
  revert h
  refine decided_cases (P := fun subject pc => pc.chosen = some tunnel →
    (Pc.evaluating subject).chosen = some tunnel) ?_ ?_ ?_ ?_ ?_ subject decision
  · exact fun _ _ => id
  · exact fun _ _ h => by cases h
  · exact fun _ _ h => by cases h
  · intro locked _ h
    rw [chosen_leave] at h
    cases h
  · intro locked _ h
    rw [chosen_leave] at h
    cases h

theorem falling_decided (subject : Subject) (decision : Decision) :
    (decided subject decision).falling = false := by
  refine decided_cases (P := fun _ pc => pc.falling = false) ?_ ?_ ?_ ?_ ?_ subject decision
  · exact fun _ _ => rfl
  · exact fun _ _ => rfl
  · exact fun _ _ => rfl
  · exact fun locked _ => falling_leave locked _
  · exact fun locked _ => falling_leave locked _

theorem chosen_evaluatingGlobal (subject : Subject) :
    (Pc.evaluatingGlobal subject).chosen = (Pc.evaluating subject).chosen := by
  cases subject <;> rfl

theorem Move.chosen (h : Move proxy shared s i addr pc effect conn out)
    (hconn : conn = .routing addr next) (hnext : next.chosen = some tunnel) :
    pc.chosen = some tunnel ∨ s.pool.pickUnderCap addr = some tunnel ∨
      (pc.falling = true ∧ s.pool.pickAny addr = some tunnel) ∨
      tunnel.id = s.pool.nextId := by
  cases h <;> cases hconn
  case pick hpick => exact .inr (.inl (hpick.trans hnext))
  case recheck hpick => exact .inr (.inl (hpick.trans hnext))
  case fallBack hpick => exact .inr (.inr (.inl ⟨rfl, hpick.trans hnext⟩))
  case number =>
    cases hnext
    exact .inr (.inr (.inr rfl))
  case decideNamespace => exact .inl (chosen_of_decided hnext)
  case decideGlobal subject _ _ =>
    exact .inl ((chosen_evaluatingGlobal subject).trans (chosen_of_decided hnext))
  case scan subject _ => exact .inl ((chosen_evaluatingGlobal subject).symm.trans hnext)
  case handshakeError | identifyError | openFresh | evictFresh =>
    rw [chosen_leave] at hnext
    cases hnext
  case push => exact .inl hnext
  case spawn => exact .inl hnext
  case unlock => exact .inl hnext
  all_goals cases hnext

theorem Move.falling (h : Move proxy shared s i addr pc effect conn out)
    (hconn : conn = .routing addr next) (hnext : next.falling = true) :
    (pc.falling = true ∨ s.pool.canGrow addr = false) ∧
      (effect.onPool i addr s.pool).peers = s.pool.peers := by
  cases h <;> cases hconn
  case full hfull => exact ⟨.inr hfull, rfl⟩
  case unlock => exact ⟨.inl hnext, rfl⟩
  case decideNamespace | decideGlobal =>
    rw [falling_decided] at hnext
    cases hnext
  case handshakeError | identifyError | openFresh | evictFresh =>
    rw [falling_leave] at hnext
    cases hnext
  all_goals cases hnext

/-! ## The invariant -/

structure Capped (s : State) : Prop where
  slots : ∀ id, s.conns.countP (Conn.reserves id) ≤ yamuxMaxStreams
  chosen : ∀ (j : Nat) (addr : SocketAddr) (pc : Pc) (tunnel : Tunnel),
    s.conns[j]? = some (.routing addr pc) → pc.chosen = some tunnel →
      s.conns.countP (Conn.reserves tunnel.id) < yamuxMaxStreams
  full : ∀ (j : Nat) (addr : SocketAddr) (pc : Pc), s.conns[j]? = some (.routing addr pc) →
    pc.falling = true → maxTunnelsPerPeer ≤ (s.pool.peers addr).length

theorem Capped.initial (proxy : OutboundProxy) : Capped proxy.initial where
  slots := by simp [OutboundProxy.initial]
  chosen j addr pc tunnel hj := by simp [OutboundProxy.initial] at hj
  full j addr pc hj := by simp [OutboundProxy.initial] at hj

theorem Pooled.load_eq_countP (h : Pooled trace s) (hcapped : Capped s) (tunnel : Tunnel) :
    s.pool.load tunnel = s.conns.countP (Conn.reserves tunnel.id) := by
  rw [h.load_eq, Nat.mod_eq_of_lt]
  exact (hcapped.slots tunnel.id).trans_lt (by decide)

/-- Sixteen tunnels that are all full need more connections than there are permits. -/
theorem Capped.pickAny_lt (hcapped : Capped s) (hpooled : Pooled trace s)
    (hpermitted : Permitted proxy s)
    (hmax : proxy.maxConnections ≤ maxTunnelsPerPeer * yamuxMaxStreams)
    (hi : s.conns[i]? = some (.routing addr pc)) (hpc : pc.falling = true)
    (hpick : s.pool.pickAny addr = some tunnel) :
    s.conns.countP (Conn.reserves tunnel.id) < yamuxMaxStreams := by
  set ids := (s.pool.peers addr).map Tunnel.id with hids
  have hfull := hcapped.full i addr pc hi hpc
  have hnodup : ids.Nodup := hpooled.registry.nodup_ids addr
  have hleast : ∀ id ∈ ids,
      s.conns.countP (Conn.reserves tunnel.id) ≤ s.conns.countP (Conn.reserves id) := by
    intro id hid
    obtain ⟨other, hother, rfl⟩ := List.mem_map.mp hid
    have hle := MuxPool.pickAny_le hpick hother
    rwa [hpooled.load_eq_countP hcapped, hpooled.load_eq_countP hcapped] at hle
  have hshare : ids.length * s.conns.countP (Conn.reserves tunnel.id) ≤
      s.conns.countP fun conn => conn.reservation.isSome :=
    Tasks.length_mul_le_countP hnodup hleast
  have hheld : (s.conns.countP fun conn => conn.reservation.isSome) <
      s.conns.countP Conn.active := by
    refine Tasks.countP_lt_countP hi (fun conn _ hconn => ?_) ?_ rfl
    · cases conn with
      | finished => cases hconn
      | _ => rfl
    · simp [reservation_of_falling hpc]
  have hlength : maxTunnelsPerPeer * s.conns.countP (Conn.reserves tunnel.id) ≤
      ids.length * s.conns.countP (Conn.reserves tunnel.id) :=
    Nat.mul_le_mul_right _ (by rw [hids, List.length_map]; exact hfull)
  unfold Permitted at hpermitted
  have hlt : maxTunnelsPerPeer * s.conns.countP (Conn.reserves tunnel.id) <
      maxTunnelsPerPeer * yamuxMaxStreams := by omega
  exact Nat.lt_of_mul_lt_mul_left hlt

theorem Capped.next_chosen (hcapped : Capped s) (hpooled : Pooled trace s)
    (hpermitted : Permitted proxy s)
    (hmax : proxy.maxConnections ≤ maxTunnelsPerPeer * yamuxMaxStreams)
    (hi : s.conns[i]? = some (.routing addr pc))
    (hmove : Move proxy shared s i addr pc effect conn out)
    (hconn : conn = .routing addr next) (hnext : next.chosen = some tunnel) :
    s.conns.countP (Conn.reserves tunnel.id) < yamuxMaxStreams := by
  rcases hmove.chosen hconn hnext with hpc | hpick | ⟨hpc, hpick⟩ | hid
  · exact hcapped.chosen i addr pc tunnel hi hpc
  · have hload := (MuxPool.pickUnderCap_mem hpick).2
    rw [hpooled.load_eq_countP hcapped] at hload
    exact hload.trans (by decide)
  · exact hcapped.pickAny_lt hpooled hpermitted hmax hi hpc hpick
  · have hunused : s.conns.countP (Conn.reserves tunnel.id) = 0 := by
      refine List.countP_eq_zero.mpr fun old hmem hold => ?_
      have hlt := hpooled.registry.lt_nextId hmem (of_decide_eq_true hold)
      omega
    rw [hunused]
    decide

theorem countP_reserves_set_le (hi : s.conns[i]? = some (.routing addr pc))
    (hconn : conn.reservation = none) (id : Nat) :
    (s.conns.set i conn).countP (Conn.reserves id) ≤ s.conns.countP (Conn.reserves id) := by
  have hset := Tasks.countP_set hi conn (Conn.reserves id)
  have hnone : conn.reserves id = false := by simp [Conn.reserves, hconn]
  rw [hnone, Bool.toNat_false] at hset
  omega

theorem Capped.move (hcapped : Capped s) (hpooled : Pooled trace s)
    (hpermitted : Permitted proxy s)
    (hmax : proxy.maxConnections ≤ maxTunnelsPerPeer * yamuxMaxStreams)
    (halone : ∀ (j : Nat) (other : SocketAddr) (pcJ : Pc),
      s.conns[j]? = some (.routing other pcJ) → pcJ.awaits = false → j = i)
    (hi : s.conns[i]? = some (.routing addr pc))
    (hmove : Move proxy shared s i addr pc effect conn out) :
    Capped (s.perform i addr effect conn) := by
  refine ⟨fun id => ?_, fun j other pcJ carrier hj hchosen => ?_,
    fun j other pcJ hj hfalling => ?_⟩
  · by_cases hreserve : ∃ id, effect = .reserve id
    · obtain ⟨reserved, rfl⟩ := hreserve
      have hset := Tasks.countP_set hi conn (Conn.reserves id)
      have hslots := hcapped.slots id
      cases hmove
      case reserve origin carrier =>
        have hroom := hcapped.chosen i addr _ carrier hi rfl
        simp only [State.perform]
        by_cases hid : carrier.id = id
        · subst hid
          have := Bool.toNat_le ((Conn.routing addr (.opening origin carrier)).reserves carrier.id)
          omega
        · have hnone : (Conn.routing addr (.opening origin carrier)).reserves id = false := by
            simpa [Conn.reserves, Pc.reservation] using hid
          rw [hnone, Bool.toNat_false] at hset
          omega
    · refine le_trans ?_ (hcapped.slots id)
      by_cases hunreserve : ∃ id, effect = .unreserve id
      · obtain ⟨released, rfl⟩ := hunreserve
        exact countP_reserves_set_le hi hmove.of_unreserve.2 id
      · refine (Tasks.countP_set_of_eq hi (hmove.reserves_eq ?_ ?_ id)).le
        · exact fun id heq => hreserve ⟨id, heq⟩
        · exact fun id heq => hunreserve ⟨id, heq⟩
  · rcases Tasks.getElem?_set_cases hj with ⟨rfl, hconn⟩ | ⟨hne, hold⟩
    · obtain rfl := hmove.routing_eq hconn
      have hroom := hcapped.next_chosen hpooled hpermitted hmax hi hmove hconn hchosen
      refine (countP_reserves_set_le hi ?_ carrier.id).trans_lt hroom
      rw [hconn, reservation_routing]
      exact reservation_of_chosen hchosen
    · exact absurd (halone j other pcJ hold (awaits_of_chosen hchosen)) hne
  · rcases Tasks.getElem?_set_cases hj with ⟨rfl, hconn⟩ | ⟨hne, hold⟩
    · obtain rfl := hmove.routing_eq hconn
      obtain ⟨hfull, hpeers⟩ := hmove.falling hconn hfalling
      simp only [State.perform, hpeers]
      rcases hfull with hpc | hgrow
      · exact hcapped.full j other pc hi hpc
      · refine Nat.le_of_not_lt fun hroom => ?_
        cases hgrow.symm.trans (MuxPool.canGrow_iff.mpr hroom)
    · exact absurd (halone j other pcJ hold (awaits_of_falling hfalling)) hne

private theorem Capped.frame (hcapped : Capped s)
    (hcount : ∀ id, s'.conns.countP (Conn.reserves id) = s.conns.countP (Conn.reserves id))
    (hpeers : s'.pool.peers = s.pool.peers)
    (hconns : ∀ (j : Nat) (other : SocketAddr) (pcJ : Pc),
      s'.conns[j]? = some (.routing other pcJ) →
      s.conns[j]? = some (.routing other pcJ) ∨ pcJ.chosen = none ∧ pcJ.falling = false) :
    Capped s' where
  slots id := (hcount id).le.trans (hcapped.slots id)
  chosen j other pcJ carrier hj hchosen := by
    rw [hcount]
    rcases hconns j other pcJ hj with hold | ⟨hnone, -⟩
    · exact hcapped.chosen j other pcJ carrier hold hchosen
    · cases hnone.symm.trans hchosen
  full j other pcJ hj hfalling := by
    rw [hpeers]
    rcases hconns j other pcJ hj with hold | ⟨-, hnone⟩
    · exact hcapped.full j other pcJ hold hfalling
    · cases hnone.symm.trans hfalling

theorem Capped.step (hcapped : Capped s) (hpooled : Pooled trace s)
    (hpermitted : Permitted proxy s)
    (hmax : proxy.maxConnections ≤ maxTunnelsPerPeer * yamuxMaxStreams)
    (hcooperative : Cooperative s (.outbound e)) (hview : View proxy shared s e s' out) :
    Capped s' := by
  cases hview with
  | quiet hquiet =>
      refine hcapped.frame (fun id => hquiet.count _ fun conn hconn => ?_) (by rw [hquiet.pool])
        fun j other pcJ hj => .inl ((hquiet.conns j other pcJ).mp hj)
      cases conn with
      | routing other pcJ => exact absurd rfl (hconn other pcJ)
      | _ => rfl
  | enter _ hi addr =>
      have hroute : proxy.route.reservation = none ∧ proxy.route.chosen = none ∧
          proxy.route.falling = false := by
        unfold route
        split <;> exact ⟨rfl, rfl, rfl⟩
      refine hcapped.frame (fun id => Tasks.countP_set_of_eq hi ?_) rfl fun j other pcJ hj => ?_
      · simp [Conn.reserves, hroute.1, Conn.reservation]
      · rcases Tasks.getElem?_set_cases hj with ⟨-, heq⟩ | ⟨-, hold⟩
        · cases heq
          exact .inr hroute.2
        · exact .inl hold
  | move he hi hmove =>
      refine hcapped.move hpooled hpermitted hmax (fun j other pcJ hj hawaits => ?_) hi hmove
      rw [hcooperative.run_eq hj hawaits] at he
      exact Option.some.inj he
  | driverExit => exact ⟨hcapped.slots, hcapped.chosen, hcapped.full⟩
  | driverEvict =>
      refine ⟨hcapped.slots, hcapped.chosen, fun j other pcJ hj hfalling => ?_⟩
      cases hcooperative.run_eq hj (awaits_of_falling hfalling)

end Steps

end Interlink.OutboundProxy

namespace Interlink.Node

open Interlink.Foundation OutboundProxy

/-- With no more connections than sixteen sessions have streams, no session is overloaded. -/
theorem live_le_of_maxConnections {node : Node} (hmux : node.outbound.muxEnabled = true)
    (hmax : node.outbound.maxConnections ≤ maxTunnelsPerPeer * yamuxMaxStreams)
    {parse : X509Parser} {policy : PolicyEngine} {events : List Event} {s : State}
    {trace : List Observation}
    (hscheduled : node.step.Always (fun s e => Scheduled s.outbound e)
      (node.initial parse policy) events)
    (hrun : node.step.exec (node.initial parse policy) events = some (s, trace)) (id : Nat) :
    s.outbound.pool.live id ≤ yamuxMaxStreams := by
  have hlast : Pooled (outboundTrace trace) s.outbound ∧
      Permitted node.outbound s.outbound ∧ Capped s.outbound :=
    outbound_invariant_of_always (C := Scheduled)
      (I := fun trace s => Pooled trace s ∧ Permitted node.outbound s ∧ Capped s)
      ⟨.initial node.outbound, .initial node.outbound, .initial node.outbound⟩
      (fun ⟨hpooled, hpermitted, hcapped⟩ hscheduled _ hchange =>
        ⟨hpooled.step hmux hchange.view, hpermitted.step hchange,
          hcapped.step hpooled hpermitted hmax hscheduled.1 hchange.view⟩)
      hscheduled hrun
  rw [hlast.1.loads id]
  exact (Nat.mod_le _ _).trans (hlast.2.2.slots id)

end Interlink.Node
