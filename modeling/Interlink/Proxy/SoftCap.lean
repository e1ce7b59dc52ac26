import Interlink.Proxy.StreamCap

/-!
# Streams below the soft cap

`route` puts stream number 201 on a tunnel only through `pick_any`, when sixteen
tunnels of the upstream have two hundred streams each.  As long as no more streams
than that are in use, every tunnel stays within `STREAMS_PER_TUNNEL`.
-/

namespace Interlink.OutboundProxy

open Interlink.Foundation

/-! ## Slots of one upstream -/

def Conn.slot (addr : SocketAddr) : Conn → Option Nat
  | .routing other pc => if other = addr then pc.reservation else none
  | _ => none

def State.slots (s : State) (addr : SocketAddr) (id : Nat) : Nat :=
  s.conns.countP fun conn => conn.slot addr = some id

def State.streams (s : State) (addr : SocketAddr) : Nat :=
  s.conns.countP fun conn => (conn.slot addr).isSome

def softCapacity : Nat := maxTunnelsPerPeer * streamsPerTunnel

section Steps

variable {proxy : OutboundProxy} {shared shared' : Shared} {s s' : State} {i id : Nat}
  {addr other : SocketAddr} {pc next : Pc} {tunnel : Tunnel} {effect : Effect} {conn : Conn}
  {e : Event} {trace out : List Observation}

@[simp]
theorem slot_routing (addr : SocketAddr) (pc : Pc) :
    (Conn.routing addr pc).slot addr = pc.reservation := if_pos rfl

theorem slot_routing_of_ne (hne : other ≠ addr) (pc : Pc) :
    (Conn.routing other pc).slot addr = none := if_neg hne

theorem reservation_of_slot (h : conn.slot addr = some id) : conn.reservation = some id := by
  cases conn with
  | routing other pc =>
      simp only [Conn.slot] at h
      split at h
      next => exact h
      next => cases h
  | _ => cases h

theorem slot_of_routes (hroutes : conn.routes addr = true) :
    conn.slot addr = conn.reservation := by
  cases conn with
  | routing other pc =>
      obtain rfl : other = addr := of_decide_eq_true hroutes
      exact slot_routing other pc
  | _ => cases hroutes

theorem Move.slot_eq (hmove : Move proxy shared s i addr pc effect conn out) :
    conn.slot addr = conn.reservation := by
  cases conn with
  | routing other next =>
      obtain rfl := hmove.routing_eq rfl
      exact slot_routing other next
  | _ => rfl

theorem Move.slot_of_ne (hmove : Move proxy shared s i other pc effect conn out)
    (hne : other ≠ addr) : conn.slot addr = none := by
  cases conn with
  | routing third next =>
      obtain rfl := hmove.routing_eq rfl
      exact slot_routing_of_ne hne next
  | _ => rfl

theorem Pooled.slots_eq (h : Pooled trace s) (hregistered : .registered addr tunnel ∈ trace) :
    s.slots addr tunnel.id = s.conns.countP (Conn.reserves tunnel.id) := by
  refine List.countP_congr fun conn hmem => ?_
  constructor
  · intro hslot
    exact decide_eq_true (reservation_of_slot (of_decide_eq_true hslot))
  · intro hreserves
    have hroutes := h.registry.routes_of_reserves hregistered hmem hreserves
    exact decide_eq_true ((slot_of_routes hroutes).trans (of_decide_eq_true hreserves))

theorem Pooled.load_eq_slots (h : Pooled trace s)
    (hregistered : .registered addr tunnel ∈ trace) :
    s.pool.load tunnel = s.slots addr tunnel.id % wordSize := by
  rw [h.load_eq, h.slots_eq hregistered]

theorem Registry.slots_nextId (h : Registry trace s) (addr : SocketAddr) :
    s.slots addr s.pool.nextId = 0 := by
  refine List.countP_eq_zero.mpr fun conn hmem hslot => ?_
  exact (h.lt_nextId hmem (reservation_of_slot (of_decide_eq_true hslot))).false

/-! ## Looking for a tunnel below the cap -/

/-- The connection has found no tunnel below the soft cap and has not suspended since. -/
def Pc.crowded : Pc → Bool
  | .checkingGrowth _ | .fallingBack _ => true
  | .unlocking next => next.crowded
  | _ => false

theorem awaits_of_crowded (h : pc.crowded = true) : pc.awaits = false := by
  cases pc <;> first | rfl | cases h

theorem crowded_of_falling (h : pc.falling = true) : pc.crowded = true := by
  induction pc with
  | unlocking next ih => exact ih h
  | fallingBack attempts => rfl
  | _ => cases h

theorem crowded_leave (locked : Bool) (pc : Pc) : (leave locked pc).crowded = pc.crowded := by
  cases locked <;> rfl

theorem crowded_decided (subject : Subject) (decision : Decision) :
    (decided subject decision).crowded = false := by
  refine decided_cases (P := fun _ pc => pc.crowded = false) ?_ ?_ ?_ ?_ ?_ subject decision
  · exact fun _ _ => rfl
  · exact fun _ _ => rfl
  · exact fun _ _ => rfl
  · exact fun locked _ => crowded_leave locked _
  · exact fun locked _ => crowded_leave locked _

theorem Move.crowded (h : Move proxy shared s i addr pc effect conn out)
    (hconn : conn = .routing addr next) (hnext : next.crowded = true) :
    (pc.crowded = true ∨ s.pool.pickUnderCap addr = none) ∧
      (effect.onPool i addr s.pool).pickUnderCap addr = s.pool.pickUnderCap addr := by
  cases h <;> cases hconn
  case recheckNone hpick => exact ⟨.inr hpick, rfl⟩
  case full => exact ⟨.inl rfl, rfl⟩
  case unlock => exact ⟨.inl hnext, rfl⟩
  case decideNamespace | decideGlobal =>
    rw [crowded_decided] at hnext
    cases hnext
  case handshakeError | identifyError | openFresh | evictFresh =>
    rw [crowded_leave] at hnext
    cases hnext
  all_goals cases hnext

/-! ## The invariant -/

structure Balanced (addr : SocketAddr) (s : State) : Prop where
  slots : ∀ id, s.slots addr id ≤ streamsPerTunnel
  chosen : ∀ (j : Nat) (pc : Pc) (tunnel : Tunnel), s.conns[j]? = some (.routing addr pc) →
    pc.chosen = some tunnel →
      s.slots addr tunnel.id < streamsPerTunnel ∨ softCapacity ≤ s.streams addr
  crowded : ∀ (j : Nat) (pc : Pc), s.conns[j]? = some (.routing addr pc) →
    pc.crowded = true → s.pool.pickUnderCap addr = none
  full : ∀ (j : Nat) (pc : Pc), s.conns[j]? = some (.routing addr pc) →
    pc.falling = true → maxTunnelsPerPeer ≤ (s.pool.peers addr).length

theorem Balanced.initial (proxy : OutboundProxy) (addr : SocketAddr) :
    Balanced addr proxy.initial where
  slots := by simp [OutboundProxy.initial, State.slots]
  chosen j pc tunnel hj := by simp [OutboundProxy.initial] at hj
  crowded j pc hj := by simp [OutboundProxy.initial] at hj
  full j pc hj := by simp [OutboundProxy.initial] at hj

/-- A connection falls back to `pick_any` only when the soft capacity is used up. -/
theorem Balanced.softCapacity_le (h : Balanced addr s) (hpooled : Pooled trace s)
    (hi : s.conns[i]? = some (.routing addr pc)) (hpc : pc.falling = true) :
    softCapacity ≤ s.streams addr := by
  set ids := (s.pool.peers addr).map Tunnel.id with hids
  have hfull : maxTunnelsPerPeer ≤ ids.length := by
    rw [hids, List.length_map]
    exact h.full i pc hi hpc
  have hcrowded := h.crowded i pc hi (crowded_of_falling hpc)
  have hloaded : ∀ id ∈ ids, streamsPerTunnel ≤ s.slots addr id := by
    intro id hid
    obtain ⟨tunnel, hmem, rfl⟩ := List.mem_map.mp hid
    have hload := MuxPool.pickUnderCap_eq_none hcrowded hmem
    rw [hpooled.load_eq_slots (hpooled.registry.mem_peers.mp hmem).1] at hload
    exact hload.trans (Nat.mod_le _ _)
  calc softCapacity
      ≤ ids.length * streamsPerTunnel := Nat.mul_le_mul_right _ hfull
    _ ≤ s.streams addr :=
        Tasks.length_mul_le_countP (hpooled.registry.nodup_ids addr) hloaded

theorem Balanced.next_chosen (h : Balanced addr s) (hpooled : Pooled trace s)
    (hi : s.conns[i]? = some (.routing addr pc))
    (hmove : Move proxy shared s i addr pc effect conn out)
    (hconn : conn = .routing addr next) (hnext : next.chosen = some tunnel) :
    s.slots addr tunnel.id < streamsPerTunnel ∨ softCapacity ≤ s.streams addr := by
  rcases hmove.chosen hconn hnext with hpc | hpick | ⟨hpc, -⟩ | hid
  · exact h.chosen i pc tunnel hi hpc
  · obtain ⟨hmem, hload⟩ := MuxPool.pickUnderCap_mem hpick
    rw [hpooled.load_eq_slots (hpooled.registry.mem_peers.mp hmem).1,
      Nat.mod_eq_of_lt ((h.slots tunnel.id).trans_lt (by decide))] at hload
    exact .inl hload
  · exact .inr (h.softCapacity_le hpooled hi hpc)
  · rw [hid, hpooled.registry.slots_nextId]
    exact .inl (by decide)

theorem Move.reservation_of_chosen (h : Move proxy shared s i addr pc effect conn out)
    (hconn : conn = .routing addr next) (hnext : next.chosen = some tunnel) :
    pc.reservation = none := by
  cases h <;> cases hconn
  case unlock => exact OutboundProxy.reservation_of_chosen hnext
  case openFresh =>
    rw [chosen_leave] at hnext
    cases hnext
  all_goals first | rfl | cases hnext

theorem Balanced.of_awaits (hslots : ∀ id, s.slots addr id ≤ streamsPerTunnel)
    (hawaits : ∀ (j : Nat) (pc : Pc), s.conns[j]? = some (.routing addr pc) →
      pc.awaits = true) : Balanced addr s where
  slots := hslots
  chosen j pc _ hj hchosen :=
    Bool.noConfusion ((awaits_of_chosen hchosen).symm.trans (hawaits j pc hj))
  crowded j pc hj hcrowded :=
    Bool.noConfusion ((awaits_of_crowded hcrowded).symm.trans (hawaits j pc hj))
  full j pc hj hfalling :=
    Bool.noConfusion ((awaits_of_falling hfalling).symm.trans (hawaits j pc hj))

theorem Balanced.reserve {origin : Origin} (h : Balanced addr s)
    (halone : ∀ (j : Nat) (other : SocketAddr) (pcJ : Pc),
      s.conns[j]? = some (.routing other pcJ) → pcJ.awaits = false → j = i)
    (hi : s.conns[i]? = some (.routing addr (.reserving origin tunnel))) :
    Balanced addr
        (s.perform i addr (.reserve tunnel.id) (.routing addr (.opening origin tunnel))) ∨
      softCapacity <
        (s.perform i addr (.reserve tunnel.id)
          (.routing addr (.opening origin tunnel))).streams addr := by
  rcases h.chosen i _ tunnel hi rfl with hroom | hused
  · refine .inl (.of_awaits (fun id => ?_) fun j pc hj => ?_)
    · have hset := Tasks.countP_set hi (.routing addr (.opening origin tunnel))
        fun conn => conn.slot addr = some id
      simp only [slot_routing, Pc.reservation, reduceCtorEq, decide_false, Bool.toNat_false,
        Option.some.injEq] at hset
      have hslots := h.slots id
      simp only [State.slots, State.perform] at hslots hroom ⊢
      by_cases hid : tunnel.id = id
      · subst hid
        simp only [decide_true, Bool.toNat_true] at hset
        omega
      · simp only [hid, decide_false, Bool.toNat_false] at hset
        omega
    · rcases Tasks.getElem?_set_cases hj with ⟨-, heq⟩ | ⟨hne, hold⟩
      · cases heq
        rfl
      · exact Bool.eq_true_of_not_eq_false fun hawaits => hne (halone j addr pc hold hawaits)
  · refine .inr (Nat.lt_of_le_of_lt hused ?_)
    have hset : (s.conns.set i (.routing addr (.opening origin tunnel))).countP
        (fun conn => (conn.slot addr).isSome) = s.conns.countP _ + 1 :=
      Tasks.countP_set_of_enter hi (by simp [Pc.reservation]) (by simp [Pc.reservation])
    simp only [State.streams, State.perform]
    omega

theorem slots_perform_le (hi : s.conns[i]? = some (.routing addr pc))
    (hmove : Move proxy shared s i addr pc effect conn out)
    (hreserve : ∀ id, effect ≠ .reserve id) (id : Nat) :
    (s.perform i addr effect conn).slots addr id ≤ s.slots addr id := by
  have hset := Tasks.countP_set hi conn fun conn => conn.slot addr = some id
  have hslot : conn.slot addr = pc.reservation ∨ conn.slot addr = none := by
    rw [hmove.slot_eq]
    by_cases hunreserve : ∃ id, effect = .unreserve id
    · obtain ⟨released, rfl⟩ := hunreserve
      exact .inr hmove.of_unreserve.2
    · exact .inl (hmove.reservation_eq hreserve fun id heq => hunreserve ⟨id, heq⟩)
  simp only [State.slots, State.perform]
  rcases hslot with hslot | hslot
  · simp only [slot_routing, hslot] at hset
    omega
  · simp only [hslot, reduceCtorEq, decide_false, Bool.toNat_false] at hset
    omega

theorem Balanced.move (h : Balanced addr s) (hpooled : Pooled trace s)
    (halone : ∀ (j : Nat) (other : SocketAddr) (pcJ : Pc),
      s.conns[j]? = some (.routing other pcJ) → pcJ.awaits = false → j = i)
    (hi : s.conns[i]? = some (.routing addr pc))
    (hmove : Move proxy shared s i addr pc effect conn out)
    (hreserve : ∀ id, effect ≠ .reserve id) : Balanced addr (s.perform i addr effect conn) := by
  refine ⟨fun id => (slots_perform_le hi hmove hreserve id).trans (h.slots id),
    fun j pcJ carrier hj hchosen => ?_, fun j pcJ hj hcrowded => ?_, fun j pcJ hj hfalling => ?_⟩
  · rcases Tasks.getElem?_set_cases hj with ⟨rfl, hconn⟩ | ⟨hne, hold⟩
    · have hslot : conn.slot addr = (Conn.routing addr pc).slot addr := by
        rw [hconn, slot_routing, slot_routing, reservation_of_chosen hchosen,
          hmove.reservation_of_chosen hconn hchosen]
      have hslots : (s.perform j addr effect conn).slots addr carrier.id =
          s.slots addr carrier.id :=
        Tasks.countP_set_of_eq hi (by rw [hslot])
      have hstreams : (s.perform j addr effect conn).streams addr = s.streams addr :=
        Tasks.countP_set_of_eq hi (by rw [hslot])
      rw [hslots, hstreams]
      exact h.next_chosen hpooled hi hmove hconn hchosen
    · exact absurd (halone j addr pcJ hold (awaits_of_chosen hchosen)) hne
  · rcases Tasks.getElem?_set_cases hj with ⟨rfl, hconn⟩ | ⟨hne, hold⟩
    · obtain ⟨hold, hpick⟩ := hmove.crowded hconn hcrowded
      simp only [State.perform, hpick]
      exact hold.elim (h.crowded j pc hi) id
    · exact absurd (halone j addr pcJ hold (awaits_of_crowded hcrowded)) hne
  · rcases Tasks.getElem?_set_cases hj with ⟨rfl, hconn⟩ | ⟨hne, hold⟩
    · obtain ⟨hfull, hpeers⟩ := hmove.falling hconn hfalling
      simp only [State.perform, hpeers]
      rcases hfull with hpc | hgrow
      · exact h.full j pc hi hpc
      · refine Nat.le_of_not_lt fun hroom => ?_
        cases hgrow.symm.trans (MuxPool.canGrow_iff.mpr hroom)
    · exact absurd (halone j addr pcJ hold (awaits_of_falling hfalling)) hne

theorem Balanced.moveElsewhere (h : Balanced addr s) (hne : other ≠ addr)
    (halone : ∀ (j : Nat) (other : SocketAddr) (pcJ : Pc),
      s.conns[j]? = some (.routing other pcJ) → pcJ.awaits = false → j = i)
    (hi : s.conns[i]? = some (.routing other pc))
    (hmove : Move proxy shared s i other pc effect conn out) :
    Balanced addr (s.perform i other effect conn) := by
  refine .of_awaits (fun id => ?_) fun j pcJ hj => ?_
  · have hslots : (s.perform i other effect conn).slots addr id = s.slots addr id :=
      Tasks.countP_set_of_eq hi (by rw [hmove.slot_of_ne hne, slot_routing_of_ne hne])
    rw [hslots]
    exact h.slots id
  · rcases Tasks.getElem?_set_cases hj with ⟨-, hconn⟩ | ⟨hji, hold⟩
    · exact absurd (hmove.routing_eq hconn).symm hne
    · exact Bool.eq_true_of_not_eq_false fun hawaits => hji (halone j addr pcJ hold hawaits)

private theorem Balanced.frame (h : Balanced addr s)
    (hcount : ∀ p : Option Nat → Bool, p none = false →
      s'.conns.countP (fun conn => p (conn.slot addr)) =
        s.conns.countP fun conn => p (conn.slot addr))
    (hpool : s'.pool = s.pool)
    (hconns : ∀ (j : Nat) (pcJ : Pc), s'.conns[j]? = some (.routing addr pcJ) →
      s.conns[j]? = some (.routing addr pcJ) ∨ pcJ.chosen = none ∧ pcJ.crowded = false) :
    Balanced addr s' := by
  have hslots : ∀ id, s'.slots addr id = s.slots addr id := fun id =>
    hcount (fun slot => slot = some id) rfl
  have hstreams : s'.streams addr = s.streams addr := hcount Option.isSome rfl
  refine ⟨fun id => ?_, fun j pcJ carrier hj hchosen => ?_, fun j pcJ hj hcrowded => ?_,
    fun j pcJ hj hfalling => ?_⟩
  · rw [hslots]
    exact h.slots id
  · rw [hslots, hstreams]
    rcases hconns j pcJ hj with hold | ⟨hnone, -⟩
    · exact h.chosen j pcJ carrier hold hchosen
    · cases hnone.symm.trans hchosen
  · rw [hpool]
    rcases hconns j pcJ hj with hold | ⟨-, hnone⟩
    · exact h.crowded j pcJ hold hcrowded
    · cases hnone.symm.trans hcrowded
  · rw [hpool]
    rcases hconns j pcJ hj with hold | ⟨-, hnone⟩
    · exact h.full j pcJ hold hfalling
    · cases hnone.symm.trans (crowded_of_falling hfalling)

theorem Balanced.step (h : Balanced addr s) (hpooled : Pooled trace s)
    (hcooperative : Cooperative s (.outbound e)) (hview : View proxy shared s e s' out) :
    Balanced addr s' ∨ softCapacity < s'.streams addr := by
  cases hview with
  | quiet hquiet =>
      refine .inl (h.frame (fun p hp => hquiet.count _ fun conn hconn => ?_) hquiet.pool
        fun j pcJ hj => .inl ((hquiet.conns j addr pcJ).mp hj))
      cases conn with
      | routing other pcJ => exact absurd rfl (hconn other pcJ)
      | _ => exact hp
  | enter _ hi other =>
      have hroute : proxy.route.reservation = none ∧ proxy.route.chosen = none ∧
          proxy.route.crowded = false := by
        unfold route
        split <;> exact ⟨rfl, rfl, rfl⟩
      have hslot : (Conn.routing other proxy.route).slot addr = none := by
        simp only [Conn.slot, hroute.1, ite_self]
      refine .inl (h.frame (fun p hp => Tasks.countP_set_of_eq hi ?_) rfl fun j pcJ hj => ?_)
      · rw [hslot]
        rfl
      · rcases Tasks.getElem?_set_cases hj with ⟨-, heq⟩ | ⟨-, hold⟩
        · cases heq
          exact .inr hroute.2
        · exact .inl hold
  | @move _ i other pc effect conn _ he hi hmove =>
      have halone : ∀ (j : Nat) (third : SocketAddr) (pcJ : Pc),
          s.conns[j]? = some (.routing third pcJ) → pcJ.awaits = false → j = i := by
        intro j third pcJ hj hawaits
        rw [hcooperative.run_eq hj hawaits] at he
        exact Option.some.inj he
      by_cases hother : other = addr
      · subst hother
        by_cases hreserve : ∃ id, effect = .reserve id
        · obtain ⟨id, rfl⟩ := hreserve
          cases hmove
          exact h.reserve halone hi
        · exact .inl (h.move hpooled halone hi hmove fun id heq => hreserve ⟨id, heq⟩)
      · exact .inl (h.moveElsewhere hother halone hi hmove)
  | driverExit => exact .inl ⟨h.slots, h.chosen, h.crowded, h.full⟩
  | driverEvict =>
      refine .inl (.of_awaits h.slots fun j pcJ hj => ?_)
      refine Bool.eq_true_of_not_eq_false fun hawaits => ?_
      cases hcooperative.run_eq hj hawaits

end Steps

end Interlink.OutboundProxy

namespace Interlink.Node

open Interlink.Foundation OutboundProxy

/--
While no more than the soft capacity of an upstream is reserved or open, the `live`
counter of each of its tunnels is within the soft cap, whether the tunnel is still in
the pool or evicted.
-/
theorem load_le_streamsPerTunnel {node : Node} (hmux : node.outbound.muxEnabled = true)
    {parse : X509Parser} {policy : PolicyEngine} {events : List Event} {s : State}
    {trace : List Observation} {addr : SocketAddr} {tunnel : Tunnel}
    (hrun : node.step.exec (node.initial parse policy) events = some (s, trace))
    (hbefore : node.step.Always
      (fun s e => Cooperative s.outbound e ∧ s.outbound.streams addr ≤ softCapacity)
      (node.initial parse policy) events)
    (hlast : s.outbound.streams addr ≤ softCapacity)
    (hregistered : .registered addr tunnel ∈ outboundTrace trace) :
    s.outbound.pool.load tunnel ≤ streamsPerTunnel := by
  have hbalanced : Pooled (outboundTrace trace) s.outbound ∧
      (Balanced addr s.outbound ∨ softCapacity < s.outbound.streams addr) := by
    refine outbound_invariant_of_always
      (C := fun s e => Cooperative s e ∧ s.streams addr ≤ softCapacity)
      (I := fun trace s => Pooled trace s ∧ (Balanced addr s ∨ softCapacity < s.streams addr))
      ⟨.initial node.outbound, .inl (.initial node.outbound addr)⟩ ?_ hbefore hrun
    rintro trace shared s e shared' s' out ⟨hpooled, hbalanced⟩ ⟨hcooperative, hwithin⟩ _ hchange
    refine ⟨hpooled.step hmux hchange.view, ?_⟩
    rcases hbalanced with hbalanced | hover
    · exact hbalanced.step hpooled hcooperative hchange.view
    · omega
  obtain ⟨hpooled, hbalanced | hover⟩ := hbalanced
  · rw [hpooled.load_eq_slots hregistered]
    exact (Nat.mod_le _ _).trans (hbalanced.slots tunnel.id)
  · omega

section Example

open Example

private def shareTunnel : List OutboundProxy.Event :=
  [OutboundProxy.Event.accept none] ++ List.replicate 8 (OutboundProxy.Event.run 0) ++
    [OutboundProxy.Event.handshaken 0 muxHandshake] ++
    List.replicate 8 (OutboundProxy.Event.run 0) ++ [OutboundProxy.Event.opened 0 true] ++
    List.replicate 2 (OutboundProxy.Event.run 0) ++ [OutboundProxy.Event.accept none] ++
    List.replicate 7 (OutboundProxy.Event.run 1) ++ [OutboundProxy.Event.opened 1 true] ++
    List.replicate 1 (OutboundProxy.Event.run 1)

private def shared : Tunnel := ⟨0, workload, ⟨0, some [svid], some alpnMux⟩⟩

theorem shareTunnel_load_le :
    ∃ last, sidecar.step.exec (sidecar.initial readSvid allowAny)
        (shareTunnel.map .outbound) = some last ∧
      last.1.outbound.pool.load shared = 2 ∧
      last.1.outbound.pool.load shared ≤ streamsPerTunnel := by
  have hlast : (sidecar.step.exec (sidecar.initial readSvid allowAny)
      (shareTunnel.map .outbound)).any (fun last =>
        last.1.outbound.pool.load shared = 2 &&
          (last.1.outbound.streams application = 2 &&
            (outboundTrace last.2).contains (.registered application shared))) = true := by
    decide +kernel
  have hbefore : sidecar.step.Always
      (fun s e => Cooperative s.outbound e ∧ s.outbound.streams application ≤ softCapacity)
      (sidecar.initial readSvid allowAny) (shareTunnel.map .outbound) := by
    decide +kernel
  obtain ⟨last, hrun, hcheck⟩ := (Option.any_eq_true _ _).mp hlast
  simp only [Bool.and_eq_true, decide_eq_true_eq, List.contains_iff_mem] at hcheck
  obtain ⟨hload, hstreams, hregistered⟩ := hcheck
  refine ⟨last, hrun, hload, ?_⟩
  exact load_le_streamsPerTunnel rfl hrun hbefore (hstreams.le.trans (by decide)) hregistered

end Example

end Interlink.Node
