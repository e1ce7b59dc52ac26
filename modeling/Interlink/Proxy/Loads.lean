import Interlink.Foundation.Counters
import Interlink.Proxy.Pool

/-!
# Loads

The `live` counter of a tunnel counts, modulo the word size, the connections that
hold a slot on it.
-/

namespace Interlink.OutboundProxy

open Interlink.Foundation

/--
The tunnel on which a connection holds a slot: from the increment in `open_stream`
to the decrement, after a failed open or when the stream is dropped.
-/
def Pc.reservation : Pc → Option Nat
  | .opening _ carrier | .unreserving _ carrier | .returning (.muxStream carrier)
  | .relaying (.muxStream carrier) | .dropping (.muxStream carrier) => some carrier.id
  | .unlocking next => next.reservation
  | _ => none

def Conn.reservation : Conn → Option Nat
  | .routing _ pc => pc.reservation
  | _ => none

def Conn.reserves (id : Nat) (conn : Conn) : Bool :=
  conn.reservation = some id

@[simp]
theorem reservation_routing (addr : SocketAddr) (pc : Pc) :
    (Conn.routing addr pc).reservation = pc.reservation := rfl

def Loads (s : State) : Prop :=
  ∀ id, s.pool.live id = s.conns.countP (Conn.reserves id) % wordSize

variable {proxy : OutboundProxy} {shared : Shared} {s s' : State} {i id : Nat}
  {addr : SocketAddr} {pc : Pc} {effect : Effect} {conn : Conn} {e : Event}
  {trace out : List Observation}

theorem tunnel_of_reservation (h : pc.reservation = some id) :
    ∃ tunnel, pc.tunnel = some tunnel ∧ tunnel.id = id := by
  induction pc with
  | opening origin carrier => exact ⟨carrier, rfl, Option.some.inj h⟩
  | unreserving origin carrier => exact ⟨carrier, rfl, Option.some.inj h⟩
  | unlocking next ih => exact ih h
  | returning route =>
      cases route with
      | muxStream carrier => exact ⟨carrier, rfl, Option.some.inj h⟩
      | _ => cases h
  | relaying route =>
      cases route with
      | muxStream carrier => exact ⟨carrier, rfl, Option.some.inj h⟩
      | _ => cases h
  | dropping route =>
      cases route with
      | muxStream carrier => exact ⟨carrier, rfl, Option.some.inj h⟩
      | _ => cases h
  | _ => cases h

/-! ## Moves and slots -/

theorem reservation_leave (locked : Bool) (pc : Pc) :
    (leave locked pc).reservation = pc.reservation := by
  cases locked <;> rfl

theorem reservation_decided (subject : Subject) (decision : Decision) :
    (decided subject decision).reservation = none := by
  refine decided_cases (P := fun _ pc => pc.reservation = none) ?_ ?_ ?_ ?_ ?_ subject decision
  · exact fun _ _ => rfl
  · exact fun _ _ => rfl
  · exact fun _ _ => rfl
  · exact fun locked _ => reservation_leave locked _
  · exact fun locked _ => reservation_leave locked _

theorem Move.of_reserve (h : Move proxy shared s i addr pc (.reserve id) conn out) :
    pc.reservation = none ∧ conn.reservation = some id := by
  cases h
  case reserve => exact ⟨rfl, rfl⟩

theorem Move.of_unreserve (h : Move proxy shared s i addr pc (.unreserve id) conn out) :
    pc.reservation = some id ∧ conn.reservation = none := by
  cases h
  case unreserve => exact ⟨rfl, rfl⟩
  case dropMux => exact ⟨rfl, rfl⟩

theorem Move.reservation_eq (h : Move proxy shared s i addr pc effect conn out)
    (hreserve : ∀ id, effect ≠ .reserve id) (hunreserve : ∀ id, effect ≠ .unreserve id) :
    conn.reservation = pc.reservation := by
  cases h
  case reserve tunnel => exact absurd rfl (hreserve tunnel.id)
  case unreserve tunnel => exact absurd rfl (hunreserve tunnel.id)
  case dropMux tunnel => exact absurd rfl (hunreserve tunnel.id)
  case handshakeError | identifyError | openFresh | evictFresh => exact reservation_leave ..
  case decideNamespace => exact reservation_decided ..
  case decideGlobal => exact reservation_decided ..
  case relayEnd route _ => cases route <;> rfl
  case dropOther route hroute =>
    cases route
    case muxStream tunnel => exact absurd rfl (hroute tunnel)
    all_goals rfl
  all_goals rfl

theorem Move.reserves_eq (h : Move proxy shared s i addr pc effect conn out)
    (hreserve : ∀ id, effect ≠ .reserve id) (hunreserve : ∀ id, effect ≠ .unreserve id)
    (id : Nat) : conn.reserves id = (Conn.routing addr pc).reserves id :=
  congrArg (fun r : Option Nat => decide (r = some id)) (h.reservation_eq hreserve hunreserve)

/-! ## Steps keep the counts -/

theorem Registry.lt_nextId (h : Registry trace s) (hmem : conn ∈ s.conns)
    (hid : conn.reservation = some id) : id < s.pool.nextId := by
  obtain ⟨j, hj⟩ := List.getElem?_of_mem hmem
  cases conn with
  | routing addr pc =>
      obtain ⟨tunnel, htunnel, rfl⟩ := tunnel_of_reservation hid
      exact h.numbered (addr, tunnel)
        (mem_registrations.mpr (h.held j addr pc hj tunnel htunnel))
  | _ => cases hid

theorem Loads.reserve (h : Loads s) (hi : s.conns[i]? = some (.routing addr pc))
    (hpc : pc.reservation = none) (hconn : conn.reservation = some id) :
    Loads (s.perform i addr (.reserve id) conn) :=
  Counts.take h hi hpc hconn

theorem Loads.unreserve (h : Loads s) (hi : s.conns[i]? = some (.routing addr pc))
    (hpc : pc.reservation = some id) (hconn : conn.reservation = none) :
    Loads (s.perform i addr (.unreserve id) conn) :=
  Counts.give (by decide) h hi hpc hconn

theorem Loads.move (h : Loads s) (hregistry : Registry trace s)
    (hi : s.conns[i]? = some (.routing addr pc))
    (hmove : Move proxy shared s i addr pc effect conn out) :
    Loads (s.perform i addr effect conn) := by
  cases effect with
  | reserve id =>
      obtain ⟨hpc, hconn⟩ := hmove.of_reserve
      exact h.reserve hi hpc hconn
  | unreserve id =>
      obtain ⟨hpc, hconn⟩ := hmove.of_unreserve
      exact h.unreserve hi hpc hconn
  | takeId =>
      have hunused : ∀ old ∈ s.conns, old.reservation ≠ some s.pool.nextId :=
        fun old hmem hold => (hregistry.lt_nextId hmem hold).false
      exact (Counts.reset h hunused).keep hi (hmove.reservation_eq (by simp) (by simp))
  | _ => exact Counts.keep h hi (hmove.reservation_eq (by simp) (by simp))

theorem Loads.step (h : Loads s) (hregistry : Registry trace s)
    (hview : View proxy shared s e s' out) : Loads s' := by
  cases hview with
  | quiet hquiet =>
      intro id
      rw [hquiet.pool, h id, hquiet.count]
      intro conn hconn
      cases conn with
      | routing addr pc => exact absurd rfl (hconn addr pc)
      | _ => rfl
  | enter _ hi addr =>
      refine Counts.keep h hi ?_
      unfold route
      split <;> rfl
  | move _ hi hmove => exact h.move hregistry hi hmove
  | driverExit => exact h
  | driverEvict => exact h

theorem Loads.initial (proxy : OutboundProxy) : Loads proxy.initial := by
  intro id
  simp [OutboundProxy.initial, MuxPool.new]

/-! ## The pool as a whole -/

structure Pooled (trace : List Observation) (s : State) : Prop where
  registry : Registry trace s
  growth : Growth s
  loads : Loads s

theorem Pooled.initial (proxy : OutboundProxy) : Pooled [] proxy.initial :=
  ⟨.initial proxy, .initial proxy, .initial proxy⟩

theorem Pooled.step (hmux : proxy.muxEnabled = true) (h : Pooled trace s)
    (hview : View proxy shared s e s' out) : Pooled (trace ++ out) s' :=
  ⟨h.registry.step hview, h.growth.step hmux hview, h.loads.step h.registry hview⟩

def Conn.routes (addr : SocketAddr) : Conn → Bool
  | .routing other _ => other = addr
  | _ => false

theorem Registry.routes_of_reserves (h : Registry trace s) {tunnel : Tunnel}
    (hregistered : .registered addr tunnel ∈ trace) (hmem : conn ∈ s.conns)
    (hconn : conn.reserves tunnel.id = true) : conn.routes addr = true := by
  obtain ⟨j, hj⟩ := List.getElem?_of_mem hmem
  have hreservation : conn.reservation = some tunnel.id := of_decide_eq_true hconn
  cases conn with
  | routing other pc =>
      obtain ⟨carrier, hcarrier, hid⟩ := tunnel_of_reservation hreservation
      have hother := mem_registrations.mpr (h.held j other pc hj carrier hcarrier)
      have hentry := List.inj_on_of_nodup_map h.distinct hother
        (mem_registrations.mpr hregistered) hid
      exact decide_eq_true (Prod.ext_iff.mp hentry).1
  | _ => cases hreservation

theorem Pooled.load_eq (h : Pooled trace s) (tunnel : Tunnel) :
    s.pool.load tunnel = s.conns.countP (Conn.reserves tunnel.id) % wordSize :=
  h.loads tunnel.id

/--
A connection that holds no slot finds one as long as at most `streamsPerTunnel`
connections are routed to the address, itself included.
-/
theorem Pooled.peers_eq_nil (h : Pooled trace s) (hi : s.conns[i]? = some (.routing addr pc))
    (hpc : pc.reservation = none)
    (hcount : s.conns.countP (Conn.routes addr) ≤ streamsPerTunnel)
    (hpick : s.pool.pickUnderCap addr = none) : s.pool.peers addr = [] := by
  refine List.eq_nil_iff_forall_not_mem.mpr fun tunnel hmem => ?_
  have hload := MuxPool.pickUnderCap_eq_none hpick hmem
  have hregistered := (h.registry.mem_peers.mp hmem).1
  have hlt : s.conns.countP (Conn.reserves tunnel.id) < s.conns.countP (Conn.routes addr) := by
    refine Tasks.countP_lt_countP hi
      (fun conn hconn => h.registry.routes_of_reserves hregistered hconn) ?_ ?_
    · simp [Conn.reserves, hpc]
    · simp [Conn.routes]
  have hmod : s.conns.countP (Conn.reserves tunnel.id) % wordSize ≤
      s.conns.countP (Conn.reserves tunnel.id) := Nat.mod_le _ _
  rw [h.load_eq] at hload
  omega

end Interlink.OutboundProxy
