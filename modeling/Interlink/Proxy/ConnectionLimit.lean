import Interlink.Proxy.Shutdown

/-!
# The connection limit of the inbound proxy

A permit is taken for an accepted connection.  The handler of a mux tunnel holds the
permit of its connection as long as the tunnel is served; the streams of the tunnel take
none, so the limit is on connections and tunnels and not on what is relayed.
-/

namespace Interlink

open Interlink.Foundation

namespace TcpProxy

def Conn.serves : Conn → Bool
  | .handling _ (.serving _) => true
  | _ => false

def Conn.ended : Conn → Bool
  | .leaving | .releasing | .finished => true
  | _ => false

/-- The application connections that are being relayed: accepted connections and streams. -/
def relayCount (s : State) : Nat :=
  s.conns.countP Conn.relays + s.streams.countP fun stream => stream.pc = .relaying

variable {proxy : TcpProxy} {shared shared' : Shared} {s s' : State} {i j : Nat}
  {addr : SocketAddr} {tls : TlsStream} {pc : Pc} {effect : Effect} {conn next : Conn}
  {stream : Stream} {e : Event} {out : List Observation}

theorem relays_add_serves_le_held (s : State) :
    s.conns.countP Conn.relays + s.conns.countP Conn.serves ≤ s.gate.held := by
  rw [Gate.held, State.gate, Gate.ofTasks, List.countP_map]
  refine Tasks.countP_add_countP_le fun conn _ => ?_
  cases conn with
  | handling addr pc => cases pc <;> simp [Conn.relays, Conn.serves, Conn.phase]
  | _ => simp [Conn.relays, Conn.serves, Conn.phase]

/-! ## Streams and the connections that carry them -/

/-- The connection of a stream serves the tunnel that accepted it, or has ended. -/
def Stream.CarriedBy (stream : Stream) (conn : Conn) : Prop :=
  conn = .handling stream.upstream (.serving stream.tls) ∨ conn.ended = true

def Carried (s : State) : Prop :=
  ∀ stream ∈ s.streams, ∃ conn, s.conns[stream.conn]? = some conn ∧ stream.CarriedBy conn

private theorem carried_set (hj : s.conns[j]? = some conn) (hcarried : stream.CarriedBy conn)
    (hi : ∀ old, s.conns[i]? = some old → stream.CarriedBy old → stream.CarriedBy next) :
    ∃ conn, (s.conns.set i next)[j]? = some conn ∧ stream.CarriedBy conn := by
  by_cases hij : i = j
  · subst hij
    exact ⟨next, Tasks.getElem?_set_of hj next, hi conn hj hcarried⟩
  · exact ⟨conn, (List.getElem?_set_ne hij).trans hj, hcarried⟩

theorem Move.carriedBy (h : Move proxy shared s i addr pc effect conn out)
    (hcarried : stream.CarriedBy (.handling addr pc)) : stream.CarriedBy conn := by
  rcases hcarried with hserving | hended
  · cases h with
    | acceptStream => exact .inl hserving
    | closeTunnel => exact .inr rfl
    | _ => cases hserving
  · cases hended

theorem Carried.step (h : Carried s) (hchange : Change proxy shared s e shared' s' out) :
    Carried s' := by
  have hset : ∀ {i old next}, s.conns[i]? = some old → (∀ stream : Stream,
      stream.CarriedBy old → stream.CarriedBy next) → ∀ stream ∈ s.streams,
      ∃ conn, (s.conns.set i next)[stream.conn]? = some conn ∧ stream.CarriedBy conn := by
    intro i old next hi hnext stream hmem
    obtain ⟨conn, hconn, hcarried⟩ := h stream hmem
    refine carried_set hconn hcarried fun found hfound hcarried => hnext stream ?_
    rwa [Option.some.inj (hi.symm.trans hfound)]
  have hstream : ∀ {k old next}, s.streams[k]? = some old →
      Carried (s.gotoStream k old next) := by
    intro k old next hk
    exact Tasks.forall_mem_set h (h old (List.mem_of_getElem? hk))
  cases hchange with
  | refuse => exact h
  | saturate => exact h
  | accept hpermit =>
      intro stream hmem
      obtain ⟨conn, hconn, hcarried⟩ := h stream hmem
      exact ⟨conn, Tasks.getElem?_append_of hconn _, hcarried⟩
  | start hi => exact hset hi (by simp [Stream.CarriedBy, Conn.ended])
  | begin hi => exact hset hi (by simp [Stream.CarriedBy, Conn.ended])
  | enter hi => exact hset hi (by simp [Stream.CarriedBy, Conn.ended])
  | unresolved hi => exact hset hi (by simp [Stream.CarriedBy, Conn.ended])
  | @move e i addr pc effect conn out hi hmove =>
      have hold := hset hi fun stream hcarried => hmove.carriedBy hcarried
      cases hmove with
      | acceptStream =>
          refine Tasks.forall_mem_append hold ?_
          exact ⟨_, Tasks.getElem?_set_of hi _, .inl rfl⟩
      | _ => exact hold
  | leave hi => exact hset hi fun _ _ => .inr rfl
  | release hi => exact hset hi fun _ _ => .inr rfl
  | streamStart hk => exact hstream hk
  | streamDial hk => exact hstream hk
  | streamDialError hk => exact hstream hk
  | streamEnd hk => exact hstream hk
  | streamRelay => exact h

end TcpProxy

namespace Node

variable {node : Node} {parse : X509Parser} {policy : PolicyEngine} {events : List Event}
  {s s' : State} {e : Event} {trace out : List Observation}

theorem carried_step (h : TcpProxy.Carried s.inbound) (hchange : Change node s e s' out) :
    TcpProxy.Carried s'.inbound := by
  cases hchange with
  | outbound => exact h
  | inbound hchange => exact h.step hchange
  | policy => exact h
  | evictIdentity => exact h

/--
The connections that are relayed one to one and the tunnels that are served are together
within the limit.  A stream is relayed for a tunnel that is counted as long as it is open.
-/
theorem relays_add_tunnels_le
    (hrun : node.step.exec (node.initial parse policy) events = some (s, trace)) :
    s.inbound.conns.countP TcpProxy.Conn.relays + s.inbound.conns.countP TcpProxy.Conn.serves ≤
        node.inbound.maxConnections ∧
      TcpProxy.Carried s.inbound := by
  have hinit : TcpProxy.Carried (node.initial parse policy).inbound := List.forall_mem_nil _
  refine ⟨?_, Step.invariant (I := fun _ s => TcpProxy.Carried s.inbound)
    (fun h hstep => carried_step h (step_change hstep)) hinit hrun⟩
  have hpermits := (balanced_of_run hrun).inbound.permits
  have hheld := TcpProxy.relays_add_serves_le_held s.inbound
  omega

section Example

open Example

private def narrow : Node :=
  { sidecar with inbound := { sidecar.inbound with maxConnections := 1 } }

private def twoStreams : List Event :=
  [TcpProxy.Event.accept none, .run 0, .run 0, .run 0, .handshaken 0 muxHandshake,
    .dialed 0 true, .run 0, .run 0, .run 0, .run 0, .run 0, .acceptStream 0, .acceptStream 0,
    .runStream 0, .runStream 1, .streamDialed 0 true, .streamDialed 1 true].map .inbound

theorem twoStreams_exceed :
    ∃ last, narrow.step.exec (narrow.initial readSvid allowAny) twoStreams = some last ∧
      narrow.inbound.maxConnections < TcpProxy.relayCount last.1.inbound := by
  have hlast : (narrow.step.exec (narrow.initial readSvid allowAny) twoStreams).any
      (fun last => decide (narrow.inbound.maxConnections < TcpProxy.relayCount last.1.inbound)) =
        true := by
    decide +kernel
  obtain ⟨last, hrun, hcheck⟩ := (Option.any_eq_true _ _).mp hlast
  exact ⟨last, hrun, of_decide_eq_true hcheck⟩

theorem twoStreams_tunnels_le :
    ∃ last, narrow.step.exec (narrow.initial readSvid allowAny) twoStreams = some last ∧
      last.1.inbound.conns.countP TcpProxy.Conn.serves = 1 ∧
      last.1.inbound.conns.countP TcpProxy.Conn.relays +
        last.1.inbound.conns.countP TcpProxy.Conn.serves ≤ 1 ∧
      TcpProxy.Carried last.1.inbound := by
  have hlast : (narrow.step.exec (narrow.initial readSvid allowAny) twoStreams).any
      (fun last => decide (last.1.inbound.conns.countP TcpProxy.Conn.serves = 1)) = true := by
    decide +kernel
  obtain ⟨last, hrun, hcheck⟩ := (Option.any_eq_true _ _).mp hlast
  exact ⟨last, hrun, of_decide_eq_true hcheck, relays_add_tunnels_le hrun⟩

end Example

end Node

end Interlink
