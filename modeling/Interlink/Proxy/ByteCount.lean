import Interlink.Proxy.Accounting

/-!
# The count of relayed bytes

Four paths relay application bytes: an inbound connection that is relayed one to one, a
stream of an inbound tunnel, and an outbound connection over a mux stream or over a
connection of its own.  A relay that ends records what its copy loop has moved.  The
inbound one-to-one path has moved some bytes before that loop: those of the detection
read.
-/

namespace Interlink

open Interlink.Foundation

/-! ## What a step of the inbound proxy does to the bytes -/

namespace TcpProxy

def Observation.isRelayed : Observation → Bool
  | .relayed _ _ _ _ _ => true
  | _ => false

/-- The next reaction reads bytes of the client or moves bytes. -/
def Pc.carrying : Pc → Bool
  | .detecting _ | .forwarding _ _ | .relaying _ => true
  | _ => false

def Settled (conn : Conn) (out : List Observation) : Prop :=
  conn.relays = false ∧ ∀ o ∈ out, o.isRelayed = false

variable {proxy : TcpProxy} {shared shared' : Shared} {s s' : State} {e : Event} {i : Nat}
  {addr : SocketAddr} {pc : Pc} {effect : Effect} {conn : Conn} {out : List Observation}

theorem Settled.of_any (hconn : conn.relays = false)
    (hout : out.any Observation.isRelayed = false) : Settled conn out :=
  ⟨hconn, by simpa using hout⟩

theorem settled_decided (addr : SocketAddr) (tls : TlsStream) (decision : Decision) :
    Settled (decided addr tls decision).1 (decided addr tls decision).2 := by
  cases decision with
  | allow =>
      simp only [decided]
      split <;> exact .of_any rfl rfl
  | deny reason => exact .of_any rfl rfl

theorem Move.settled (h : Move proxy shared s i addr pc effect conn out) :
    pc.carrying = true ∨ Settled conn out := by
  cases h with
  | read | readError | write | writeError | relay | relayEnd => exact .inl rfl
  | @decideNamespace tls decision | @decideGlobal tls decision =>
      obtain ⟨hconn, hout⟩ := settled_decided addr tls decision
      refine .inr ⟨hconn, List.forall_mem_append.mpr ⟨?_, hout⟩⟩
      exact (Settled.of_any hconn rfl).2
  | _ => exact .inr (.of_any rfl rfl)

/-- A step that moves no bytes, and after which no connection moves bytes that did not before. -/
structure Still (s s' : State) (out : List Observation) : Prop where
  quiet : ∀ o ∈ out, o.isRelayed = false
  kept : ∀ (j : Nat) (conn : Conn), s'.conns[j]? = some conn → conn.relays = true →
    s.conns[j]? = some conn

theorem Still.of_eq (hconns : s'.conns = s.conns) (hquiet : ∀ o ∈ out, o.isRelayed = false) :
    Still s s' out where
  quiet := hquiet
  kept j conn hj _ := by rwa [hconns] at hj

theorem Still.of_any (hconns : s'.conns = s.conns)
    (hout : out.any Observation.isRelayed = false) : Still s s' out :=
  .of_eq hconns (by simpa using hout)

theorem Still.set (hconns : s'.conns = s.conns.set i conn) (h : Settled conn out) :
    Still s s' out := by
  refine ⟨h.2, fun j other hj hother => ?_⟩
  rw [hconns] at hj
  refine Tasks.getElem?_of_set hj ?_
  rintro rfl
  rw [h.1] at hother
  cases hother

private theorem still_of_performed {reaction : Reaction}
    (hsettled : ∀ {effect conn out}, reaction = some (effect, conn, out) → Settled conn out)
    (h : performed shared s i addr reaction = some (shared', s', out)) : Still s s' out := by
  obtain ⟨⟨effect, conn, out⟩, hreaction, heq⟩ := Option.map_eq_some_iff.mp h
  cases heq
  exact .set rfl (hsettled hreaction)

private theorem still_of_respond {react : SocketAddr → Pc → Reaction}
    (hsettled : ∀ {addr pc effect conn out}, react addr pc = some (effect, conn, out) →
      Settled conn out)
    (h : respond shared s i react conn = some (shared', s', out)) : Still s s' out := by
  cases conn with
  | handling addr pc => exact still_of_performed hsettled h
  | _ => cases h

private theorem advance_settled (s : State)
    (h : advance proxy shared i addr pc = some (effect, conn, out)) : Settled conn out := by
  have hmove : Move proxy shared s i addr pc effect conn out := advance_move h
  rcases hmove.settled with hpc | hsettled
  · cases pc with
    | detecting | forwarding | relaying => cases h
    | _ => cases hpc
  · exact hsettled

private theorem handshaken_settled {result : Except InterlinkError Handshake}
    (h : handshaken s addr result pc = some (effect, conn, out)) : Settled conn out := by
  unfold handshaken at h
  split at h
  next =>
    split at h <;> cases h <;> exact .of_any rfl rfl
  next => cases h

private theorem still_of_resolved {result : Except InterlinkError SocketAddr}
    (h : some (shared, resolved s i result) = some (shared', s', out)) : Still s s' out := by
  cases result with
  | ok addr =>
      cases h
      exact .set rfl (.of_any rfl rfl)
  | error error =>
      cases h
      exact .set rfl (.of_any rfl rfl)

private theorem still_of_runConn
    (h : runConn proxy shared s i conn = some (shared', s', out)) : Still s s' out := by
  cases conn with
  | accepted target =>
      cases h
      exact .set rfl (.of_any rfl rfl)
  | spawned target =>
      cases h
      exact .set rfl (.of_any rfl rfl)
  | resolving target =>
      simp only [runConn] at h
      split at h
      next => exact still_of_resolved h
      next => cases h
  | handling addr pc =>
      exact still_of_performed (advance_settled s) h
  | leaving =>
      cases h
      exact .set rfl (.of_any rfl rfl)
  | releasing =>
      cases h
      exact .set rfl (.of_any rfl rfl)
  | finished => cases h

def Event.isRelay : Event → Bool
  | .relay _ _ _ | .streamRelay _ _ _ => true
  | _ => false

inductive Transfer (s : State) : Event → State → List Observation → Prop
  | read {s' : State} {i : Nat} {addr : SocketAddr} {tls : TlsStream} (byte : UInt8)
      (data : List UInt8) (hi : s.conns[i]? = some (.handling addr (.detecting tls)))
      (hconns : s'.conns = s.conns.set i (.handling addr (.forwarding tls (byte :: data)))) :
      Transfer s (.read i (some (byte :: data))) s' []
  | write {s' : State} {i : Nat} {addr : SocketAddr} {tls : TlsStream} {data : List UInt8}
      (delivered : Nat) (hi : s.conns[i]? = some (.handling addr (.forwarding tls data)))
      (hconns : s'.conns = s.conns.set i (.handling addr (.relaying tls))) :
      Transfer s (.written i delivered true) s' [.relayed i none tls .toUpstream data]
  | writeError {s' : State} {i : Nat} {addr : SocketAddr} {tls : TlsStream} {data : List UInt8}
      (delivered : Nat) (hi : s.conns[i]? = some (.handling addr (.forwarding tls data)))
      (hconns : s'.conns = s.conns.set i .leaving) :
      Transfer s (.written i delivered false) s'
        [.relayed i none tls .toUpstream (data.take delivered), .metric .connectionFailed]
  | relay {s' : State} {i : Nat} {addr : SocketAddr} {tls : TlsStream} (direction : Direction)
      (data : List UInt8) (hi : s.conns[i]? = some (.handling addr (.relaying tls)))
      (hconns : s'.conns = s.conns) :
      Transfer s (.relay i direction data) s' [.relayed i none tls direction data]
  | streamRelay {k : Nat} {stream : Stream} (direction : Direction) (data : List UInt8) :
      Transfer s (.streamRelay k direction data) s
        [.relayed stream.conn (some k) stream.tls direction data]
  | still {e : Event} {s' : State} {out : List Observation}
      (hrelay : ∀ i direction data, e ≠ .relay i direction data)
      (hstream : ∀ k direction data, e ≠ .streamRelay k direction data)
      (hstill : Still s s' out) : Transfer s e s' out

theorem Transfer.of_still (hevent : e.isRelay = false) (hstill : Still s s' out) :
    Transfer s e s' out := by
  refine .still ?_ ?_ hstill
  · rintro i direction data rfl
    cases hevent
  · rintro k direction data rfl
    cases hevent

private theorem accept_transfer {originalDst : Option SocketAddr}
    (h : some (shared, accept proxy s originalDst) = some (shared', s', out)) :
    Transfer s (.accept originalDst) s' out := by
  refine .of_still rfl ?_
  simp only [accept] at h
  split at h
  next =>
    cases h
    exact .of_any rfl rfl
  next target _ =>
    split at h
    next =>
      cases h
      refine ⟨by simp, fun j conn hj hconn => ?_⟩
      rcases Tasks.getElem?_append_cases hj with ⟨-, rfl⟩ | hj
      · cases hconn
      · exact hj
    next =>
      cases h
      exact .of_any rfl rfl

private theorem read_transfer {data : Option (List UInt8)} (hi : s.conns[i]? = some conn)
    (h : respond shared s i (fun addr => read addr data) conn = some (shared', s', out)) :
    Transfer s (.read i data) s' out := by
  cases conn with
  | handling addr pc =>
      cases pc with
      | detecting tls =>
          cases data with
          | none =>
              cases h
              exact .of_still rfl (.set rfl (.of_any rfl rfl))
          | some data =>
              cases data with
              | nil =>
                  cases h
                  exact .of_still rfl
                    (.set rfl (.of_any rfl rfl))
              | cons byte data =>
                  cases h
                  exact .read byte data hi rfl
      | _ =>
          cases data with
          | none => cases h
          | some data => cases data <;> cases h
  | _ => cases h

private theorem written_transfer {delivered : Nat} {ok : Bool} (hi : s.conns[i]? = some conn)
    (h : respond shared s i (fun addr => written i addr delivered ok) conn =
      some (shared', s', out)) : Transfer s (.written i delivered ok) s' out := by
  cases conn with
  | handling addr pc =>
      cases pc with
      | forwarding tls data =>
          cases ok with
          | true =>
              cases h
              exact .write delivered hi rfl
          | false =>
              cases h
              exact .writeError delivered hi rfl
      | _ => cases h
  | _ => cases h

private theorem relay_transfer {direction : Direction} {data : List UInt8}
    (hi : s.conns[i]? = some conn)
    (h : respond shared s i (fun addr => relay i addr direction data) conn =
      some (shared', s', out)) : Transfer s (.relay i direction data) s' out := by
  cases conn with
  | handling addr pc =>
      cases pc with
      | relaying tls =>
          cases h
          refine .relay direction data hi ?_
          obtain ⟨hlt, hget⟩ := List.getElem?_eq_some_iff.mp hi
          exact hget ▸ List.set_getElem_self hlt
      | _ => cases h
  | _ => cases h

theorem step_transfer (h : step proxy shared s e = some (shared', s', out)) :
    Transfer s e s' out := by
  cases e with
  | accept originalDst => exact accept_transfer h
  | run i =>
      obtain ⟨conn, -, hrun⟩ := Option.bind_eq_some_iff.mp h
      exact .of_still rfl (still_of_runConn hrun)
  | discovered i result =>
      obtain ⟨conn, -, hdiscover⟩ := Option.bind_eq_some_iff.mp h
      refine .of_still rfl ?_
      cases conn with
      | resolving target =>
          simp only [discover] at hdiscover
          split at hdiscover
          next => exact still_of_resolved hdiscover
          next => cases hdiscover
      | _ => cases hdiscover
  | handshaken i result =>
      obtain ⟨conn, -, hrespond⟩ := Option.bind_eq_some_iff.mp h
      exact .of_still rfl (still_of_respond handshaken_settled hrespond)
  | dialed i ok =>
      obtain ⟨conn, -, hrespond⟩ := Option.bind_eq_some_iff.mp h
      refine .of_still rfl (still_of_respond (fun hreact => ?_) hrespond)
      unfold dialed at hreact
      split at hreact <;> cases hreact
      exact .of_any rfl rfl
  | read i data =>
      obtain ⟨conn, hi, hrespond⟩ := Option.bind_eq_some_iff.mp h
      exact read_transfer hi hrespond
  | written i delivered ok =>
      obtain ⟨conn, hi, hrespond⟩ := Option.bind_eq_some_iff.mp h
      exact written_transfer hi hrespond
  | relay i direction data =>
      obtain ⟨conn, hi, hrespond⟩ := Option.bind_eq_some_iff.mp h
      exact relay_transfer hi hrespond
  | relayEnd i result =>
      obtain ⟨conn, -, hrespond⟩ := Option.bind_eq_some_iff.mp h
      refine .of_still rfl (still_of_respond (fun hreact => ?_) hrespond)
      unfold relayEnd at hreact
      split at hreact <;> cases hreact
      exact .of_any rfl rfl
  | acceptStream i =>
      obtain ⟨conn, -, hrespond⟩ := Option.bind_eq_some_iff.mp h
      refine .of_still rfl (still_of_respond (fun hreact => ?_) hrespond)
      unfold acceptStream at hreact
      split at hreact <;> cases hreact
      exact .of_any rfl rfl
  | closeTunnel i =>
      obtain ⟨conn, -, hrespond⟩ := Option.bind_eq_some_iff.mp h
      refine .of_still rfl (still_of_respond (fun hreact => ?_) hrespond)
      unfold closeTunnel at hreact
      split at hreact <;> cases hreact
      exact .of_any rfl rfl
  | runStream k =>
      obtain ⟨stream, -, hrun⟩ := Option.bind_eq_some_iff.mp h
      unfold runStream at hrun
      split at hrun <;> cases hrun
      exact .of_still rfl (.of_any rfl rfl)
  | streamDialed k ok =>
      obtain ⟨stream, -, hdialed⟩ := Option.bind_eq_some_iff.mp h
      unfold streamDialed at hdialed
      split at hdialed
      next =>
        cases ok <;> cases hdialed <;>
          exact .of_still rfl (.of_any rfl rfl)
      next => cases hdialed
  | streamRelay k direction data =>
      obtain ⟨stream, -, hrelay⟩ := Option.bind_eq_some_iff.mp h
      unfold streamRelay at hrelay
      split at hrelay <;> cases hrelay
      exact .streamRelay direction data
  | streamEnd k result =>
      obtain ⟨stream, -, hend⟩ := Option.bind_eq_some_iff.mp h
      unfold streamEnd at hend
      split at hend <;> cases hend
      exact .of_still rfl (.of_any rfl rfl)

end TcpProxy

/-! ## The outbound proxy -/

namespace OutboundProxy

def Observation.isRelayed : Observation → Bool
  | .relayed _ _ _ _ => true
  | _ => false

variable {proxy : OutboundProxy} {shared shared' : Shared} {s s' : State} {e : Event} {i : Nat}
  {addr : SocketAddr} {pc : Pc} {effect : Effect} {conn : Conn} {out : List Observation}

theorem quiet_of_any (h : out.any Observation.isRelayed = false) :
    ∀ o ∈ out, o.isRelayed = false := by
  simpa using h

theorem Move.quiet (h : Move proxy shared s i addr pc effect conn out)
    (hpc : ∀ route, pc ≠ .relaying route) : ∀ o ∈ out, o.isRelayed = false := by
  cases h with
  | @relay route => exact absurd rfl (hpc route)
  | @relayEnd route => exact absurd rfl (hpc route)
  | _ => exact quiet_of_any rfl

private theorem quiet_of_performed {reaction : Reaction}
    (hquiet : ∀ {effect conn out}, reaction = some (effect, conn, out) →
      ∀ o ∈ out, o.isRelayed = false)
    (h : performed shared s i addr reaction = some (shared', s', out)) :
    ∀ o ∈ out, o.isRelayed = false := by
  obtain ⟨⟨effect, conn, out⟩, hreaction, heq⟩ := Option.map_eq_some_iff.mp h
  cases heq
  exact hquiet hreaction

private theorem quiet_of_resolved {result : Except InterlinkError SocketAddr}
    (h : some (shared, resolved proxy s i result) = some (shared', s', out)) :
    ∀ o ∈ out, o.isRelayed = false := by
  cases result <;> cases h <;> exact quiet_of_any rfl

private theorem quiet_of_runConn
    (h : runConn proxy shared s i conn = some (shared', s', out)) :
    ∀ o ∈ out, o.isRelayed = false := by
  cases conn with
  | resolving target =>
      simp only [runConn] at h
      split at h
      next => exact quiet_of_resolved h
      next => cases h
  | routing addr pc =>
      refine quiet_of_performed (fun hadvance => (advance_move hadvance).quiet ?_) h
      rintro route rfl
      cases hadvance
  | finished => cases h
  | _ =>
      cases h
      exact quiet_of_any rfl

private theorem quiet_of_respond (proxy : OutboundProxy) {react : SocketAddr → Pc → Reaction}
    (hnone : ∀ addr route, react addr (.relaying route) = none)
    (hmove : ∀ {addr pc effect conn out}, react addr pc = some (effect, conn, out) →
      Move proxy shared s i addr pc effect conn out)
    (h : respond shared s i react conn = some (shared', s', out)) :
    ∀ o ∈ out, o.isRelayed = false := by
  cases conn with
  | routing addr pc =>
      refine quiet_of_performed (fun hreact => (hmove hreact).quiet ?_) h
      rintro route rfl
      rw [hnone] at hreact
      cases hreact
  | _ => cases h

theorem step_relayed (h : step proxy shared s e = some (shared', s', out)) :
    (∃ i route direction data, e = .relay i direction data ∧
      out = [.relayed i route direction data]) ∨
    (∀ i direction data, e ≠ .relay i direction data) ∧ ∀ o ∈ out, o.isRelayed = false := by
  cases e with
  | relay i direction data =>
      obtain ⟨conn, -, hrespond⟩ := Option.bind_eq_some_iff.mp h
      cases conn with
      | routing addr pc =>
          cases pc with
          | relaying route =>
              cases hrespond
              exact .inl ⟨i, route, direction, data, rfl, rfl⟩
          | _ => cases hrespond
      | _ => cases hrespond
  | accept originalDst =>
      refine .inr ⟨by simp, ?_⟩
      simp only [step, accept] at h
      split at h
      next =>
        cases h
        exact quiet_of_any rfl
      next =>
        split at h <;> cases h <;> exact quiet_of_any rfl
  | run i =>
      obtain ⟨conn, -, hrun⟩ := Option.bind_eq_some_iff.mp h
      exact .inr ⟨by simp, quiet_of_runConn hrun⟩
  | discovered i result =>
      obtain ⟨conn, -, hdiscover⟩ := Option.bind_eq_some_iff.mp h
      refine .inr ⟨by simp, ?_⟩
      cases conn with
      | resolving target =>
          simp only [discover] at hdiscover
          split at hdiscover
          next => exact quiet_of_resolved hdiscover
          next => cases hdiscover
      | _ => cases hdiscover
  | handshaken i result =>
      obtain ⟨conn, -, hrespond⟩ := Option.bind_eq_some_iff.mp h
      exact .inr ⟨by simp, quiet_of_respond proxy (fun _ _ => rfl) handshaken_move hrespond⟩
  | opened i ok =>
      obtain ⟨conn, -, hrespond⟩ := Option.bind_eq_some_iff.mp h
      exact .inr ⟨by simp, quiet_of_respond proxy (fun _ _ => rfl) opened_move hrespond⟩
  | relayEnd i result =>
      obtain ⟨conn, -, hrespond⟩ := Option.bind_eq_some_iff.mp h
      refine .inr ⟨by simp, ?_⟩
      cases conn with
      | routing addr pc =>
          cases pc with
          | relaying route =>
              cases hrespond
              exact quiet_of_any rfl
          | _ => cases hrespond
      | _ => cases hrespond
  | driverExit d =>
      obtain ⟨driver, -, hexit⟩ := Option.bind_eq_some_iff.mp h
      refine .inr ⟨by simp, ?_⟩
      unfold exitDriver at hexit
      split at hexit <;> cases hexit
      exact quiet_of_any rfl
  | driverEvict d =>
      obtain ⟨driver, -, hevict⟩ := Option.bind_eq_some_iff.mp h
      refine .inr ⟨by simp, ?_⟩
      unfold evictDriver at hevict
      split at hevict <;> cases hevict
      exact quiet_of_any rfl

end OutboundProxy

/-! ## Relays of the sidecar -/

namespace Node

/--
A relay: an inbound connection that is relayed one to one, a stream of an inbound tunnel,
or an outbound connection.
-/
inductive Relay where
  | inbound (i : Nat)
  | stream (k : Nat)
  | outbound (i : Nat)
  deriving DecidableEq

/--
The copy loop of the relay returns, with the bytes it has moved towards the upstream and
towards the client.
-/
def Relay.finish (bytes : Nat × Nat) : Relay → Event
  | .inbound i => .inbound (.relayEnd i (some bytes))
  | .stream k => .inbound (.streamEnd k (some bytes))
  | .outbound i => .outbound (.relayEnd i (some bytes))

section Counts

variable (relay : Relay) (direction : Direction)

def Event.copied : Event → Nat
  | .inbound (.relay i towards data) =>
      if relay = .inbound i ∧ direction = towards then data.length else 0
  | .inbound (.streamRelay k towards data) =>
      if relay = .stream k ∧ direction = towards then data.length else 0
  | .outbound (.relay i towards data) =>
      if relay = .outbound i ∧ direction = towards then data.length else 0
  | _ => 0

def Observation.delivered : Observation → Nat
  | .inbound (.relayed i none _ towards data) =>
      if relay = .inbound i ∧ direction = towards then data.length else 0
  | .inbound (.relayed _ (some k) _ towards data) =>
      if relay = .stream k ∧ direction = towards then data.length else 0
  | .outbound (.relayed i _ towards data) =>
      if relay = .outbound i ∧ direction = towards then data.length else 0
  | _ => 0

def copied (events : List Event) : Nat :=
  (events.map (Event.copied relay direction)).sum

def delivered (trace : List Observation) : Nat :=
  (trace.map (Observation.delivered relay direction)).sum

end Counts

variable {node : Node} {parse : X509Parser} {policy : PolicyEngine} {events : List Event}
  {s s' : State} {e : Event} {trace out : List Observation} {relay : Relay}
  {direction : Direction}

@[simp]
theorem copied_append (l r : List Event) :
    copied relay direction (l ++ r) = copied relay direction l + copied relay direction r := by
  simp [copied]

@[simp]
theorem delivered_append (l r : List Observation) :
    delivered relay direction (l ++ r) =
      delivered relay direction l + delivered relay direction r := by
  simp [delivered]

theorem delivered_eq_zero (h : ∀ o ∈ out, o.delivered relay direction = 0) :
    delivered relay direction out = 0 := by
  refine List.sum_eq_zero fun n hn => ?_
  obtain ⟨o, ho, rfl⟩ := List.mem_map.mp hn
  exact h o ho

theorem delivered_inbound_of_quiet {out : List TcpProxy.Observation}
    (hquiet : ∀ o ∈ out, o.isRelayed = false) :
    delivered relay direction (out.map .inbound) = 0 := by
  refine delivered_eq_zero (List.forall_mem_map.mpr fun o ho => ?_)
  cases o with
  | relayed => cases hquiet _ ho
  | _ => rfl

theorem delivered_outbound_of_quiet {out : List OutboundProxy.Observation}
    (hquiet : ∀ o ∈ out, o.isRelayed = false) :
    delivered relay direction (out.map .outbound) = 0 := by
  refine delivered_eq_zero (List.forall_mem_map.mpr fun o ho => ?_)
  cases o with
  | relayed => cases hquiet _ ho
  | _ => rfl

structure Counted (events : List Event) (trace : List Observation) (s : State) : Prop where
  least : ∀ relay direction, copied relay direction events ≤ delivered relay direction trace
  exact : ∀ relay direction, (∀ i, relay ≠ .inbound i) →
    delivered relay direction trace = copied relay direction events
  read : ∀ (i : Nat) (addr : SocketAddr) (tls : TlsStream) (data : List UInt8),
    s.inbound.conns[i]? = some (.handling addr (.forwarding tls data)) → data ≠ []
  ahead : ∀ (i : Nat) (addr : SocketAddr) (tls : TlsStream),
    s.inbound.conns[i]? = some (.handling addr (.relaying tls)) →
      copied (.inbound i) .toUpstream events < delivered (.inbound i) .toUpstream trace

theorem Counted.initial (node : Node) (parse : X509Parser) (policy : PolicyEngine) :
    Counted [] [] (node.initial parse policy) where
  least _ _ := Nat.le_refl 0
  exact _ _ _ := rfl
  read i addr tls data h := by simp [Node.initial, TcpProxy.initial] at h
  ahead i addr tls h := by simp [Node.initial, TcpProxy.initial] at h

theorem Counted.append (h : Counted events trace s)
    (hleast : ∀ relay direction, e.copied relay direction ≤ delivered relay direction out)
    (hexact : ∀ relay direction, (∀ i, relay ≠ .inbound i) →
      delivered relay direction out = e.copied relay direction)
    (hread : ∀ (i : Nat) (addr : SocketAddr) (tls : TlsStream) (data : List UInt8),
      s'.inbound.conns[i]? = some (.handling addr (.forwarding tls data)) →
        s.inbound.conns[i]? = some (.handling addr (.forwarding tls data)) ∨ data ≠ [])
    (hahead : ∀ (i : Nat) (addr : SocketAddr) (tls : TlsStream),
      s'.inbound.conns[i]? = some (.handling addr (.relaying tls)) →
        s.inbound.conns[i]? = some (.handling addr (.relaying tls)) ∨
          e.copied (.inbound i) .toUpstream < delivered (.inbound i) .toUpstream out) :
    Counted (events ++ [e]) (trace ++ out) s' := by
  have hcopied : ∀ relay direction, copied relay direction (events ++ [e]) =
      copied relay direction events + e.copied relay direction := by
    intro relay direction
    rw [copied_append]
    rfl
  refine ⟨fun relay direction => ?_, fun relay direction hrelay => ?_,
    fun i addr tls data hi => ?_, fun i addr tls hi => ?_⟩
  · rw [hcopied, delivered_append]
    exact Nat.add_le_add (h.least relay direction) (hleast relay direction)
  · rw [hcopied, delivered_append, hexact relay direction hrelay, h.exact relay direction hrelay]
  · rcases hread i addr tls data hi with hold | hdata
    · exact h.read i addr tls data hold
    · exact hdata
  · rw [hcopied, delivered_append]
    rcases hahead i addr tls hi with hold | hnew
    · exact Nat.add_lt_add_of_lt_of_le (h.ahead i addr tls hold) (hleast _ _)
    · exact Nat.add_lt_add_of_le_of_lt (h.least _ _) hnew

theorem Counted.keep (h : Counted events trace s)
    (hbytes : ∀ relay direction, delivered relay direction out = e.copied relay direction)
    (hkept : ∀ (j : Nat) (conn : TcpProxy.Conn), s'.inbound.conns[j]? = some conn →
      conn.relays = true → s.inbound.conns[j]? = some conn) :
    Counted (events ++ [e]) (trace ++ out) s' :=
  h.append (fun relay direction => (hbytes relay direction).ge)
    (fun relay direction _ => hbytes relay direction)
    (fun i _ _ _ hi => .inl (hkept i _ hi rfl)) fun i _ _ hi => .inl (hkept i _ hi rfl)

theorem Counted.outbound (h : Counted events trace s) {event : OutboundProxy.Event}
    {shared : Shared} {outbound : OutboundProxy.State} {out : List OutboundProxy.Observation}
    (hstep : node.outbound.step s.shared s.outbound event = some (shared, outbound, out)) :
    Counted (events ++ [.outbound event]) (trace ++ out.map .outbound)
      { s with shared := shared, outbound := outbound } := by
  refine h.keep (fun relay direction => ?_) fun _ _ hj _ => hj
  rcases OutboundProxy.step_relayed hstep with
    ⟨i, route, towards, data, rfl, rfl⟩ | ⟨hrelay, hquiet⟩
  · simp [delivered, Observation.delivered, Event.copied]
  · rw [delivered_outbound_of_quiet hquiet]
    cases event with
    | relay i towards data => exact absurd rfl (hrelay i towards data)
    | _ => rfl

theorem Counted.inbound (h : Counted events trace s) {event : TcpProxy.Event}
    {shared : Shared} {inbound : TcpProxy.State} {out : List TcpProxy.Observation}
    (hstep : node.inbound.step s.shared s.inbound event = some (shared, inbound, out)) :
    Counted (events ++ [.inbound event]) (trace ++ out.map .inbound)
      { s with shared := shared, inbound := inbound } := by
  cases TcpProxy.step_transfer hstep with
  | @read _ i addr tls byte data hi hconns =>
      refine h.append (fun _ _ => Nat.zero_le _) (fun _ _ _ => rfl) (fun j _ _ _ hj => ?_)
        fun j _ _ hj => ?_
      · rw [hconns] at hj
        rcases Tasks.getElem?_set_cases hj with ⟨-, heq⟩ | ⟨-, hj⟩
        · cases heq
          exact .inr (by simp)
        · exact .inl hj
      · rw [hconns] at hj
        exact .inl (Tasks.getElem?_of_set hj (by simp))
  | @write _ i addr tls data delivered hi hconns =>
      have hdata := h.read i addr tls data hi
      refine h.append (fun _ _ => Nat.zero_le _) (fun relay direction hrelay => ?_)
        (fun j _ _ _ hj => ?_) fun j _ _ hj => ?_
      · simp [Node.delivered, Observation.delivered, Event.copied, hrelay]
      · rw [hconns] at hj
        exact .inl (Tasks.getElem?_of_set hj (by simp))
      · rw [hconns] at hj
        rcases Tasks.getElem?_set_cases hj with ⟨rfl, -⟩ | ⟨-, hj⟩
        · refine .inr ?_
          simpa [Node.delivered, Observation.delivered, Event.copied] using
            List.length_pos_iff.mpr hdata
        · exact .inl hj
  | @writeError _ i addr tls data delivered hi hconns =>
      refine h.append (fun _ _ => Nat.zero_le _) (fun relay direction hrelay => ?_)
        (fun j _ _ _ hj => ?_) fun j _ _ hj => ?_
      · simp [Node.delivered, Observation.delivered, Event.copied, hrelay]
      · rw [hconns] at hj
        exact .inl (Tasks.getElem?_of_set hj (by simp))
      · rw [hconns] at hj
        exact .inl (Tasks.getElem?_of_set hj (by simp))
  | relay towards data hi hconns =>
      refine h.keep (fun relay direction => ?_) fun j conn hj _ => ?_
      · simp [delivered, Observation.delivered, Event.copied]
      · rwa [hconns] at hj
  | streamRelay towards data =>
      refine h.keep (fun relay direction => ?_) fun j conn hj _ => hj
      simp [delivered, Observation.delivered, Event.copied]
  | still hrelay hstream hstill =>
      refine h.keep (fun relay direction => ?_) hstill.kept
      rw [delivered_inbound_of_quiet hstill.quiet]
      cases event with
      | relay i towards data => exact absurd rfl (hrelay i towards data)
      | streamRelay k towards data => exact absurd rfl (hstream k towards data)
      | _ => rfl

theorem Counted.step (h : Counted events trace s) (hstep : node.step s e = some (s', out)) :
    Counted (events ++ [e]) (trace ++ out) s' := by
  cases e with
  | outbound event =>
      obtain ⟨⟨shared, outbound, out⟩, hproxy, heq⟩ := Option.map_eq_some_iff.mp hstep
      cases heq
      exact h.outbound hproxy
  | inbound event =>
      obtain ⟨⟨shared, inbound, out⟩, hproxy, heq⟩ := Option.map_eq_some_iff.mp hstep
      cases heq
      exact h.inbound hproxy
  | policy call =>
      cases hstep
      exact h.keep (fun _ _ => rfl) fun _ _ hj _ => hj
  | evictIdentity leafDer =>
      cases hstep
      exact h.keep (fun _ _ => rfl) fun _ _ hj _ => hj

/-! ## The end of a relay -/

theorem bytesTotal_append_connection (up down : Nat)
    (hout : out.filterMap Observation.record = [.connection up down]) :
    (recorded (trace ++ out)).bytesTotal = (recorded trace).bytesTotal + (up + down) := by
  simp [recorded, InterlinkMetrics.recorded, hout, InterlinkMetrics.record]

theorem finish_step {bytes : Nat × Nat}
    (hstep : node.step s (relay.finish bytes) = some (s', out)) :
    out.filterMap Observation.record = [.connection bytes.1 bytes.2] ∧
      ∀ i, relay = .inbound i → ∃ addr tls,
        s.inbound.conns[i]? = some (.handling addr (.relaying tls)) := by
  cases relay with
  | inbound i =>
      obtain ⟨⟨shared, inbound, out⟩, hproxy, heq⟩ := Option.map_eq_some_iff.mp hstep
      cases heq
      obtain ⟨conn, hi, hrespond⟩ := Option.bind_eq_some_iff.mp hproxy
      cases conn with
      | handling addr pc =>
          cases pc with
          | relaying tls =>
              cases hrespond
              refine ⟨rfl, ?_⟩
              rintro j ⟨⟩
              exact ⟨addr, tls, hi⟩
          | _ => cases hrespond
      | _ => cases hrespond
  | stream k =>
      obtain ⟨⟨shared, inbound, out⟩, hproxy, heq⟩ := Option.map_eq_some_iff.mp hstep
      cases heq
      obtain ⟨stream, -, hend⟩ := Option.bind_eq_some_iff.mp hproxy
      unfold TcpProxy.streamEnd at hend
      split at hend <;> cases hend
      exact ⟨rfl, by simp⟩
  | outbound i =>
      obtain ⟨⟨shared, outbound, out⟩, hproxy, heq⟩ := Option.map_eq_some_iff.mp hstep
      cases heq
      obtain ⟨conn, -, hrespond⟩ := Option.bind_eq_some_iff.mp hproxy
      cases conn with
      | routing addr pc =>
          cases pc with
          | relaying route =>
              cases hrespond
              exact ⟨rfl, by simp⟩
          | _ => cases hrespond
      | _ => cases hrespond

/--
A relay whose copy loop returns the bytes it has moved adds to `bytes_total` the bytes
that have arrived, just when it is not an inbound connection relayed one to one.
-/
theorem bytesTotal_exact_iff
    (hrun : node.step.exec (node.initial parse policy) events = some (s, trace))
    (hend : node.step s (relay.finish
      (copied relay .toUpstream events, copied relay .toClient events)) = some (s', out)) :
    (recorded (trace ++ out)).bytesTotal = (recorded trace).bytesTotal +
        (delivered relay .toUpstream trace + delivered relay .toClient trace) ↔
      ∀ i, relay ≠ .inbound i := by
  have hcounted : Counted events trace s :=
    Step.invariant_events (fun h hstep => h.step hstep) (.initial node parse policy) hrun
  obtain ⟨hrecord, hrelaying⟩ := finish_step hend
  rw [bytesTotal_append_connection _ _ hrecord, Nat.add_left_cancel_iff]
  constructor
  · rintro heq i rfl
    obtain ⟨addr, tls, hi⟩ := hrelaying i rfl
    have hup := hcounted.ahead i addr tls hi
    have hdown := hcounted.least (.inbound i) .toClient
    omega
  · intro hrelay
    rw [hcounted.exact relay .toUpstream hrelay, hcounted.exact relay .toClient hrelay]

section Example

open Example

private def getRequest : List UInt8 := bytes "GET / HTTP/1.1\r\n\r\n".toList

private def emptyReply : List UInt8 := bytes "HTTP/1.1 204 No Content\r\n\r\n".toList

private def directHandshake : Except InterlinkError Handshake :=
  .ok ⟨some [svid], none, false⟩

private def outboundLegacy : List Event :=
  ([OutboundProxy.Event.accept none] ++ List.replicate 8 (OutboundProxy.Event.run 0) ++
    [OutboundProxy.Event.handshaken 0 directHandshake] ++
    List.replicate 6 (OutboundProxy.Event.run 0) ++
    [OutboundProxy.Event.relay 0 .toUpstream getRequest, .relay 0 .toClient emptyReply]).map
      .outbound

/-- The request is read for the detection and written before the copy loop starts. -/
private def inboundLegacy : List Event :=
  ([TcpProxy.Event.accept none] ++ List.replicate 3 (TcpProxy.Event.run 0) ++
    [TcpProxy.Event.dialed 0 true, .handshaken 0 directHandshake] ++
    List.replicate 5 (TcpProxy.Event.run 0) ++
    [TcpProxy.Event.read 0 (some getRequest), .written 0 18 true,
      .relay 0 .toClient emptyReply]).map .inbound

private def ended (relay : Relay) (events : List Event) :
    Option (List Observation × List Observation) :=
  (sidecar.step.exec (sidecar.initial readSvid allowAny) events).bind fun last =>
    (sidecar.step last.1 (relay.finish
      (copied relay .toUpstream events, copied relay .toClient events))).map fun next =>
        (last.2, next.2)

theorem outboundLegacy_exact :
    ∃ trace out, ended (.outbound 0) outboundLegacy = some (trace, out) ∧
      (recorded (trace ++ out)).bytesTotal = (recorded trace).bytesTotal +
        (delivered (.outbound 0) .toUpstream trace + delivered (.outbound 0) .toClient trace) := by
  have hsome : (ended (.outbound 0) outboundLegacy).isSome = true := by decide +kernel
  obtain ⟨⟨trace, out⟩, hended⟩ := Option.isSome_iff_exists.mp hsome
  refine ⟨trace, out, hended, ?_⟩
  obtain ⟨⟨s, trace⟩, hrun, hlast⟩ := Option.bind_eq_some_iff.mp hended
  obtain ⟨⟨s', out⟩, hend, heq⟩ := Option.map_eq_some_iff.mp hlast
  cases heq
  exact (bytesTotal_exact_iff hrun hend).mpr (by simp)

theorem inboundLegacy_short :
    ∃ trace out, ended (.inbound 0) inboundLegacy = some (trace, out) ∧
      delivered (.inbound 0) .toUpstream trace = 18 ∧
      delivered (.inbound 0) .toClient trace = 27 ∧
      (recorded trace).bytesTotal = 0 ∧ (recorded (trace ++ out)).bytesTotal = 27 := by
  have hcheck : (ended (.inbound 0) inboundLegacy).any (fun last =>
      delivered (.inbound 0) .toUpstream last.1 = 18 &&
        delivered (.inbound 0) .toClient last.1 = 27 && (recorded last.1).bytesTotal = 0 &&
          (recorded (last.1 ++ last.2)).bytesTotal = 27) = true := by
    decide +kernel
  obtain ⟨⟨trace, out⟩, hended, hcounts⟩ := (Option.any_eq_true _ _).mp hcheck
  simp only [Bool.and_eq_true, decide_eq_true_eq, and_assoc] at hcounts
  exact ⟨trace, out, hended, hcounts⟩

end Example

end Node

end Interlink
