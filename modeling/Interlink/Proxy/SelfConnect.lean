import Interlink.Foundation.Feedback
import Interlink.Proxy.Node

/-!
# Connections of a proxy to itself

When an accepted connection was not redirected, its original destination is the
address the proxy listens on.  A proxy that takes that address as the upstream dials
its own listener, before any handshake, and accepts what it has dialed.
-/

namespace Interlink

open Interlink.Foundation

structure Listener (listenPort : UInt16) where
  own : SocketAddr → Bool
  address : SocketAddr
  own_address : own address = true
  port_eq : ∀ addr, own addr = true → addr.port = listenPort

/-- The address is one the target stands for; `lookup` says what discovery may answer. -/
def UpstreamTarget.ResolvesTo (hasDiscovery : Bool) (lookup : Str → ResolvedEndpoints → Bool)
    (target : UpstreamTarget) (addr : SocketAddr) : Prop :=
  match target.resolve hasDiscovery with
  | .done result => result = .ok addr
  | .lookup name port =>
      ∃ resolved, lookup name resolved = true ∧ resolveHost name port resolved = .ok addr

def UpstreamTarget.Elsewhere (own : SocketAddr → Bool) (hasDiscovery : Bool)
    (lookup : Str → ResolvedEndpoints → Bool) (target : UpstreamTarget) : Prop :=
  ∀ addr, target.ResolvesTo hasDiscovery lookup addr → own addr = false

def UpstreamTarget.answers (hasDiscovery : Bool) (lookup : Str → ResolvedEndpoints → Bool)
    (target : UpstreamTarget) (resolved : ResolvedEndpoints) : Bool :=
  match target.resolve hasDiscovery with
  | .lookup name _ => lookup name resolved
  | .done _ => true

section Target

variable {own : SocketAddr → Bool} {hasDiscovery : Bool}
  {lookup : Str → ResolvedEndpoints → Bool} {target : UpstreamTarget} {addr : SocketAddr}

theorem UpstreamTarget.Elsewhere.done (h : target.Elsewhere own hasDiscovery lookup)
    (hresolve : target.resolve hasDiscovery = .done (.ok addr)) : own addr = false := by
  refine h addr ?_
  rw [ResolvesTo, hresolve]

theorem UpstreamTarget.Elsewhere.found (h : target.Elsewhere own hasDiscovery lookup)
    {name : Str} {port : Option UInt16} {resolved : ResolvedEndpoints}
    (hresolve : target.resolve hasDiscovery = .lookup name port)
    (hanswers : target.answers hasDiscovery lookup resolved = true)
    (hhost : resolveHost name port resolved = .ok addr) : own addr = false := by
  refine h addr ?_
  simp only [answers, hresolve] at hanswers
  rw [ResolvesTo, hresolve]
  exact ⟨resolved, hanswers, hhost⟩

theorem UpstreamTarget.not_elsewhere_socket (haddr : own addr = true) :
    ¬ (UpstreamTarget.socket addr).Elsewhere own hasDiscovery lookup := by
  intro h
  rw [h.done rfl] at haddr
  cases haddr

end Target

/-! ## The inbound proxy -/

namespace TcpProxy

def connectsTo (proxy : TcpProxy) (s : State) : Event → List SocketAddr
  | .run i =>
      match s.conns[i]? with
      | some (.resolving target) =>
          match target.resolve proxy.hasDiscovery with
          | .done (.ok addr) => [addr]
          | _ => []
      | _ => []
  | .discovered i (.ok resolved) =>
      match s.conns[i]? with
      | some (.resolving target) =>
          match target.resolve proxy.hasDiscovery with
          | .lookup name port => (resolveHost name port resolved).toOption.toList
          | _ => []
      | _ => []
  | .runStream k =>
      match s.streams[k]? with
      | some stream => if stream.pc = .spawned then [stream.upstream] else []
      | none => []
  | _ => []

/-- No accepted connection is redirected, and discovery answers as `lookup` says. -/
def unredirected (proxy : TcpProxy) (own : SocketAddr → Bool)
    (lookup : Str → ResolvedEndpoints → Bool) (s : State) : Event → Bool
  | .accept originalDst => originalDst.all own
  | .discovered i (.ok resolved) =>
      match s.conns[i]? with
      | some (.resolving target) => target.answers proxy.hasDiscovery lookup resolved
      | _ => true
  | _ => true

def Conn.Elsewhere (own : SocketAddr → Bool) (hasDiscovery : Bool)
    (lookup : Str → ResolvedEndpoints → Bool) : Conn → Prop
  | .accepted target | .spawned target | .resolving target =>
      target.Elsewhere own hasDiscovery lookup
  | .handling addr _ => own addr = false
  | _ => True

/-- Nothing the proxy is going to connect to is its own listener. -/
structure Elsewhere (proxy : TcpProxy) (own : SocketAddr → Bool)
    (lookup : Str → ResolvedEndpoints → Bool) (s : State) : Prop where
  conns : ∀ conn ∈ s.conns, conn.Elsewhere own proxy.hasDiscovery lookup
  streams : ∀ stream ∈ s.streams, own stream.upstream = false

section Elsewhere

variable {proxy : TcpProxy} {own : SocketAddr → Bool}
  {lookup : Str → ResolvedEndpoints → Bool}
  {shared shared' : Shared} {s s' : State} {i : Nat} {addr : SocketAddr} {pc : Pc}
  {effect : Effect} {conn : Conn} {out : List Observation}

theorem Elsewhere.set (h : Elsewhere proxy own lookup s) (i : Nat) (conn : Conn)
    (hconn : conn.Elsewhere own proxy.hasDiscovery lookup)
    (hconns : s'.conns = s.conns.set i conn) (hstreams : s'.streams = s.streams) :
    Elsewhere proxy own lookup s' where
  conns := by
    rw [hconns]
    exact Tasks.forall_mem_set h.conns hconn
  streams := by
    rw [hstreams]
    exact h.streams

theorem Elsewhere.gotoStream (h : Elsewhere proxy own lookup s) {k : Nat} {stream : Stream}
    (hk : s.streams[k]? = some stream) (next : StreamPc) :
    Elsewhere proxy own lookup (s.gotoStream k stream next) where
  conns := h.conns
  streams := Tasks.forall_mem_set h.streams (h.streams stream (List.mem_of_getElem? hk))

theorem Move.conn_elsewhere (hmove : Move proxy shared s i addr pc effect conn out)
    (haddr : own addr = false) : conn.Elsewhere own proxy.hasDiscovery lookup := by
  cases hmove with
  | @decideNamespace tls decision hscan =>
      cases decision with
      | deny reason => trivial
      | allow =>
          simp only [decided]
          split <;> exact haddr
  | @decideGlobal tls decision hscan =>
      cases decision with
      | deny reason => trivial
      | allow =>
          simp only [decided]
          split <;> exact haddr
  | _ => first | exact haddr | trivial

theorem Elsewhere.move (h : Elsewhere proxy own lookup s)
    (hi : s.conns[i]? = some (.handling addr pc))
    (hmove : Move proxy shared s i addr pc effect conn out) :
    Elsewhere proxy own lookup (s.perform i addr effect conn) := by
  have haddr : own addr = false := h.conns _ (List.mem_of_getElem? hi)
  refine ⟨Tasks.forall_mem_set h.conns (hmove.conn_elsewhere haddr), ?_⟩
  cases effect with
  | spawn tls => exact Tasks.forall_mem_append h.streams haddr
  | _ => exact h.streams

private theorem Elsewhere.performed (h : Elsewhere proxy own lookup s) {reaction : Reaction}
    (hi : s.conns[i]? = some (.handling addr pc))
    (hmove : ∀ {effect conn out}, reaction = some (effect, conn, out) →
      Move proxy shared s i addr pc effect conn out)
    (hperformed : performed shared s i addr reaction = some (shared', s', out)) :
    Elsewhere proxy own lookup s' := by
  obtain ⟨⟨effect, conn, out⟩, hreaction, heq⟩ := Option.map_eq_some_iff.mp hperformed
  cases heq
  exact h.move hi (hmove hreaction)

private theorem Elsewhere.respond (h : Elsewhere proxy own lookup s)
    {react : SocketAddr → Pc → Reaction}
    (hmove : ∀ {addr pc effect conn out}, react addr pc = some (effect, conn, out) →
      Move proxy shared s i addr pc effect conn out)
    (hstep : s.conns[i]?.bind (TcpProxy.respond shared s i react) =
      some (shared', s', out)) : Elsewhere proxy own lookup s' := by
  obtain ⟨conn, hi, hrespond⟩ := Option.bind_eq_some_iff.mp hstep
  cases conn with
  | handling addr pc => exact h.performed hi hmove hrespond
  | _ => cases hrespond

private theorem Elsewhere.resolved (h : Elsewhere proxy own lookup s)
    {result : Except InterlinkError SocketAddr}
    (hresult : ∀ addr, result = .ok addr → own addr = false)
    (hstep : some (shared, TcpProxy.resolved s i result) = some (shared', s', out)) :
    Elsewhere proxy own lookup s' := by
  cases result with
  | ok addr =>
      cases hstep
      exact h.set i (.handling addr (.joining .handshaking none)) (hresult addr rfl) rfl rfl
  | error error =>
      cases hstep
      exact h.set i .leaving trivial rfl rfl

private theorem Elsewhere.runConn (h : Elsewhere proxy own lookup s)
    (hi : s.conns[i]? = some conn)
    (hstep : TcpProxy.runConn proxy shared s i conn = some (shared', s', out)) :
    Elsewhere proxy own lookup s' := by
  have hconn := h.conns conn (List.mem_of_getElem? hi)
  cases conn with
  | accepted target =>
      cases hstep
      exact h.set i (.spawned target) hconn rfl rfl
  | spawned target =>
      cases hstep
      exact h.set i (.resolving target) hconn rfl rfl
  | resolving target =>
      simp only [TcpProxy.runConn] at hstep
      split at hstep
      next result hresolve =>
        refine h.resolved ?_ hstep
        rintro addr rfl
        exact UpstreamTarget.Elsewhere.done hconn hresolve
      next => cases hstep
  | handling addr pc => exact h.performed hi advance_move hstep
  | leaving =>
      cases hstep
      exact h.set i .releasing trivial rfl rfl
  | releasing =>
      cases hstep
      exact h.set i .finished trivial rfl rfl
  | finished => cases hstep

private theorem Elsewhere.discovered (h : Elsewhere proxy own lookup s)
    {result : Except InterlinkError ResolvedEndpoints}
    (hun : proxy.unredirected own lookup s (.discovered i result) = true)
    (hstep : proxy.step shared s (.discovered i result) = some (shared', s', out)) :
    Elsewhere proxy own lookup s' := by
  obtain ⟨conn, hi, hdiscover⟩ := Option.bind_eq_some_iff.mp hstep
  have hconn := h.conns conn (List.mem_of_getElem? hi)
  cases conn with
  | resolving target =>
      simp only [discover] at hdiscover
      split at hdiscover
      next name port hresolve =>
        refine h.resolved ?_ hdiscover
        intro addr haddr
        cases result with
        | error error => cases haddr
        | ok answer =>
            simp only [unredirected, hi] at hun
            exact UpstreamTarget.Elsewhere.found hconn hresolve hun haddr
      next => cases hdiscover
  | _ => cases hdiscover

private theorem Elsewhere.accept (h : Elsewhere proxy own lookup s)
    {originalDst : Option SocketAddr}
    (hselect : ∀ target, proxy.selectUpstream originalDst = some target →
      target.Elsewhere own proxy.hasDiscovery lookup) :
    Elsewhere proxy own lookup (TcpProxy.accept proxy s originalDst).1 := by
  unfold TcpProxy.accept
  split
  next => exact h
  next target htarget =>
    split
    next => exact ⟨Tasks.forall_mem_append h.conns (hselect target htarget), h.streams⟩
    next => exact h

theorem Elsewhere.step (h : Elsewhere proxy own lookup s) {e : Event}
    (hselect : ∀ originalDst target, originalDst.all own = true →
      proxy.selectUpstream originalDst = some target →
        target.Elsewhere own proxy.hasDiscovery lookup)
    (hun : proxy.unredirected own lookup s e = true)
    (hstep : proxy.step shared s e = some (shared', s', out)) :
    Elsewhere proxy own lookup s' := by
  cases e with
  | accept originalDst =>
      obtain ⟨_, hnext⟩ := Prod.mk.inj (Option.some.inj hstep)
      obtain rfl := congrArg Prod.fst hnext
      exact h.accept fun target => hselect originalDst target hun
  | run i =>
      obtain ⟨conn, hi, hrun⟩ := Option.bind_eq_some_iff.mp hstep
      exact h.runConn hi hrun
  | discovered i result => exact h.discovered hun hstep
  | handshaken i result => exact h.respond handshaken_move hstep
  | dialed i ok => exact h.respond dialed_move hstep
  | read i data => exact h.respond read_move hstep
  | written i delivered ok => exact h.respond written_move hstep
  | relay i direction data => exact h.respond relay_move hstep
  | relayEnd i result => exact h.respond relayEnd_move hstep
  | acceptStream i => exact h.respond acceptStream_move hstep
  | closeTunnel i => exact h.respond closeTunnel_move hstep
  | runStream k =>
      obtain ⟨stream, hk, hrun⟩ := Option.bind_eq_some_iff.mp hstep
      unfold runStream at hrun
      split at hrun <;> cases hrun
      exact h.gotoStream hk _
  | streamDialed k ok =>
      obtain ⟨stream, hk, hdialed⟩ := Option.bind_eq_some_iff.mp hstep
      unfold streamDialed at hdialed
      split at hdialed
      next =>
        cases ok <;> cases hdialed
        · exact h.gotoStream hk _
        · exact h.gotoStream hk _
      next => cases hdialed
  | streamRelay k direction data =>
      obtain ⟨stream, hk, hrelay⟩ := Option.bind_eq_some_iff.mp hstep
      unfold streamRelay at hrelay
      split at hrelay <;> cases hrelay
      exact h
  | streamEnd k result =>
      obtain ⟨stream, hk, hend⟩ := Option.bind_eq_some_iff.mp hstep
      unfold streamEnd at hend
      split at hend <;> cases hend
      exact h.gotoStream hk _

theorem Elsewhere.connectsTo (h : Elsewhere proxy own lookup s) {e : Event}
    (hun : proxy.unredirected own lookup s e = true) {addr : SocketAddr}
    (haddr : addr ∈ proxy.connectsTo s e) : own addr = false := by
  unfold TcpProxy.connectsTo at haddr
  split at haddr
  next i =>
    split at haddr
    next target hi =>
      have htarget : target.Elsewhere own proxy.hasDiscovery lookup :=
        h.conns _ (List.mem_of_getElem? hi)
      split at haddr
      next found hresolve =>
        rw [List.mem_singleton.mp haddr]
        exact htarget.done hresolve
      next => cases haddr
    next => cases haddr
  next i resolved =>
    split at haddr
    next target hi =>
      have htarget : target.Elsewhere own proxy.hasDiscovery lookup :=
        h.conns _ (List.mem_of_getElem? hi)
      simp only [unredirected, hi] at hun
      split at haddr
      next name port hresolve =>
        cases hhost : resolveHost name port resolved with
        | ok found =>
            rw [hhost] at haddr
            rw [List.mem_singleton.mp haddr]
            exact htarget.found hresolve hun hhost
        | error error =>
            rw [hhost] at haddr
            cases haddr
      next => cases haddr
    next => cases haddr
  next k =>
    split at haddr
    next stream hk =>
      split at haddr
      next =>
        rw [List.mem_singleton.mp haddr]
        exact h.streams stream (List.mem_of_getElem? hk)
      next => cases haddr
    next => cases haddr
  next => cases haddr

end Elsewhere

end TcpProxy

/-! ## The outbound proxy -/

namespace OutboundProxy

def connectsTo (s : State) : Event → List SocketAddr
  | .run i =>
      match s.conns[i]? with
      | some (.routing addr (.dialing _)) => [addr]
      | _ => []
  | _ => []

def unredirected (proxy : OutboundProxy) (own : SocketAddr → Bool)
    (lookup : Str → ResolvedEndpoints → Bool) (s : State) : Event → Bool
  | .accept originalDst => originalDst.all own
  | .discovered i (.ok resolved) =>
      match s.conns[i]? with
      | some (.resolving target) => target.answers proxy.hasDiscovery lookup resolved
      | _ => true
  | _ => true

def Conn.Elsewhere (own : SocketAddr → Bool) (hasDiscovery : Bool)
    (lookup : Str → ResolvedEndpoints → Bool) : Conn → Prop
  | .accepted target | .spawned target | .resolving target =>
      target.Elsewhere own hasDiscovery lookup
  | .routing addr _ => own addr = false
  | _ => True

def Elsewhere (proxy : OutboundProxy) (own : SocketAddr → Bool)
    (lookup : Str → ResolvedEndpoints → Bool) (s : State) : Prop :=
  ∀ conn ∈ s.conns, conn.Elsewhere own proxy.hasDiscovery lookup

section Elsewhere

variable {proxy : OutboundProxy} {own : SocketAddr → Bool}
  {lookup : Str → ResolvedEndpoints → Bool} {shared shared' : Shared} {s s' : State} {i : Nat}
  {addr : SocketAddr} {pc : Pc} {effect : Effect} {conn : Conn} {out : List Observation}

theorem Move.conn_elsewhere (hmove : Move proxy shared s i addr pc effect conn out)
    (haddr : own addr = false) : conn.Elsewhere own proxy.hasDiscovery lookup := by
  cases hmove <;> first | exact haddr | trivial

private theorem Elsewhere.performed (h : Elsewhere proxy own lookup s) {reaction : Reaction}
    (hi : s.conns[i]? = some (.routing addr pc))
    (hmove : ∀ {effect conn out}, reaction = some (effect, conn, out) →
      Move proxy shared s i addr pc effect conn out)
    (hperformed : performed shared s i addr reaction = some (shared', s', out)) :
    Elsewhere proxy own lookup s' := by
  obtain ⟨⟨effect, conn, out⟩, hreaction, heq⟩ := Option.map_eq_some_iff.mp hperformed
  cases heq
  exact Tasks.forall_mem_set h ((hmove hreaction).conn_elsewhere (h _ (List.mem_of_getElem? hi)))

private theorem Elsewhere.respond (h : Elsewhere proxy own lookup s)
    {react : SocketAddr → Pc → Reaction}
    (hmove : ∀ {addr pc effect conn out}, react addr pc = some (effect, conn, out) →
      Move proxy shared s i addr pc effect conn out)
    (hstep : s.conns[i]?.bind (OutboundProxy.respond shared s i react) =
      some (shared', s', out)) : Elsewhere proxy own lookup s' := by
  obtain ⟨conn, hi, hrespond⟩ := Option.bind_eq_some_iff.mp hstep
  cases conn with
  | routing addr pc => exact h.performed hi hmove hrespond
  | _ => cases hrespond

private theorem Elsewhere.resolved (h : Elsewhere proxy own lookup s)
    {result : Except InterlinkError SocketAddr}
    (hresult : ∀ addr, result = .ok addr → own addr = false)
    (hstep : some (shared, OutboundProxy.resolved proxy s i result) =
      some (shared', s', out)) : Elsewhere proxy own lookup s' := by
  cases result with
  | ok addr =>
      cases hstep
      exact Tasks.forall_mem_set h (hresult addr rfl)
  | error error =>
      cases hstep
      exact Tasks.forall_mem_set h trivial

private theorem Elsewhere.runConn (h : Elsewhere proxy own lookup s)
    (hi : s.conns[i]? = some conn)
    (hstep : OutboundProxy.runConn proxy shared s i conn = some (shared', s', out)) :
    Elsewhere proxy own lookup s' := by
  have hconn := h conn (List.mem_of_getElem? hi)
  cases conn with
  | accepted target =>
      cases hstep
      exact Tasks.forall_mem_set h hconn
  | spawned target =>
      cases hstep
      exact Tasks.forall_mem_set h hconn
  | resolving target =>
      simp only [OutboundProxy.runConn] at hstep
      split at hstep
      next result hresolve =>
        refine h.resolved ?_ hstep
        rintro addr rfl
        exact UpstreamTarget.Elsewhere.done hconn hresolve
      next => cases hstep
  | routing addr pc => exact h.performed hi advance_move hstep
  | leaving =>
      cases hstep
      exact Tasks.forall_mem_set h trivial
  | releasing =>
      cases hstep
      exact Tasks.forall_mem_set h trivial
  | finished => cases hstep

private theorem Elsewhere.discovered (h : Elsewhere proxy own lookup s)
    {result : Except InterlinkError ResolvedEndpoints}
    (hun : proxy.unredirected own lookup s (.discovered i result) = true)
    (hstep : proxy.step shared s (.discovered i result) = some (shared', s', out)) :
    Elsewhere proxy own lookup s' := by
  obtain ⟨conn, hi, hdiscover⟩ := Option.bind_eq_some_iff.mp hstep
  have hconn := h conn (List.mem_of_getElem? hi)
  cases conn with
  | resolving target =>
      simp only [discover] at hdiscover
      split at hdiscover
      next name port hresolve =>
        refine h.resolved ?_ hdiscover
        intro addr haddr
        cases result with
        | error error => cases haddr
        | ok answer =>
            simp only [unredirected, hi] at hun
            exact UpstreamTarget.Elsewhere.found hconn hresolve hun haddr
      next => cases hdiscover
  | _ => cases hdiscover

private theorem Elsewhere.accept (h : Elsewhere proxy own lookup s)
    {originalDst : Option SocketAddr}
    (hselect : ∀ target, proxy.selectUpstream originalDst = some target →
      target.Elsewhere own proxy.hasDiscovery lookup) :
    Elsewhere proxy own lookup (OutboundProxy.accept proxy s originalDst).1 := by
  unfold OutboundProxy.accept
  split
  next => exact h
  next target htarget =>
    split
    next => exact Tasks.forall_mem_append h (hselect target htarget)
    next => exact h

theorem Elsewhere.step (h : Elsewhere proxy own lookup s) {e : Event}
    (hselect : ∀ originalDst target, originalDst.all own = true →
      proxy.selectUpstream originalDst = some target →
        target.Elsewhere own proxy.hasDiscovery lookup)
    (hun : proxy.unredirected own lookup s e = true)
    (hstep : proxy.step shared s e = some (shared', s', out)) :
    Elsewhere proxy own lookup s' := by
  cases e with
  | accept originalDst =>
      obtain ⟨_, hnext⟩ := Prod.mk.inj (Option.some.inj hstep)
      obtain rfl := congrArg Prod.fst hnext
      exact h.accept fun target => hselect originalDst target hun
  | run i =>
      obtain ⟨conn, hi, hrun⟩ := Option.bind_eq_some_iff.mp hstep
      exact h.runConn hi hrun
  | discovered i result => exact h.discovered hun hstep
  | handshaken i result => exact h.respond handshaken_move hstep
  | opened i ok => exact h.respond opened_move hstep
  | relay i direction data => exact h.respond relay_move hstep
  | relayEnd i result => exact h.respond relayEnd_move hstep
  | driverExit d =>
      obtain ⟨driver, _, hexit⟩ := Option.bind_eq_some_iff.mp hstep
      cases driver <;> cases hexit
      exact h
  | driverEvict d =>
      obtain ⟨driver, _, hevict⟩ := Option.bind_eq_some_iff.mp hstep
      cases driver <;> cases hevict
      exact h

theorem Elsewhere.connectsTo (h : Elsewhere proxy own lookup s) {e : Event} {addr : SocketAddr}
    (haddr : addr ∈ OutboundProxy.connectsTo s e) : own addr = false := by
  unfold OutboundProxy.connectsTo at haddr
  split at haddr
  next i =>
    split at haddr
    next found locked hi =>
      rw [List.mem_singleton.mp haddr]
      exact h _ (List.mem_of_getElem? hi)
    next => cases haddr
  next => cases haddr

end Elsewhere

end OutboundProxy

/-! ## The sidecar and those that connect to it -/

namespace Node

structure Listeners (node : Node) where
  outbound : Listener node.outbound.listenPort
  inbound : Listener node.inbound.listenPort

section Runs

variable (node : Node) (listeners : node.Listeners) (lookup : Str → ResolvedEndpoints → Bool)

def unredirected (s : State) : Event → Bool
  | .outbound event =>
      node.outbound.unredirected listeners.outbound.own lookup s.outbound event
  | .inbound event => node.inbound.unredirected listeners.inbound.own lookup s.inbound event
  | _ => true

def unredirectedStep : Step State Event Observation := fun s e =>
  if node.unredirected listeners lookup s e then node.step s e else none

def acceptsOutbound : Event → Bool
  | .outbound (.accept _) => true
  | _ => false

def acceptsInbound : Event → Bool
  | .inbound (.accept _) => true
  | _ => false

def opensOutbound (s : State) : Event → Nat
  | .outbound event => (OutboundProxy.connectsTo s.outbound event).countP listeners.outbound.own
  | _ => 0

def opensInbound (s : State) : Event → Nat
  | .inbound event => (node.inbound.connectsTo s.inbound event).countP listeners.inbound.own
  | _ => 0

/--
In every run a proxy accepts at most as many connections as others have opened.  What
it opens to its own listener is accepted too.
-/
def AcceptsOnlyOthers (accepts : Event → Bool) (opens : State → Event → Nat) : Prop :=
  ∀ parse policy events last trace,
    (Feedback.next (node.unredirectedStep listeners lookup) accepts opens).exec
        (Feedback.start (node.initial parse policy)) events = some (last, trace) →
      last.consumed ≤ last.external

structure NeverSelf : Prop where
  outbound_target : ∀ originalDst target,
    originalDst.all listeners.outbound.own = true →
    node.outbound.selectUpstream originalDst = some target →
      target.Elsewhere listeners.outbound.own node.outbound.hasDiscovery lookup
  inbound_target : ∀ originalDst target,
    originalDst.all listeners.inbound.own = true →
    node.inbound.selectUpstream originalDst = some target →
      target.Elsewhere listeners.inbound.own node.inbound.hasDiscovery lookup
  outbound_accepts : node.AcceptsOnlyOthers listeners lookup acceptsOutbound
    (node.opensOutbound listeners)
  inbound_accepts : node.AcceptsOnlyOthers listeners lookup acceptsInbound
    (node.opensInbound listeners)

variable {node listeners lookup} {s s' : State} {e : Event} {out : List Observation}

theorem unredirectedStep_eq (h : node.unredirectedStep listeners lookup s e = some (s', out)) :
    node.unredirected listeners lookup s e = true ∧ node.step s e = some (s', out) := by
  unfold unredirectedStep at h
  split at h
  next hun => exact ⟨hun, h⟩
  next => cases h

theorem outbound_elsewhere
    (hselect : ∀ originalDst target, originalDst.all listeners.outbound.own = true →
      node.outbound.selectUpstream originalDst = some target →
        target.Elsewhere listeners.outbound.own node.outbound.hasDiscovery lookup)
    (h : node.outbound.Elsewhere listeners.outbound.own lookup s.outbound)
    (hstep : node.unredirectedStep listeners lookup s e = some (s', out)) :
    node.outbound.Elsewhere listeners.outbound.own lookup s'.outbound ∧
      node.opensOutbound listeners s e = 0 := by
  obtain ⟨hun, hnode⟩ := unredirectedStep_eq hstep
  cases e with
  | outbound event =>
      obtain ⟨⟨shared, outbound, out⟩, hproxy, heq⟩ := Option.map_eq_some_iff.mp hnode
      cases heq
      refine ⟨h.step hselect hun hproxy, List.countP_eq_zero.mpr ?_⟩
      intro addr haddr
      simp [h.connectsTo haddr]
  | inbound event =>
      obtain ⟨⟨shared, inbound, out⟩, _, heq⟩ := Option.map_eq_some_iff.mp hnode
      cases heq
      exact ⟨h, rfl⟩
  | policy call =>
      cases hnode
      exact ⟨h, rfl⟩
  | evictIdentity leafDer =>
      cases hnode
      exact ⟨h, rfl⟩

theorem inbound_elsewhere
    (hselect : ∀ originalDst target, originalDst.all listeners.inbound.own = true →
      node.inbound.selectUpstream originalDst = some target →
        target.Elsewhere listeners.inbound.own node.inbound.hasDiscovery lookup)
    (h : node.inbound.Elsewhere listeners.inbound.own lookup s.inbound)
    (hstep : node.unredirectedStep listeners lookup s e = some (s', out)) :
    node.inbound.Elsewhere listeners.inbound.own lookup s'.inbound ∧
      node.opensInbound listeners s e = 0 := by
  obtain ⟨hun, hnode⟩ := unredirectedStep_eq hstep
  cases e with
  | inbound event =>
      obtain ⟨⟨shared, inbound, out⟩, hproxy, heq⟩ := Option.map_eq_some_iff.mp hnode
      cases heq
      refine ⟨h.step hselect hun hproxy, List.countP_eq_zero.mpr ?_⟩
      intro addr haddr
      simp [h.connectsTo hun haddr]
  | outbound event =>
      obtain ⟨⟨shared, outbound, out⟩, _, heq⟩ := Option.map_eq_some_iff.mp hnode
      cases heq
      exact ⟨h, rfl⟩
  | policy call =>
      cases hnode
      exact ⟨h, rfl⟩
  | evictIdentity leafDer =>
      cases hnode
      exact ⟨h, rfl⟩

theorem selectUpstream_outbound_elsewhere
    (hdefault : ∀ target, node.outbound.defaultUpstream = some target →
      target.Elsewhere listeners.outbound.own node.outbound.hasDiscovery lookup)
    (originalDst : Option SocketAddr) (target : UpstreamTarget)
    (hown : originalDst.all listeners.outbound.own = true)
    (hselect : node.outbound.selectUpstream originalDst = some target) :
    target.Elsewhere listeners.outbound.own node.outbound.hasDiscovery lookup := by
  refine hdefault target ?_
  cases originalDst with
  | none => exact hselect
  | some addr =>
      have hport := listeners.outbound.port_eq addr hown
      simpa [OutboundProxy.selectUpstream, Option.filter, hport] using hselect

/--
A sidecar whose connections are not redirected never connects to itself exactly when
its inbound proxy has a default upstream: of the two proxies only the outbound one
drops an original destination on its own port.
-/
theorem neverSelf_iff
    (houtbound : ∀ target, node.outbound.defaultUpstream = some target →
      target.Elsewhere listeners.outbound.own node.outbound.hasDiscovery lookup)
    (hinbound : ∀ target, node.inbound.defaultUpstream = some target →
      target.Elsewhere listeners.inbound.own node.inbound.hasDiscovery lookup) :
    node.NeverSelf listeners lookup ↔ node.inbound.defaultUpstream ≠ none := by
  constructor
  · intro h hnone
    refine UpstreamTarget.not_elsewhere_socket listeners.inbound.own_address
      (h.inbound_target (some listeners.inbound.address) _ listeners.inbound.own_address ?_)
    simp [TcpProxy.selectUpstream, hnone]
  · intro hsome
    obtain ⟨default, hdefault⟩ := Option.ne_none_iff_exists'.mp hsome
    have hout := selectUpstream_outbound_elsewhere houtbound
    have hin : ∀ originalDst target, originalDst.all listeners.inbound.own = true →
        node.inbound.selectUpstream originalDst = some target →
          target.Elsewhere listeners.inbound.own node.inbound.hasDiscovery lookup := by
      intro originalDst target _ hselect
      refine hinbound target ?_
      simpa [TcpProxy.selectUpstream, hdefault] using hselect
    refine ⟨hout, hin, ?_, ?_⟩
    · intro parse policy events last trace hexec
      have hinit : node.outbound.Elsewhere listeners.outbound.own lookup
          node.outbound.initial := List.forall_mem_nil _
      exact Feedback.consumed_le (fun h hstep => outbound_elsewhere hout h hstep) hinit hexec
    · intro parse policy events last trace hexec
      have hinit : node.inbound.Elsewhere listeners.inbound.own lookup node.inbound.initial :=
        ⟨List.forall_mem_nil _, List.forall_mem_nil _⟩
      exact Feedback.consumed_le (fun h hstep => inbound_elsewhere hin h hstep) hinit hexec

end Runs

/-! ## A sidecar that listens on one address -/

namespace Example

def listenAddress (port : UInt16) : SocketAddr := ⟨.v4 0x0a600002, port⟩

def listener (port : UInt16) : Listener port where
  own addr := addr == listenAddress port
  address := listenAddress port
  own_address := by simp
  port_eq addr h := by
    rw [beq_iff_eq.mp h]
    rfl

def listensOn (node : Node) : node.Listeners :=
  ⟨listener node.outbound.listenPort, listener node.inbound.listenPort⟩

def originalDstOnly : Node :=
  { sidecar with inbound := { sidecar.inbound with defaultUpstream := none } }

end Example

open Example

theorem application_elsewhere (port : UInt16) (hasDiscovery : Bool)
    (lookup : Str → ResolvedEndpoints → Bool) (hport : port ≠ application.port) :
    (UpstreamTarget.socket application).Elsewhere (listener port).own hasDiscovery lookup := by
  intro addr haddr
  obtain rfl := Except.ok.inj haddr
  refine beq_eq_false_iff_ne.mpr fun heq => hport ?_
  rw [heq]
  rfl

theorem sidecar_neverSelf : sidecar.NeverSelf (listensOn sidecar) fun _ _ => true := by
  refine (neverSelf_iff ?_ ?_).mpr (by decide)
  · rintro target ⟨⟩
    exact application_elsewhere 15001 true _ (by decide)
  · rintro target ⟨⟩
    exact application_elsewhere 15006 false _ (by decide)

/-- One connection from outside, and the proxy has accepted two. -/
theorem originalDstOnly_accepts_itself :
    originalDstOnly.inbound.selectUpstream (some (listenAddress 15006)) =
        some (.socket (listenAddress 15006)) ∧
      ((Feedback.next (originalDstOnly.unredirectedStep (listensOn originalDstOnly)
          fun _ _ => true) acceptsInbound
          (originalDstOnly.opensInbound (listensOn originalDstOnly))).exec
        (Feedback.start (originalDstOnly.initial readSvid allowAny))
        [.external, .act (.inbound (.accept (some (listenAddress 15006)))),
          .act (.inbound (.run 0)), .act (.inbound (.run 0)), .act (.inbound (.run 0)),
          .act (.inbound (.accept (some (listenAddress 15006))))]).any
        (fun last => last.1.external = 1 && last.1.consumed = 2) = true := by
  refine ⟨rfl, ?_⟩
  decide +kernel

end Node

end Interlink
