import Interlink.Foundation.Trace
import Interlink.Proxy.OutboundMoves

/-!
# Outbound bytes are authorized

The invariant ties every stream that a connection holds, on an old tunnel, on a
fresh one or on a session of its own, to an evaluation that allowed the peer of
that session inside the connection's own `route` call.
-/

namespace Interlink

open Interlink.Foundation

namespace OutboundProxy

def Subject.Genuine (parse : X509Parser) : Subject → Prop
  | .tunnel _ carrier => carrier.Genuine parse
  | .stream _ tls => tls.Genuine parse

def Route.session : Route → Option TlsSession
  | .muxStream tunnel => some tunnel.session
  | .legacy tls => some tls.session
  | .denied => none
  | .failed => none

/-! ## Positions in a route call -/

def NoReturn (i : Nat) (call : List Observation) : Prop :=
  ∀ addr route, .routed i addr route ∉ call

def Calling (i : Nat) (addr : SocketAddr) (trace : List Observation) : Prop :=
  ∃ before call, trace = before ++ .routeCalled i addr :: call ∧ NoReturn i call

/-- The policy has allowed the peer inside the `route` call the connection is in. -/
def Allowed (localId : SpiffeId) (i : Nat) (addr : SocketAddr) (peer : SpiffeId)
    (trace : List Observation) : Prop :=
  ∃ before call rest,
    trace = before ++ .routeCalled i addr ::
      (call ++ .evaluated i localId peer .allow :: rest) ∧
    NoReturn i call ∧ NoReturn i rest

def Authorized (localId : SpiffeId) (i : Nat) (addr : SocketAddr) (peer : SpiffeId)
    (route : Route) (trace : List Observation) : Prop :=
  ∃ before call rest after,
    trace = before ++ .routeCalled i addr ::
      (call ++ .evaluated i localId peer .allow ::
        (rest ++ .routed i addr route :: after)) ∧
    NoReturn i call ∧ NoReturn i rest

section Positions

variable {localId peer : SpiffeId} {i : Nat} {addr : SocketAddr} {route : Route}
  {trace out call rest : List Observation}

theorem NoReturn.append (hcall : NoReturn i call) (hrest : NoReturn i rest) :
    NoReturn i (call ++ rest) := by
  intro addr route hmem
  rcases List.mem_append.mp hmem with hmem | hmem
  · exact hcall addr route hmem
  · exact hrest addr route hmem

theorem Calling.start (trace : List Observation) :
    Calling i addr (trace ++ [.routeCalled i addr]) :=
  ⟨trace, [], rfl, by simp [NoReturn]⟩

theorem Calling.append (h : Calling i addr trace) (hout : NoReturn i out) :
    Calling i addr (trace ++ out) := by
  obtain ⟨before, call, rfl, hcall⟩ := h
  exact ⟨before, call ++ out, by simp, hcall.append hout⟩

theorem Calling.allowed (h : Calling i addr trace) (hout : NoReturn i out) :
    Allowed localId i addr peer (trace ++ .evaluated i localId peer .allow :: out) := by
  obtain ⟨before, call, rfl, hcall⟩ := h
  exact ⟨before, call, out, by simp, hcall, hout⟩

theorem Allowed.append (h : Allowed localId i addr peer trace) (hout : NoReturn i out) :
    Allowed localId i addr peer (trace ++ out) := by
  obtain ⟨before, call, rest, rfl, hcall, hrest⟩ := h
  exact ⟨before, call, rest ++ out, by simp, hcall, hrest.append hout⟩

theorem Allowed.calling (h : Allowed localId i addr peer trace) : Calling i addr trace := by
  obtain ⟨before, call, rest, rfl, hcall, hrest⟩ := h
  refine ⟨before, _, rfl, hcall.append ?_⟩
  intro addr route hmem
  rcases List.mem_cons.mp hmem with hmem | hmem
  · cases hmem
  · exact hrest addr route hmem

theorem Allowed.authorized (h : Allowed localId i addr peer trace) :
    Authorized localId i addr peer route (trace ++ .routed i addr route :: out) := by
  obtain ⟨before, call, rest, rfl, hcall, hrest⟩ := h
  exact ⟨before, call, rest, out, by simp, hcall, hrest⟩

theorem Authorized.append (h : Authorized localId i addr peer route trace)
    (out : List Observation) : Authorized localId i addr peer route (trace ++ out) := by
  obtain ⟨before, call, rest, after, rfl, hcall, hrest⟩ := h
  exact ⟨before, call, rest, after ++ out, by simp, hcall, hrest⟩

end Positions

/-! ## What each point of a connection has established -/

def RouteAuthorized (parse : X509Parser) (localId : SpiffeId) (i : Nat) (addr : SocketAddr)
    (route : Route) (trace : List Observation) : Prop :=
  ∃ session peer, route.session = some session ∧ session.identity parse = .ok peer ∧
    Authorized localId i addr peer route trace

def Justified (parse : X509Parser) (localId : SpiffeId) (trace : List Observation) (i : Nat)
    (addr : SocketAddr) : Pc → Prop
  | .caching _ leafDer tls =>
      Calling i addr trace ∧ tls.Genuine parse ∧
        spiffeIdFromCertDer parse leafDer = .ok tls.peerIdentity
  | .evaluating subject | .evaluatingGlobal subject =>
      Calling i addr trace ∧ subject.Genuine parse
  | .numbering _ tls | .returning (.legacy tls) =>
      Allowed localId i addr tls.peerIdentity trace ∧ tls.Genuine parse
  | .pushing _ tunnel | .spawning _ tunnel | .reserving _ tunnel | .opening _ tunnel
  | .returning (.muxStream tunnel) =>
      Allowed localId i addr tunnel.peerIdentity trace ∧ tunnel.Genuine parse
  | .unlocking next => Justified parse localId trace i addr next
  | .relaying route | .dropping route => RouteAuthorized parse localId i addr route trace
  | _ => Calling i addr trace

section Justified

variable {parse : X509Parser} {localId : SpiffeId} {trace out : List Observation} {i : Nat}
  {addr : SocketAddr} {pc : Pc}

theorem RouteAuthorized.append {route : Route}
    (h : RouteAuthorized parse localId i addr route trace) (out : List Observation) :
    RouteAuthorized parse localId i addr route (trace ++ out) := by
  obtain ⟨session, peer, hsession, hidentity, hauthorized⟩ := h
  exact ⟨session, peer, hsession, hidentity, hauthorized.append out⟩

theorem Justified.append (h : Justified parse localId trace i addr pc)
    (hout : NoReturn i out) : Justified parse localId (trace ++ out) i addr pc := by
  induction pc with
  | caching locked leafDer tls => exact ⟨h.1.append hout, h.2⟩
  | evaluating subject => exact ⟨h.1.append hout, h.2⟩
  | evaluatingGlobal subject => exact ⟨h.1.append hout, h.2⟩
  | numbering locked tls => exact ⟨h.1.append hout, h.2⟩
  | pushing locked tunnel => exact ⟨h.1.append hout, h.2⟩
  | spawning locked tunnel => exact ⟨h.1.append hout, h.2⟩
  | reserving origin tunnel => exact ⟨h.1.append hout, h.2⟩
  | opening origin tunnel => exact ⟨h.1.append hout, h.2⟩
  | unlocking next ih => exact ih h
  | returning route =>
      cases route with
      | muxStream tunnel => exact ⟨h.1.append hout, h.2⟩
      | legacy tls => exact ⟨h.1.append hout, h.2⟩
      | denied => exact Calling.append h hout
      | failed => exact Calling.append h hout
  | relaying route => exact RouteAuthorized.append h out
  | dropping route => exact RouteAuthorized.append h out
  | _ => exact Calling.append h hout

theorem justified_leave {locked : Bool} :
    Justified parse localId trace i addr (leave locked pc) ↔
      Justified parse localId trace i addr pc := by
  cases locked <;> rfl

theorem justified_route (proxy : OutboundProxy) (h : Calling i addr trace) :
    Justified parse localId trace i addr proxy.route := by
  unfold route
  split <;> exact h

theorem justified_decided {subject : Subject} (decision : Decision)
    (hcalling : Calling i addr trace) (hgenuine : subject.Genuine parse) :
    Justified parse localId
      (trace ++ [.evaluated i localId subject.peer decision, .metric (.policy decision)])
      i addr (decided subject decision) := by
  have hnone : NoReturn i
      [.evaluated i localId subject.peer decision, .metric (.policy decision)] := by
    simp [NoReturn]
  cases decision with
  | allow =>
      have hallowed : Allowed localId i addr subject.peer
          (trace ++ [.evaluated i localId subject.peer .allow, .metric (.policy .allow)]) :=
        hcalling.allowed (by simp [NoReturn])
      cases subject with
      | tunnel attempts tunnel => exact ⟨hallowed, hgenuine⟩
      | stream locked tls =>
          simp only [decided]
          split
          next => exact ⟨hallowed, hgenuine⟩
          next => exact justified_leave.mpr ⟨hallowed, hgenuine⟩
  | deny reason =>
      cases subject with
      | tunnel attempts tunnel => exact hcalling.append hnone
      | stream locked tls => exact justified_leave.mpr (hcalling.append hnone)

end Justified

/-! ## Steps keep it -/

def RelayAuthorized (parse : X509Parser) (localId : SpiffeId) (before : List Observation) :
    Observation → Prop
  | .relayed i route _ _ => ∃ addr, RouteAuthorized parse localId i addr route before
  | _ => True

structure Invariant (parse : X509Parser) (localId : SpiffeId) (trace : List Observation)
    (s : State) : Prop where
  conns : ∀ i addr pc, s.conns[i]? = some (.routing addr pc) →
    Justified parse localId trace i addr pc
  tunnels : ∀ addr, ∀ tunnel ∈ s.pool.peers addr, tunnel.Genuine parse
  relays : Preceded (RelayAuthorized parse localId) trace

section Steps

variable {proxy : OutboundProxy} {shared shared' : Shared} {s s' : State} {i j : Nat}
  {addr : SocketAddr} {pc : Pc} {effect : Effect} {conn : Conn} {e : Event}
  {trace out : List Observation}

theorem Move.noReturn_of_ne (h : Move proxy shared s i addr pc effect conn out)
    (hj : j ≠ i) : NoReturn j out := by
  intro other route hmem
  cases h <;> simp at hmem
  all_goals exact hj hmem.1

theorem Move.justified (h : Move proxy shared s i addr pc effect conn out) {next : Pc}
    (hconn : conn = .routing addr next)
    (hcache : shared.identityCache.Sound shared.parse)
    (htunnels : ∀ tunnel ∈ s.pool.peers addr, tunnel.Genuine shared.parse)
    (hpc : Justified shared.parse proxy.localId trace i addr pc) :
    Justified shared.parse proxy.localId (trace ++ out) i addr next := by
  have hnil : NoReturn i [] := by simp [NoReturn]
  cases h <;> cases hconn
  case exhaust => exact Calling.append hpc hnil
  case pick hpick =>
    exact ⟨Calling.append hpc (by simp [NoReturn]),
      htunnels _ (MuxPool.pickUnderCap_mem hpick).1⟩
  case pickNone => exact Calling.append hpc hnil
  case lock => exact Calling.append hpc hnil
  case recheck hpick =>
    exact ⟨Calling.append hpc (by simp [NoReturn]),
      htunnels _ (MuxPool.pickUnderCap_mem hpick).1⟩
  case recheckNone => exact Calling.append hpc hnil
  case grow => exact Calling.append hpc hnil
  case full => exact Calling.append hpc hnil
  case fallBack hpick =>
    exact ⟨Calling.append hpc (by simp [NoReturn]), htunnels _ (MuxPool.pickAny_mem hpick)⟩
  case fallBackNone => exact Calling.append hpc hnil
  case dial => exact Calling.append hpc (by simp [NoReturn])
  case handshake => exact Calling.append hpc (by simp [NoReturn])
  case handshakeError =>
    exact justified_leave.mpr (Calling.append hpc (by simp [NoReturn]))
  case identify hfound =>
    exact ⟨Calling.append hpc (by simp [NoReturn]), identity_of_cached hcache hfound⟩
  case parse hfound =>
    have hparsed := identity_of_parsed hfound
    exact ⟨Calling.append hpc hnil, hparsed.2, hparsed.1⟩
  case identifyError =>
    exact justified_leave.mpr (Calling.append hpc (by simp [NoReturn]))
  case cache => exact ⟨hpc.1.append (by simp [NoReturn]), hpc.2.1⟩
  case scan => exact ⟨hpc.1.append hnil, hpc.2⟩
  case decideNamespace decision _ => exact justified_decided decision hpc.1 hpc.2
  case decideGlobal => exact justified_decided _ hpc.1 hpc.2
  case number => exact ⟨hpc.1.append hnil, hpc.2⟩
  case push => exact ⟨hpc.1.append (by simp [NoReturn]), hpc.2⟩
  case spawn => exact ⟨hpc.1.append (by simp [NoReturn]), hpc.2⟩
  case reserve => exact ⟨hpc.1.append hnil, hpc.2⟩
  case openPooled => exact ⟨hpc.1.append hnil, hpc.2⟩
  case openFresh => exact justified_leave.mpr ⟨hpc.1.append hnil, hpc.2⟩
  case openError => exact hpc.1.calling.append (by simp [NoReturn])
  case unreserve => exact Calling.append hpc hnil
  case evictPooled => exact Calling.append hpc (by simp [NoReturn])
  case evictFresh => exact justified_leave.mpr (Calling.append hpc (by simp [NoReturn]))
  case unlock => exact Justified.append hpc hnil
  case returnMux => exact ⟨_, _, rfl, hpc.2, hpc.1.authorized⟩
  case returnLegacy => exact ⟨_, _, rfl, hpc.2, hpc.1.authorized⟩
  case relay => exact RouteAuthorized.append hpc _
  case relayEnd => exact RouteAuthorized.append hpc _

theorem Move.relayAuthorized (h : Move proxy shared s i addr pc effect conn out)
    (hpc : Justified shared.parse proxy.localId trace i addr pc)
    (hrelays : Preceded (RelayAuthorized shared.parse proxy.localId) trace) :
    Preceded (RelayAuthorized shared.parse proxy.localId) (trace ++ out) := by
  refine hrelays.append fun before o after hout => ?_
  cases o with
  | relayed k route direction data =>
      have hmem : .relayed k route direction data ∈ out := by simp [hout]
      cases h <;> simp at hmem
      case relay =>
        obtain ⟨rfl, rfl, -, -⟩ := hmem
        exact ⟨addr, RouteAuthorized.append hpc before⟩
  | _ => trivial

theorem Move.tunnels (h : Move proxy shared s i addr pc effect conn out)
    (hpc : Justified shared.parse proxy.localId trace i addr pc)
    (htunnels : ∀ addr, ∀ tunnel ∈ s.pool.peers addr, tunnel.Genuine shared.parse) :
    ∀ other, ∀ tunnel ∈ (effect.onPool i addr s.pool).peers other,
      tunnel.Genuine shared.parse := by
  intro other tunnel hmem
  cases h
  case push =>
    simp only [Effect.onPool, MuxPool.push, Function.update_apply] at hmem
    split at hmem
    next =>
      rcases List.mem_append.mp hmem with hmem | hmem
      · exact htunnels addr tunnel hmem
      · rw [List.mem_singleton.mp hmem]
        exact hpc.2
    next => exact htunnels other tunnel hmem
  case evictPooled | evictFresh =>
    simp only [Effect.onPool, MuxPool.evict, Function.update_apply] at hmem
    split at hmem
    next => exact htunnels addr tunnel (List.mem_filter.mp hmem).1
    next => exact htunnels other tunnel hmem
  all_goals exact htunnels other tunnel hmem

private theorem Invariant.quiet {parse : X509Parser} {localId : SpiffeId}
    (h : Invariant parse localId trace s)
    (hconns : ∀ (j : Nat) (other : SocketAddr) (next : Pc),
      s'.conns[j]? = some (.routing other next) → s.conns[j]? = some (.routing other next))
    (htunnels : ∀ other, ∀ tunnel ∈ s'.pool.peers other, tunnel ∈ s.pool.peers other)
    (hreturn : ∀ j, NoReturn j out)
    (hout : ∀ before, ∀ o ∈ out, RelayAuthorized parse localId before o) :
    Invariant parse localId (trace ++ out) s' where
  conns j other next hj := (h.conns j other next (hconns j other next hj)).append (hreturn j)
  tunnels other tunnel hmem := h.tunnels other tunnel (htunnels other tunnel hmem)
  relays := h.relays.append fun before o after heq => hout _ o (by simp [heq])

private theorem conns_of_set {other : SocketAddr} {next : Pc}
    (hconn : ∀ addr pc, conn ≠ .routing addr pc)
    (hj : (s.conns.set i conn)[j]? = some (.routing other next)) :
    s.conns[j]? = some (.routing other next) :=
  Tasks.getElem?_of_set hj (hconn other next)

theorem Invariant.step (h : Invariant shared.parse proxy.localId trace s)
    (hcache : shared.identityCache.Sound shared.parse)
    (hchange : Change proxy shared s e shared' s' out) :
    Invariant shared.parse proxy.localId (trace ++ out) s' := by
  cases hchange with
  | refuse =>
      exact h.quiet (fun _ _ _ hj => hj) (fun _ _ hmem => hmem) (by simp [NoReturn])
        (by simp)
  | saturate =>
      exact h.quiet (fun _ _ _ hj => hj) (fun _ _ hmem => hmem) (by simp [NoReturn])
        (by simp [RelayAuthorized])
  | accept =>
      refine h.quiet (fun j other next hj => ?_) (fun _ _ hmem => hmem) (by simp [NoReturn])
        (by simp)
      rcases Tasks.getElem?_append_cases hj with ⟨-, heq⟩ | hold
      · cases heq
      · exact hold
  | start | begin | unresolved | leave | release =>
      exact h.quiet (fun _ _ _ hj => conns_of_set (by simp) hj) (fun _ _ hmem => hmem)
        (by simp [NoReturn]) (by simp [RelayAuthorized])
  | @enter e i target he hi addr =>
      refine ⟨fun j other next hj => ?_, h.tunnels, h.relays.snoc trivial⟩
      rcases Tasks.getElem?_set_cases hj with ⟨rfl, heq⟩ | ⟨-, hold⟩
      · cases heq
        exact justified_route proxy (Calling.start trace)
      · exact (h.conns j other next hold).append (by simp [NoReturn])
  | @move e i addr pc effect conn out he hi hmove =>
      have hpc := h.conns i addr pc hi
      refine ⟨fun j other next hj => ?_, hmove.tunnels hpc h.tunnels,
        hmove.relayAuthorized hpc h.relays⟩
      rcases Tasks.getElem?_set_cases hj with ⟨rfl, heq⟩ | ⟨hne, hold⟩
      · obtain rfl := hmove.routing_eq heq
        exact hmove.justified heq hcache (h.tunnels other) hpc
      · exact (h.conns j other next hold).append (hmove.noReturn_of_ne hne)
  | driverExit =>
      exact h.quiet (fun _ _ _ hj => hj) (fun _ _ hmem => hmem) (by simp [NoReturn])
        (by simp [RelayAuthorized])
  | driverEvict =>
      refine h.quiet (fun _ _ _ hj => hj) (fun other tunnel hmem => ?_) (by simp [NoReturn])
        (by simp [RelayAuthorized])
      simp only [MuxPool.evict, Function.update_apply] at hmem
      split at hmem
      next heq => exact heq ▸ (List.mem_filter.mp hmem).1
      next => exact hmem

theorem Invariant.initial (proxy : OutboundProxy) (parse : X509Parser) :
    Invariant parse proxy.localId [] proxy.initial where
  conns i addr pc hi := by simp [OutboundProxy.initial] at hi
  tunnels addr tunnel hmem := by simp [OutboundProxy.initial, MuxPool.new] at hmem
  relays := Preceded.nil

theorem sound_of_change (h : Invariant shared.parse proxy.localId trace s)
    (hcache : shared.identityCache.Sound shared.parse)
    (hchange : Change proxy shared s e shared' s' out) :
    shared'.parse = shared.parse ∧ shared'.identityCache.Sound shared.parse := by
  cases hchange with
  | @move e i addr pc effect conn out he hi hmove =>
      refine ⟨rfl, ?_⟩
      have hpc := h.conns i addr pc hi
      cases hmove
      case cache => exact hcache.insert hpc.2.2
      all_goals exact hcache
  | _ => exact ⟨rfl, hcache⟩

end Steps

end OutboundProxy

end Interlink
