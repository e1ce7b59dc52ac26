import Interlink.Proxy.Inbound

/-!
# What a step of the inbound proxy can do

The step function of the inbound proxy as relations with one constructor for each
branch.  Invariants are proved by cases on them, never by unfolding the step.
-/

namespace Interlink.TcpProxy

open Interlink.Foundation

/-! ## Branches -/

/-- The branches of a reaction of a connection, each with its guard. -/
inductive Move (proxy : TcpProxy) (shared : Shared) (s : State) (i : Nat)
    (addr : SocketAddr) : Pc → Effect → Conn → List Observation → Prop
  | handshake {dialed} (handshake : Handshake) :
      Move proxy shared s i addr (.joining .handshaking dialed) .session
        (.handling addr (.joining (.identifying (handshake.session s.sessions)) dialed))
        [.metric (.handshakeKind handshake.resumed)]
  | handshakeError {dialed} : Move proxy shared s i addr (.joining .handshaking dialed) .none
      (.handling addr (.joining (.done none) dialed)) []
  | identify {session dialed id}
      (hfound : extractIdentity shared.parse shared.identityCache session = .cached id) :
      Move proxy shared s i addr (.joining (.identifying session) dialed) .none
        (.handling addr (.joining (.done (some ⟨session, id⟩)) dialed)) []
  | parse {session dialed leafDer id}
      (hfound : extractIdentity shared.parse shared.identityCache session = .parsed leafDer id) :
      Move proxy shared s i addr (.joining (.identifying session) dialed) .none
        (.handling addr (.joining (.caching leafDer ⟨session, id⟩) dialed)) []
  | identifyError {session dialed} :
      Move proxy shared s i addr (.joining (.identifying session) dialed) .none
        (.handling addr (.joining (.done none) dialed)) []
  | cache {leafDer tls dialed} :
      Move proxy shared s i addr (.joining (.caching leafDer tls) dialed)
        (.cache leafDer tls.peerIdentity)
        (.handling addr (.joining (.done (some tls)) dialed)) []
  | dial {accepting} (ok : Bool) :
      Move proxy shared s i addr (.joining accepting none) .none
        (.handling addr (.joining accepting (some ok))) []
  | joined {tls} : Move proxy shared s i addr (.joining (.done (some tls)) (some true)) .none
      (.handling addr (.evaluating tls)) [.metric .handshake]
  | acceptFailed {ok} : Move proxy shared s i addr (.joining (.done none) (some ok)) .none
      .leaving [.metric .handshakeError, .metric .connectionFailed]
  | dialFailed {tls} : Move proxy shared s i addr (.joining (.done (some tls)) (some false))
      .none .leaving [.metric .handshake, .metric .connectionFailed]
  | scan {tls} (hscan : shared.policy.scanNamespace tls.peerIdentity proxy.localId = none) :
      Move proxy shared s i addr (.evaluating tls) .none
        (.handling addr (.evaluatingGlobal tls)) []
  | decideNamespace {tls decision}
      (hscan : shared.policy.scanNamespace tls.peerIdentity proxy.localId = some decision) :
      Move proxy shared s i addr (.evaluating tls) .none (decided addr tls decision).1
        ([.evaluated i tls.peerIdentity proxy.localId decision,
          .metric (.policy decision)] ++ (decided addr tls decision).2)
  | decideGlobal {tls decision}
      (hscan : shared.policy.scanGlobal tls.peerIdentity proxy.localId = decision) :
      Move proxy shared s i addr (.evaluatingGlobal tls) .none (decided addr tls decision).1
        ([.evaluated i tls.peerIdentity proxy.localId decision,
          .metric (.policy decision)] ++ (decided addr tls decision).2)
  | read {tls data} : Move proxy shared s i addr (.detecting tls) .none
      (.handling addr (.forwarding tls data)) []
  | readError {tls} : Move proxy shared s i addr (.detecting tls) .none .leaving
      [.metric .connectionFailed]
  | write {tls data} : Move proxy shared s i addr (.forwarding tls data) .none
      (.handling addr (.relaying tls)) [.relayed i none tls .toUpstream data]
  | writeError {tls data} (delivered : Nat) :
      Move proxy shared s i addr (.forwarding tls data) .none .leaving
        [.relayed i none tls .toUpstream (data.take delivered), .metric .connectionFailed]
  | relay {tls} (direction : Direction) (data : List UInt8) :
      Move proxy shared s i addr (.relaying tls) .none (.handling addr (.relaying tls))
        [.relayed i none tls direction data]
  | relayEnd {tls} (result : Option (Nat × Nat)) :
      Move proxy shared s i addr (.relaying tls) .none .leaving
        [.metric (recordRelayResult result)]
  | acceptStream {tls} : Move proxy shared s i addr (.serving tls) (.spawn tls)
      (.handling addr (.serving tls))
      [.streamAccepted i s.streams.length tls, .metric .muxStream]
  | closeTunnel {tls} : Move proxy shared s i addr (.serving tls) .none .leaving
      [.metric .tunnelClosed]

inductive Change (proxy : TcpProxy) (shared : Shared) (s : State) :
    Event → Shared → State → List Observation → Prop
  | refuse (originalDst : Option SocketAddr) :
      Change proxy shared s (.accept originalDst) shared s []
  | saturate (originalDst : Option SocketAddr) :
      Change proxy shared s (.accept originalDst) shared s [.metric .saturationRejection]
  | accept {originalDst target} (hpermit : 0 < s.permits) :
      Change proxy shared s (.accept originalDst) shared
        { s with permits := s.permits - 1, conns := s.conns ++ [.accepted target] } []
  | start {i target} (hi : s.conns[i]? = some (.accepted target)) :
      Change proxy shared s (.run i) shared
        { s.goto i (.spawned target) with
          activeConnections := fetchAdd s.activeConnections } []
  | begin {i target} (hi : s.conns[i]? = some (.spawned target)) :
      Change proxy shared s (.run i) shared (s.goto i (.resolving target))
        [.metric .connectionStart]
  | enter {e i target} (hi : s.conns[i]? = some (.resolving target)) (addr : SocketAddr) :
      Change proxy shared s e shared
        (s.goto i (.handling addr (.joining .handshaking none))) []
  | unresolved {e i target} (hi : s.conns[i]? = some (.resolving target)) :
      Change proxy shared s e shared (s.goto i .leaving) [.metric .connectionFailed]
  | move {e i addr pc effect conn out} (hi : s.conns[i]? = some (.handling addr pc))
      (hmove : Move proxy shared s i addr pc effect conn out) :
      Change proxy shared s e (Shared.perform shared effect) (s.perform i addr effect conn) out
  | leave {i} (hi : s.conns[i]? = some .leaving) :
      Change proxy shared s (.run i) shared
        { s.goto i .releasing with activeConnections := fetchSub s.activeConnections } []
  | release {i} (hi : s.conns[i]? = some .releasing) :
      Change proxy shared s (.run i) shared
        { s.goto i .finished with permits := s.permits + 1 } []
  | streamStart {k stream} (hk : s.streams[k]? = some stream) (hpc : stream.pc = .spawned) :
      Change proxy shared s (.runStream k) shared (s.gotoStream k stream .dialing)
        [.metric .connectionStart]
  | streamDial {k stream} (hk : s.streams[k]? = some stream) (hpc : stream.pc = .dialing) :
      Change proxy shared s (.streamDialed k true) shared (s.gotoStream k stream .relaying) []
  | streamDialError {k stream} (hk : s.streams[k]? = some stream)
      (hpc : stream.pc = .dialing) :
      Change proxy shared s (.streamDialed k false) shared
        (s.gotoStream k stream .finished) [.metric .connectionFailed]
  | streamEnd {k stream} (hk : s.streams[k]? = some stream) (hpc : stream.pc = .relaying)
      (result : Option (Nat × Nat)) :
      Change proxy shared s (.streamEnd k result) shared (s.gotoStream k stream .finished)
        [.metric (recordRelayResult result)]
  | streamRelay {k stream} (hk : s.streams[k]? = some stream) (hpc : stream.pc = .relaying)
      (direction : Direction) (data : List UInt8) :
      Change proxy shared s (.streamRelay k direction data) shared s
        [.relayed stream.conn (some k) stream.tls direction data]

/-! ## Every step is one of them -/

variable {proxy : TcpProxy} {shared shared' : Shared} {s s' : State} {i : Nat}
  {addr : SocketAddr} {pc : Pc} {effect : Effect} {conn : Conn} {out : List Observation}

theorem advance_move (h : advance proxy shared i addr pc = some (effect, conn, out)) :
    Move proxy shared s i addr pc effect conn out := by
  cases pc with
  | joining accepting dialed =>
      cases accepting with
      | handshaking => cases h
      | identifying session =>
          simp only [advance] at h
          split at h
          next id hfound =>
            cases h
            exact .identify hfound
          next leafDer id hfound =>
            cases h
            exact .parse hfound
          next =>
            cases h
            exact .identifyError
      | caching leafDer tls =>
          cases h
          exact .cache
      | done tls =>
          cases dialed with
          | none => cases h
          | some ok =>
              cases tls with
              | none =>
                  cases h
                  exact .acceptFailed
              | some tls =>
                  cases ok with
                  | false =>
                      cases h
                      exact .dialFailed
                  | true =>
                      cases h
                      exact .joined
  | evaluating tls =>
      simp only [advance] at h
      split at h
      next decision hscan =>
        cases h
        exact .decideNamespace hscan
      next hscan =>
        cases h
        exact .scan hscan
  | evaluatingGlobal tls =>
      cases h
      exact .decideGlobal rfl
  | serving tls => cases h
  | detecting tls => cases h
  | forwarding tls data => cases h
  | relaying tls => cases h

theorem handshaken_move {result : Except InterlinkError Handshake}
    (h : handshaken s addr result pc = some (effect, conn, out)) :
    Move proxy shared s i addr pc effect conn out := by
  cases pc with
  | joining accepting dialed =>
      cases accepting with
      | handshaking =>
          cases result with
          | ok handshake =>
              cases h
              exact .handshake handshake
          | error error =>
              cases h
              exact .handshakeError
      | _ => cases h
  | _ => cases h

theorem dialed_move {ok : Bool} (h : dialed addr ok pc = some (effect, conn, out)) :
    Move proxy shared s i addr pc effect conn out := by
  cases pc with
  | joining accepting dialed =>
      cases dialed <;> cases h
      exact .dial ok
  | _ => cases h

theorem read_move {data : Option (List UInt8)}
    (h : read addr data pc = some (effect, conn, out)) :
    Move proxy shared s i addr pc effect conn out := by
  cases pc with
  | detecting tls =>
      cases data with
      | none =>
          cases h
          exact .readError
      | some data =>
          cases data with
          | nil =>
              cases h
              exact .readError
          | cons byte data =>
              cases h
              exact .read
  | _ =>
      cases data with
      | none => cases h
      | some data => cases data <;> cases h

theorem written_move {delivered : Nat} {ok : Bool}
    (h : written i addr delivered ok pc = some (effect, conn, out)) :
    Move proxy shared s i addr pc effect conn out := by
  cases pc with
  | forwarding tls data =>
      cases ok with
      | true =>
          cases h
          exact .write
      | false =>
          cases h
          exact .writeError delivered
  | _ => cases h

theorem relay_move {direction : Direction} {data : List UInt8}
    (h : relay i addr direction data pc = some (effect, conn, out)) :
    Move proxy shared s i addr pc effect conn out := by
  cases pc <;> cases h
  exact .relay direction data

theorem relayEnd_move {result : Option (Nat × Nat)}
    (h : relayEnd result pc = some (effect, conn, out)) :
    Move proxy shared s i addr pc effect conn out := by
  cases pc <;> cases h
  exact .relayEnd result

theorem acceptStream_move (h : acceptStream s i addr pc = some (effect, conn, out)) :
    Move proxy shared s i addr pc effect conn out := by
  cases pc <;> cases h
  exact .acceptStream

theorem closeTunnel_move (h : closeTunnel pc = some (effect, conn, out)) :
    Move proxy shared s i addr pc effect conn out := by
  cases pc <;> cases h
  exact .closeTunnel

private theorem performed_change {e : Event} {reaction : Reaction}
    (hi : s.conns[i]? = some (.handling addr pc))
    (hmove : ∀ {effect conn out}, reaction = some (effect, conn, out) →
      Move proxy shared s i addr pc effect conn out)
    (h : performed shared s i addr reaction = some (shared', s', out)) :
    Change proxy shared s e shared' s' out := by
  obtain ⟨⟨effect, conn, out⟩, hreaction, heq⟩ := Option.map_eq_some_iff.mp h
  cases heq
  exact .move hi (hmove hreaction)

private theorem resolved_change {e : Event} {target : UpstreamTarget}
    {result : Except InterlinkError SocketAddr}
    (hi : s.conns[i]? = some (.resolving target))
    (h : some (shared, resolved s i result) = some (shared', s', out)) :
    Change proxy shared s e shared' s' out := by
  cases result with
  | ok addr =>
      cases h
      exact .enter hi addr
  | error error =>
      cases h
      exact .unresolved hi

private theorem runConn_change (hi : s.conns[i]? = some conn)
    (h : runConn proxy shared s i conn = some (shared', s', out)) :
    Change proxy shared s (.run i) shared' s' out := by
  cases conn with
  | accepted target =>
      cases h
      exact .start hi
  | spawned target =>
      cases h
      exact .begin hi
  | resolving target =>
      simp only [runConn] at h
      split at h
      next => exact resolved_change hi h
      next => cases h
  | handling addr pc => exact performed_change hi advance_move h
  | leaving =>
      cases h
      exact .leave hi
  | releasing =>
      cases h
      exact .release hi
  | finished => cases h

private theorem respond_change {e : Event} {react : SocketAddr → Pc → Reaction}
    (hi : s.conns[i]? = some conn)
    (hmove : ∀ {addr pc effect conn out}, react addr pc = some (effect, conn, out) →
      Move proxy shared s i addr pc effect conn out)
    (h : respond shared s i react conn = some (shared', s', out)) :
    Change proxy shared s e shared' s' out := by
  cases conn with
  | handling addr pc => exact performed_change hi hmove h
  | _ => cases h

private theorem accept_change {originalDst : Option SocketAddr}
    (h : some (shared, accept proxy s originalDst) = some (shared', s', out)) :
    Change proxy shared s (.accept originalDst) shared' s' out := by
  simp only [accept] at h
  split at h
  next =>
    cases h
    exact .refuse originalDst
  next target _ =>
    split at h
    next hpermit =>
      cases h
      exact .accept hpermit
    next =>
      cases h
      exact .saturate originalDst

theorem step_change {e : Event} (h : step proxy shared s e = some (shared', s', out)) :
    Change proxy shared s e shared' s' out := by
  cases e with
  | accept originalDst => exact accept_change h
  | run i =>
      obtain ⟨conn, hi, hrun⟩ := Option.bind_eq_some_iff.mp h
      exact runConn_change hi hrun
  | discovered i result =>
      obtain ⟨conn, hi, hdiscover⟩ := Option.bind_eq_some_iff.mp h
      cases conn with
      | resolving target =>
          simp only [discover] at hdiscover
          split at hdiscover
          next => exact resolved_change hi hdiscover
          next => cases hdiscover
      | _ => cases hdiscover
  | handshaken i result =>
      obtain ⟨conn, hi, hrespond⟩ := Option.bind_eq_some_iff.mp h
      exact respond_change hi handshaken_move hrespond
  | dialed i ok =>
      obtain ⟨conn, hi, hrespond⟩ := Option.bind_eq_some_iff.mp h
      exact respond_change hi dialed_move hrespond
  | read i data =>
      obtain ⟨conn, hi, hrespond⟩ := Option.bind_eq_some_iff.mp h
      exact respond_change hi read_move hrespond
  | written i delivered ok =>
      obtain ⟨conn, hi, hrespond⟩ := Option.bind_eq_some_iff.mp h
      exact respond_change hi written_move hrespond
  | relay i direction data =>
      obtain ⟨conn, hi, hrespond⟩ := Option.bind_eq_some_iff.mp h
      exact respond_change hi relay_move hrespond
  | relayEnd i result =>
      obtain ⟨conn, hi, hrespond⟩ := Option.bind_eq_some_iff.mp h
      exact respond_change hi relayEnd_move hrespond
  | acceptStream i =>
      obtain ⟨conn, hi, hrespond⟩ := Option.bind_eq_some_iff.mp h
      exact respond_change hi acceptStream_move hrespond
  | closeTunnel i =>
      obtain ⟨conn, hi, hrespond⟩ := Option.bind_eq_some_iff.mp h
      exact respond_change hi closeTunnel_move hrespond
  | runStream k =>
      obtain ⟨stream, hk, hrun⟩ := Option.bind_eq_some_iff.mp h
      unfold runStream at hrun
      split at hrun <;> cases hrun
      next hpc => exact .streamStart hk hpc
  | streamDialed k ok =>
      obtain ⟨stream, hk, hdialed⟩ := Option.bind_eq_some_iff.mp h
      unfold streamDialed at hdialed
      split at hdialed
      next hpc =>
        cases ok with
        | true =>
            cases hdialed
            exact .streamDial hk hpc
        | false =>
            cases hdialed
            exact .streamDialError hk hpc
      next => cases hdialed
  | streamRelay k direction data =>
      obtain ⟨stream, hk, hrelay⟩ := Option.bind_eq_some_iff.mp h
      unfold streamRelay at hrelay
      split at hrelay <;> cases hrelay
      next hpc => exact .streamRelay hk hpc direction data
  | streamEnd k result =>
      obtain ⟨stream, hk, hend⟩ := Option.bind_eq_some_iff.mp h
      unfold streamEnd at hend
      split at hend <;> cases hend
      next hpc => exact .streamEnd hk hpc result

theorem Change.parse_eq {e : Event} (h : Change proxy shared s e shared' s' out) :
    shared'.parse = shared.parse := by
  cases h <;> rfl

end Interlink.TcpProxy
