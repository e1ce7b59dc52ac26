import Interlink.Proxy.Outbound

/-!
# What a step of the outbound proxy can do

The step function of the outbound proxy as relations with one constructor for each
branch.  Invariants are proved by cases on them, never by unfolding the step.
-/

namespace Interlink.OutboundProxy

open Interlink.Foundation

/-! ## Branches -/

def Event.task : Event → Option Nat
  | .run i | .discovered i _ | .handshaken i _ | .opened i _ | .relay i _ _
  | .relayEnd i _ => some i
  | _ => none

/-- The branches of a reaction, each with its guard. -/
inductive Move (proxy : OutboundProxy) (shared : Shared) (s : State) (i : Nat)
    (addr : SocketAddr) : Pc → Effect → Conn → List Observation → Prop
  | exhaust : Move proxy shared s i addr (.picking 0) .none
      (.routing addr (.returning .failed)) []
  | pick {attempts tunnel} (hpick : s.pool.pickUnderCap addr = some tunnel) :
      Move proxy shared s i addr (.picking (attempts + 1)) .none
        (.routing addr (.evaluating (.tunnel attempts tunnel))) [.picked i addr tunnel]
  | pickNone {attempts} (hpick : s.pool.pickUnderCap addr = none) :
      Move proxy shared s i addr (.picking (attempts + 1)) .none
        (.routing addr (.locking attempts)) []
  | lock {attempts} (hfree : s.pool.creating addr = none) :
      Move proxy shared s i addr (.locking attempts) .lock
        (.routing addr (.rechecking attempts)) []
  | recheck {attempts tunnel} (hpick : s.pool.pickUnderCap addr = some tunnel) :
      Move proxy shared s i addr (.rechecking attempts) .none
        (.routing addr (.unlocking (.evaluating (.tunnel attempts tunnel))))
        [.picked i addr tunnel]
  | recheckNone {attempts} (hpick : s.pool.pickUnderCap addr = none) :
      Move proxy shared s i addr (.rechecking attempts) .none
        (.routing addr (.checkingGrowth attempts)) []
  | grow {attempts} (hgrow : s.pool.canGrow addr = true) :
      Move proxy shared s i addr (.checkingGrowth attempts) .none
        (.routing addr (.dialing true)) []
  | full {attempts} (hfull : s.pool.canGrow addr = false) :
      Move proxy shared s i addr (.checkingGrowth attempts) .none
        (.routing addr (.unlocking (.fallingBack attempts))) []
  | fallBack {attempts tunnel} (hpick : s.pool.pickAny addr = some tunnel) :
      Move proxy shared s i addr (.fallingBack attempts) .none
        (.routing addr (.evaluating (.tunnel attempts tunnel))) [.picked i addr tunnel]
  | fallBackNone {attempts} (hpick : s.pool.pickAny addr = none) :
      Move proxy shared s i addr (.fallingBack attempts) .none
        (.routing addr (.picking attempts)) []
  | dial {locked} : Move proxy shared s i addr (.dialing locked) .none
      (.routing addr (.connecting locked)) [.dialed i addr]
  | handshake {locked} (handshake : Handshake) :
      Move proxy shared s i addr (.connecting locked) .session
        (.routing addr (.identifying locked (handshake.session s.sessions)))
        [.handshaken i addr (some (handshake.session s.sessions)),
          .metric (.handshakeKind handshake.resumed)]
  | handshakeError {locked} : Move proxy shared s i addr (.connecting locked) .none
      (.routing addr (leave locked (.returning .failed)))
      [.handshaken i addr none, .metric .handshakeError]
  | identify {locked session id}
      (hfound : extractIdentity shared.parse shared.identityCache session = .cached id) :
      Move proxy shared s i addr (.identifying locked session) .none
        (.routing addr (.evaluating (.stream locked ⟨session, id⟩))) [.metric .handshake]
  | parse {locked session leafDer id}
      (hfound : extractIdentity shared.parse shared.identityCache session = .parsed leafDer id) :
      Move proxy shared s i addr (.identifying locked session) .none
        (.routing addr (.caching locked leafDer ⟨session, id⟩)) []
  | identifyError {locked session error}
      (hfound : extractIdentity shared.parse shared.identityCache session = .failed error) :
      Move proxy shared s i addr (.identifying locked session) .none
        (.routing addr (leave locked (.returning .failed))) [.metric .handshakeError]
  | cache {locked leafDer tls} : Move proxy shared s i addr (.caching locked leafDer tls)
      (.cache leafDer tls.peerIdentity) (.routing addr (.evaluating (.stream locked tls)))
      [.metric .handshake]
  | scan {subject} (hscan : shared.policy.scanNamespace proxy.localId subject.peer = none) :
      Move proxy shared s i addr (.evaluating subject) .none
        (.routing addr (.evaluatingGlobal subject)) []
  | decideNamespace {subject decision}
      (hscan : shared.policy.scanNamespace proxy.localId subject.peer = some decision) :
      Move proxy shared s i addr (.evaluating subject) .none
        (.routing addr (decided subject decision))
        [.evaluated i proxy.localId subject.peer decision, .metric (.policy decision)]
  | decideGlobal {subject decision}
      (hscan : shared.policy.scanGlobal proxy.localId subject.peer = decision) :
      Move proxy shared s i addr (.evaluatingGlobal subject) .none
        (.routing addr (decided subject decision))
        [.evaluated i proxy.localId subject.peer decision, .metric (.policy decision)]
  | number {locked tls} : Move proxy shared s i addr (.numbering locked tls) .takeId
      (.routing addr (.pushing locked ⟨s.pool.nextId, tls.peerIdentity, tls.session⟩)) []
  | push {locked tunnel} : Move proxy shared s i addr (.pushing locked tunnel) (.push tunnel)
      (.routing addr (.spawning locked tunnel)) [.registered addr tunnel]
  | spawn {locked tunnel} : Move proxy shared s i addr (.spawning locked tunnel)
      (.spawn tunnel) (.routing addr (.reserving (.fresh locked) tunnel))
      [.metric .muxTunnelOpened]
  | reserve {origin tunnel} : Move proxy shared s i addr (.reserving origin tunnel)
      (.reserve tunnel.id) (.routing addr (.opening origin tunnel)) []
  | openPooled {attempts tunnel} :
      Move proxy shared s i addr (.opening (.pooled attempts) tunnel) .none
        (.routing addr (.returning (.muxStream tunnel))) []
  | openFresh {locked tunnel} :
      Move proxy shared s i addr (.opening (.fresh locked) tunnel) .none
        (.routing addr (leave locked (.returning (.muxStream tunnel)))) []
  | openError {origin tunnel} : Move proxy shared s i addr (.opening origin tunnel) .none
      (.routing addr (.unreserving origin tunnel)) [.openFailed i addr tunnel]
  | unreserve {origin tunnel} : Move proxy shared s i addr (.unreserving origin tunnel)
      (.unreserve tunnel.id) (.routing addr (.evicting origin tunnel)) []
  | evictPooled {attempts tunnel} :
      Move proxy shared s i addr (.evicting (.pooled attempts) tunnel) (.evict tunnel.id)
        (.routing addr (.picking attempts)) [.evicted addr tunnel.id]
  | evictFresh {locked tunnel} :
      Move proxy shared s i addr (.evicting (.fresh locked) tunnel) (.evict tunnel.id)
        (.routing addr (leave locked (.returning .failed))) [.evicted addr tunnel.id]
  | unlock {next} : Move proxy shared s i addr (.unlocking next) .unlock
      (.routing addr next) []
  | returnMux {tunnel} : Move proxy shared s i addr (.returning (.muxStream tunnel)) .none
      (.routing addr (.relaying (.muxStream tunnel)))
      [.routed i addr (.muxStream tunnel), .metric .muxStream]
  | returnLegacy {tls} : Move proxy shared s i addr (.returning (.legacy tls)) .none
      (.routing addr (.relaying (.legacy tls))) [.routed i addr (.legacy tls)]
  | returnDenied : Move proxy shared s i addr (.returning .denied) .none .leaving
      [.routed i addr .denied, .metric .connectionFailed]
  | returnFailed : Move proxy shared s i addr (.returning .failed) .none .leaving
      [.routed i addr .failed, .metric .connectionFailed]
  | relay {route} (direction : Direction) (data : List UInt8) :
      Move proxy shared s i addr (.relaying route) .none (.routing addr (.relaying route))
        [.relayed i route direction data]
  | relayEnd {route} (result : Option (Nat × Nat)) :
      Move proxy shared s i addr (.relaying route) .none (.routing addr (.dropping route))
        [.metric (recordRelayResult result)]
  | dropMux {tunnel} : Move proxy shared s i addr (.dropping (.muxStream tunnel))
      (.unreserve tunnel.id) .leaving []
  | dropOther {route} (hroute : ∀ tunnel, route ≠ .muxStream tunnel) :
      Move proxy shared s i addr (.dropping route) .none .leaving []

inductive Change (proxy : OutboundProxy) (shared : Shared) (s : State) :
    Event → Shared → State → List Observation → Prop
  | refuse (originalDst : Option SocketAddr) :
      Change proxy shared s (.accept originalDst) shared s []
  | saturate (originalDst : Option SocketAddr) :
      Change proxy shared s (.accept originalDst) shared s [.metric .saturationRejection]
  | accept {originalDst target} (hpermit : 0 < s.permits) :
      Change proxy shared s (.accept originalDst) shared
        { s with permits := s.permits - 1, conns := s.conns ++ [.accepted target] } []
  | start {i target} (hi : s.conns[i]? = some (.accepted target)) :
      Change proxy shared s (.run i) shared
        { s.goto i (.spawned target) with
          activeConnections := fetchAdd s.activeConnections } []
  | begin {i target} (hi : s.conns[i]? = some (.spawned target)) :
      Change proxy shared s (.run i) shared (s.goto i (.resolving target))
        [.metric .connectionStart]
  | enter {e i target} (he : e.task = some i) (hi : s.conns[i]? = some (.resolving target))
      (addr : SocketAddr) :
      Change proxy shared s e shared (s.goto i (.routing addr proxy.route))
        [.routeCalled i addr]
  | unresolved {e i target} (he : e.task = some i)
      (hi : s.conns[i]? = some (.resolving target)) :
      Change proxy shared s e shared (s.goto i .leaving) [.metric .connectionFailed]
  | move {e i addr pc effect conn out} (he : e.task = some i)
      (hi : s.conns[i]? = some (.routing addr pc))
      (hmove : Move proxy shared s i addr pc effect conn out) :
      Change proxy shared s e (Shared.perform shared effect) (s.perform i addr effect conn) out
  | leave {i} (hi : s.conns[i]? = some .leaving) :
      Change proxy shared s (.run i) shared
        { s.goto i .releasing with activeConnections := fetchSub s.activeConnections } []
  | release {i} (hi : s.conns[i]? = some .releasing) :
      Change proxy shared s (.run i) shared
        { s.goto i .finished with permits := s.permits + 1 } []
  | driverExit {d addr tunnel} (hd : s.drivers[d]? = some (.running addr tunnel)) :
      Change proxy shared s (.driverExit d) shared
        { s with drivers := s.drivers.set d (.exited addr tunnel) }
        [.driverExited addr tunnel]
  | driverEvict {d addr tunnel} (hd : s.drivers[d]? = some (.exited addr tunnel)) :
      Change proxy shared s (.driverEvict d) shared
        { s with drivers := s.drivers.set d .ended, pool := s.pool.evict addr tunnel.id }
        [.evicted addr tunnel.id]

/-! ## Every step is one of them -/

variable {proxy : OutboundProxy} {shared shared' : Shared} {s s' : State} {i : Nat}
  {addr : SocketAddr} {pc : Pc} {effect : Effect} {conn : Conn} {out : List Observation}

theorem decided_cases {P : Subject → Pc → Prop}
    (hreserve : ∀ attempts tunnel,
      P (.tunnel attempts tunnel) (.reserving (.pooled attempts) tunnel))
    (hrefuse : ∀ attempts tunnel, P (.tunnel attempts tunnel) (.returning .denied))
    (hnumber : ∀ locked tls, P (.stream locked tls) (.numbering locked tls))
    (hlegacy : ∀ locked tls, P (.stream locked tls) (leave locked (.returning (.legacy tls))))
    (hdeny : ∀ locked tls, P (.stream locked tls) (leave locked (.returning .denied)))
    (subject : Subject) (decision : Decision) : P subject (decided subject decision) := by
  cases subject with
  | tunnel attempts tunnel =>
      cases decision with
      | allow => exact hreserve attempts tunnel
      | deny reason => exact hrefuse attempts tunnel
  | stream locked tls =>
      cases decision with
      | allow =>
          simp only [decided]
          split
          next => exact hnumber locked tls
          next => exact hlegacy locked tls
      | deny reason => exact hdeny locked tls

theorem Move.routing_eq (h : Move proxy shared s i addr pc effect conn out)
    {other : SocketAddr} {next : Pc} (hconn : conn = .routing other next) : other = addr := by
  cases h <;> cases hconn <;> rfl

theorem advance_move (h : advance proxy shared s i addr pc = some (effect, conn, out)) :
    Move proxy shared s i addr pc effect conn out := by
  cases pc with
  | picking attempts =>
      cases attempts with
      | zero =>
          cases h
          exact .exhaust
      | succ attempts =>
          simp only [advance] at h
          split at h
          next tunnel hpick =>
            cases h
            exact .pick hpick
          next hpick =>
            cases h
            exact .pickNone hpick
  | locking attempts =>
      simp only [advance] at h
      split at h
      next hfree =>
        cases h
        exact .lock hfree
      next => cases h
  | rechecking attempts =>
      simp only [advance] at h
      split at h
      next tunnel hpick =>
        cases h
        exact .recheck hpick
      next hpick =>
        cases h
        exact .recheckNone hpick
  | checkingGrowth attempts =>
      simp only [advance] at h
      split at h
      next hgrow =>
        cases h
        exact .grow hgrow
      next hfull =>
        cases h
        exact .full (by simpa using hfull)
  | fallingBack attempts =>
      simp only [advance] at h
      split at h
      next tunnel hpick =>
        cases h
        exact .fallBack hpick
      next hpick =>
        cases h
        exact .fallBackNone hpick
  | dialing locked =>
      cases h
      exact .dial
  | connecting locked => cases h
  | identifying locked session =>
      simp only [advance] at h
      split at h
      next id hfound =>
        cases h
        exact .identify hfound
      next leafDer id hfound =>
        cases h
        exact .parse hfound
      next error hfound =>
        cases h
        exact .identifyError hfound
  | caching locked leafDer tls =>
      cases h
      exact .cache
  | evaluating subject =>
      simp only [advance] at h
      split at h
      next decision hscan =>
        cases h
        exact .decideNamespace hscan
      next hscan =>
        cases h
        exact .scan hscan
  | evaluatingGlobal subject =>
      cases h
      exact .decideGlobal rfl
  | numbering locked tls =>
      cases h
      exact .number
  | pushing locked tunnel =>
      cases h
      exact .push
  | spawning locked tunnel =>
      cases h
      exact .spawn
  | reserving origin tunnel =>
      cases h
      exact .reserve
  | opening origin tunnel => cases h
  | unreserving origin tunnel =>
      cases h
      exact .unreserve
  | evicting origin tunnel =>
      cases origin with
      | pooled attempts =>
          cases h
          exact .evictPooled
      | fresh locked =>
          cases h
          exact .evictFresh
  | unlocking next =>
      cases h
      exact .unlock
  | returning route =>
      cases route with
      | muxStream tunnel =>
          cases h
          exact .returnMux
      | legacy tls =>
          cases h
          exact .returnLegacy
      | denied =>
          cases h
          exact .returnDenied
      | failed =>
          cases h
          exact .returnFailed
  | relaying route => cases h
  | dropping route =>
      cases route with
      | muxStream tunnel =>
          cases h
          exact .dropMux
      | legacy tls =>
          cases h
          exact .dropOther (by simp)
      | denied =>
          cases h
          exact .dropOther (by simp)
      | failed =>
          cases h
          exact .dropOther (by simp)

theorem handshaken_move {result : Except InterlinkError Handshake}
    (h : handshaken s i addr result pc = some (effect, conn, out)) :
    Move proxy shared s i addr pc effect conn out := by
  cases pc <;> cases result <;> cases h
  · exact .handshakeError
  · exact .handshake _

theorem opened_move {ok : Bool} (h : opened i addr ok pc = some (effect, conn, out)) :
    Move proxy shared s i addr pc effect conn out := by
  cases pc with
  | opening origin tunnel =>
      cases ok with
      | true =>
          cases origin with
          | pooled attempts =>
              cases h
              exact .openPooled
          | fresh locked =>
              cases h
              exact .openFresh
      | false =>
          cases h
          exact .openError
  | _ => cases h

theorem relay_move {direction : Direction} {data : List UInt8}
    (h : relay i addr direction data pc = some (effect, conn, out)) :
    Move proxy shared s i addr pc effect conn out := by
  cases pc <;> cases h
  exact .relay direction data

theorem relayEnd_move {result : Option (Nat × Nat)}
    (h : relayEnd addr result pc = some (effect, conn, out)) :
    Move proxy shared s i addr pc effect conn out := by
  cases pc <;> cases h
  exact .relayEnd result

private theorem performed_change {e : Event} {reaction : Reaction} (he : e.task = some i)
    (hi : s.conns[i]? = some (.routing addr pc))
    (hmove : ∀ {effect conn out}, reaction = some (effect, conn, out) →
      Move proxy shared s i addr pc effect conn out)
    (h : performed shared s i addr reaction = some (shared', s', out)) :
    Change proxy shared s e shared' s' out := by
  obtain ⟨⟨effect, conn, out⟩, hreaction, heq⟩ := Option.map_eq_some_iff.mp h
  cases heq
  exact .move he hi (hmove hreaction)

private theorem resolved_change {e : Event} {target : UpstreamTarget}
    {result : Except InterlinkError SocketAddr} (he : e.task = some i)
    (hi : s.conns[i]? = some (.resolving target))
    (h : some (shared, resolved proxy s i result) = some (shared', s', out)) :
    Change proxy shared s e shared' s' out := by
  cases result with
  | ok addr =>
      cases h
      exact .enter he hi addr
  | error error =>
      cases h
      exact .unresolved he hi

private theorem runConn_change (hi : s.conns[i]? = some conn)
    (h : runConn proxy shared s i conn = some (shared', s', out)) :
    Change proxy shared s (.run i) shared' s' out := by
  cases conn with
  | accepted target =>
      cases h
      exact .start hi
  | spawned target =>
      cases h
      exact .begin hi
  | resolving target =>
      simp only [runConn] at h
      split at h
      next => exact resolved_change rfl hi h
      next => cases h
  | routing addr pc => exact performed_change rfl hi advance_move h
  | leaving =>
      cases h
      exact .leave hi
  | releasing =>
      cases h
      exact .release hi
  | finished => cases h

private theorem respond_change {e : Event} {react : SocketAddr → Pc → Reaction}
    (he : e.task = some i) (hi : s.conns[i]? = some conn)
    (hmove : ∀ {addr pc effect conn out}, react addr pc = some (effect, conn, out) →
      Move proxy shared s i addr pc effect conn out)
    (h : respond shared s i react conn = some (shared', s', out)) :
    Change proxy shared s e shared' s' out := by
  cases conn with
  | routing addr pc => exact performed_change he hi hmove h
  | _ => cases h

private theorem accept_change {originalDst : Option SocketAddr}
    (h : some (shared, accept proxy s originalDst) = some (shared', s', out)) :
    Change proxy shared s (.accept originalDst) shared' s' out := by
  simp only [accept] at h
  split at h
  next =>
    cases h
    exact .refuse originalDst
  next target _ =>
    split at h
    next hpermit =>
      cases h
      exact .accept hpermit
    next =>
      cases h
      exact .saturate originalDst

theorem step_change {e : Event} (h : step proxy shared s e = some (shared', s', out)) :
    Change proxy shared s e shared' s' out := by
  cases e with
  | accept originalDst => exact accept_change h
  | run i =>
      obtain ⟨conn, hi, hrun⟩ := Option.bind_eq_some_iff.mp h
      exact runConn_change hi hrun
  | discovered i result =>
      obtain ⟨conn, hi, hdiscover⟩ := Option.bind_eq_some_iff.mp h
      cases conn with
      | resolving target =>
          simp only [discover] at hdiscover
          split at hdiscover
          next => exact resolved_change rfl hi hdiscover
          next => cases hdiscover
      | _ => cases hdiscover
  | handshaken i result =>
      obtain ⟨conn, hi, hrespond⟩ := Option.bind_eq_some_iff.mp h
      exact respond_change rfl hi handshaken_move hrespond
  | opened i ok =>
      obtain ⟨conn, hi, hrespond⟩ := Option.bind_eq_some_iff.mp h
      exact respond_change rfl hi opened_move hrespond
  | relay i direction data =>
      obtain ⟨conn, hi, hrespond⟩ := Option.bind_eq_some_iff.mp h
      exact respond_change rfl hi relay_move hrespond
  | relayEnd i result =>
      obtain ⟨conn, hi, hrespond⟩ := Option.bind_eq_some_iff.mp h
      exact respond_change rfl hi relayEnd_move hrespond
  | driverExit d =>
      obtain ⟨driver, hd, hexit⟩ := Option.bind_eq_some_iff.mp h
      cases driver <;> cases hexit
      exact .driverExit hd
  | driverEvict d =>
      obtain ⟨driver, hd, hevict⟩ := Option.bind_eq_some_iff.mp h
      cases driver <;> cases hevict
      exact .driverEvict hd

theorem Change.parse_eq {e : Event} (h : Change proxy shared s e shared' s' out) :
    shared'.parse = shared.parse := by
  cases h <;> rfl

/-! ## Steps as the pool sees them -/

/--
A step outside `route` and the relay: the pool, the drivers and the connections in
`route` stay as they are.
-/
structure Quiet (s s' : State) (out : List Observation) : Prop where
  conns : ∀ (j : Nat) (addr : SocketAddr) (pc : Pc),
    s'.conns[j]? = some (.routing addr pc) ↔ s.conns[j]? = some (.routing addr pc)
  count : ∀ p : Conn → Bool, (∀ conn, (∀ addr pc, conn ≠ .routing addr pc) → p conn = false) →
    s'.conns.countP p = s.conns.countP p
  pool : s'.pool = s.pool
  drivers : s'.drivers = s.drivers
  out : ∀ o ∈ out, ∃ metric, o = .metric metric

inductive View (proxy : OutboundProxy) (shared : Shared) (s : State) :
    Event → State → List Observation → Prop
  | quiet {e : Event} {s' : State} {out : List Observation} (hquiet : Quiet s s' out) :
      View proxy shared s e s' out
  | enter {e : Event} {i : Nat} {target} (he : e.task = some i)
      (hi : s.conns[i]? = some (.resolving target)) (addr : SocketAddr) :
      View proxy shared s e (s.goto i (.routing addr proxy.route)) [.routeCalled i addr]
  | move {e : Event} {i : Nat} {addr : SocketAddr} {pc : Pc} {effect : Effect} {conn : Conn}
      {out : List Observation} (he : e.task = some i)
      (hi : s.conns[i]? = some (.routing addr pc))
      (hmove : Move proxy shared s i addr pc effect conn out) :
      View proxy shared s e (s.perform i addr effect conn) out
  | driverExit {d : Nat} {addr : SocketAddr} {tunnel}
      (hd : s.drivers[d]? = some (.running addr tunnel)) :
      View proxy shared s (.driverExit d)
        { s with drivers := s.drivers.set d (.exited addr tunnel) }
        [.driverExited addr tunnel]
  | driverEvict {d : Nat} {addr : SocketAddr} {tunnel}
      (hd : s.drivers[d]? = some (.exited addr tunnel)) :
      View proxy shared s (.driverEvict d)
        { s with drivers := s.drivers.set d .ended, pool := s.pool.evict addr tunnel.id }
        [.evicted addr tunnel.id]

private theorem Quiet.refl (hout : ∀ o ∈ out, ∃ metric, o = .metric metric) :
    Quiet s s out :=
  ⟨fun _ _ _ => .rfl, fun _ _ => rfl, rfl, rfl, hout⟩

private theorem Quiet.set {old : Conn} (hi : s.conns[i]? = some old)
    (hold : ∀ addr pc, old ≠ .routing addr pc) (hconn : ∀ addr pc, conn ≠ .routing addr pc)
    (hconns : s'.conns = s.conns.set i conn) (hpool : s'.pool = s.pool)
    (hdrivers : s'.drivers = s.drivers) (hout : ∀ o ∈ out, ∃ metric, o = .metric metric) :
    Quiet s s' out where
  conns j addr pc := by
    rw [hconns]
    constructor
    · exact fun hj => Tasks.getElem?_of_set hj (hconn addr pc)
    · exact fun hj => Tasks.getElem?_set_of_ne hi hj (hold addr pc) conn
  count p hp := by
    rw [hconns]
    exact Tasks.countP_set_of_eq hi (by rw [hp conn hconn, hp old hold])
  pool := hpool
  drivers := hdrivers
  out := hout

private theorem Quiet.accept (target : UpstreamTarget) :
    Quiet s { s with permits := s.permits - 1, conns := s.conns ++ [.accepted target] } [] where
  conns j addr pc := by
    constructor
    · intro hj
      rcases Tasks.getElem?_append_cases hj with ⟨-, heq⟩ | hj
      · cases heq
      · exact hj
    · intro hj
      exact Tasks.getElem?_append_of hj _
  count p hp := by simp [hp]
  pool := rfl
  drivers := rfl
  out := by simp

theorem Change.view {e : Event} (h : Change proxy shared s e shared' s' out) :
    View proxy shared s e s' out := by
  cases h with
  | refuse => exact .quiet (.refl (by simp))
  | saturate => exact .quiet (.refl (by simp))
  | accept => exact .quiet (.accept _)
  | start hi => exact .quiet (.set hi (by simp) (by simp) rfl rfl rfl (by simp))
  | begin hi => exact .quiet (.set hi (by simp) (by simp) rfl rfl rfl (by simp))
  | enter he hi addr => exact .enter he hi addr
  | unresolved _ hi => exact .quiet (.set hi (by simp) (by simp) rfl rfl rfl (by simp))
  | move he hi hmove => exact .move he hi hmove
  | leave hi => exact .quiet (.set hi (by simp) (by simp) rfl rfl rfl (by simp))
  | release hi => exact .quiet (.set hi (by simp) (by simp) rfl rfl rfl (by simp))
  | driverExit hd => exact .driverExit hd
  | driverEvict hd => exact .driverEvict hd

end Interlink.OutboundProxy
