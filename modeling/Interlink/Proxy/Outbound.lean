import Interlink.Foundation.Tasks
import Interlink.Foundation.Transition
import Interlink.Proxy.Shared

/-!
# The outbound proxy

Every accepted connection is a task.  `route` is modelled statement by statement:
a task stands between two operations on shared memory, and a step performs one of
them and moves the task.  What the environment decides (the result of a lookup, a
handshake, a stream open or a relay) is in the events.
-/

namespace Interlink

open Interlink.Foundation

structure OutboundProxy where
  maxConnections : Nat
  defaultUpstream : Option UpstreamTarget
  muxEnabled : Bool
  listenPort : UInt16
  hasDiscovery : Bool
  localId : SpiffeId

namespace OutboundProxy

/-! ## Where a connection stands -/

inductive Route where
  | muxStream (tunnel : Tunnel)
  | legacy (tls : TlsStream)
  | denied
  | failed
  deriving DecidableEq

/--
Where a stream is opened from: `try_tunnel_stream` with the attempts that are left,
or `establish` on the tunnel it has registered.
-/
inductive Origin where
  | pooled (attempts : Nat)
  | fresh (locked : Bool)
  deriving DecidableEq

inductive Subject where
  | tunnel (attempts : Nat) (tunnel : Tunnel)
  | stream (locked : Bool) (tls : TlsStream)
  deriving DecidableEq

def Subject.peer : Subject → SpiffeId
  | .tunnel _ carrier => carrier.peerIdentity
  | .stream _ tls => tls.peerIdentity

inductive Pc where
  | picking (attempts : Nat)
  | locking (attempts : Nat)
  | rechecking (attempts : Nat)
  | checkingGrowth (attempts : Nat)
  | fallingBack (attempts : Nat)
  | dialing (locked : Bool)
  | connecting (locked : Bool)
  | identifying (locked : Bool) (session : TlsSession)
  | caching (locked : Bool) (leafDer : Der) (tls : TlsStream)
  | evaluating (subject : Subject)
  | evaluatingGlobal (subject : Subject)
  | numbering (locked : Bool) (tls : TlsStream)
  | pushing (locked : Bool) (tunnel : Tunnel)
  | spawning (locked : Bool) (tunnel : Tunnel)
  | reserving (origin : Origin) (tunnel : Tunnel)
  | opening (origin : Origin) (tunnel : Tunnel)
  | unreserving (origin : Origin) (tunnel : Tunnel)
  | evicting (origin : Origin) (tunnel : Tunnel)
  | unlocking (next : Pc)
  | returning (route : Route)
  | relaying (route : Route)
  | dropping (route : Route)
  deriving DecidableEq

/--
An accepted connection.  `accepted` and `spawned` are the two halves of
`handle_accept` after the permit; `leaving` and `releasing` are the end of the
spawned task.
-/
inductive Conn where
  | accepted (target : UpstreamTarget)
  | spawned (target : UpstreamTarget)
  | resolving (target : UpstreamTarget)
  | routing (addr : SocketAddr) (pc : Pc)
  | leaving
  | releasing
  | finished
  deriving DecidableEq

/-- A driver task, which owns the session of its tunnel. -/
inductive Driver where
  | running (addr : SocketAddr) (tunnel : Tunnel)
  | exited (addr : SocketAddr) (tunnel : Tunnel)
  | ended
  deriving DecidableEq

structure State where
  permits : Nat
  activeConnections : Nat
  pool : MuxPool
  drivers : List Driver
  conns : List Conn
  sessions : Nat

inductive Event where
  | accept (originalDst : Option SocketAddr)
  | run (i : Nat)
  | discovered (i : Nat) (result : Except InterlinkError ResolvedEndpoints)
  | handshaken (i : Nat) (result : Except InterlinkError Handshake)
  | opened (i : Nat) (ok : Bool)
  | relay (i : Nat) (direction : Direction) (data : List UInt8)
  | relayEnd (i : Nat) (result : Option (Nat × Nat))
  | driverExit (d : Nat)
  | driverEvict (d : Nat)
  deriving DecidableEq

inductive Observation where
  | routeCalled (i : Nat) (addr : SocketAddr)
  | picked (i : Nat) (addr : SocketAddr) (tunnel : Tunnel)
  | dialed (i : Nat) (addr : SocketAddr)
  | handshaken (i : Nat) (addr : SocketAddr) (session : Option TlsSession)
  | evaluated (i : Nat) (source destination : SpiffeId) (decision : Decision)
  | registered (addr : SocketAddr) (tunnel : Tunnel)
  | openFailed (i : Nat) (addr : SocketAddr) (tunnel : Tunnel)
  | evicted (addr : SocketAddr) (id : Nat)
  | driverExited (addr : SocketAddr) (tunnel : Tunnel)
  | routed (i : Nat) (addr : SocketAddr) (route : Route)
  | relayed (i : Nat) (route : Route) (direction : Direction) (data : List UInt8)
  | metric (metric : Metric)
  deriving DecidableEq

def initial (proxy : OutboundProxy) : State :=
  ⟨proxy.maxConnections, 0, .new, [], [], 0⟩

/-! ## Operations on shared memory -/

inductive Effect where
  | none
  | cache (leafDer : Der) (id : SpiffeId)
  | session
  | lock
  | unlock
  | takeId
  | push (tunnel : Tunnel)
  | spawn (tunnel : Tunnel)
  | reserve (id : Nat)
  | unreserve (id : Nat)
  | evict (id : Nat)
  deriving DecidableEq

namespace Effect

def onCache : Effect → IdentityCache → IdentityCache
  | .cache leafDer id, entries => entries.insert leafDer id
  | _, entries => entries

def onPool (i : Nat) (addr : SocketAddr) : Effect → MuxPool → MuxPool
  | .lock, pool => pool.lock addr i
  | .unlock, pool => pool.unlock addr
  | .takeId, pool => pool.takeId
  | .push tunnel, pool => pool.push addr tunnel
  | .reserve id, pool => pool.reserve id
  | .unreserve id, pool => pool.unreserve id
  | .evict id, pool => pool.evict addr id
  | _, pool => pool

def onDrivers (addr : SocketAddr) : Effect → List Driver → List Driver
  | .spawn tunnel, drivers => drivers ++ [.running addr tunnel]
  | _, drivers => drivers

def onSessions : Effect → Nat → Nat
  | .session, sessions => sessions + 1
  | _, sessions => sessions

end Effect

/-! ## The control flow of a connection -/

section Control

variable (proxy : OutboundProxy) (shared : Shared) (s : State) (i : Nat) (addr : SocketAddr)

abbrev Reaction := Option (Effect × Conn × List Observation)

/-- The end of `establish`: in `route` the creation lock is still held. -/
def leave (locked : Bool) (pc : Pc) : Pc :=
  if locked then .unlocking pc else pc

def decided (subject : Subject) (decision : Decision) : Pc :=
  match subject, decision with
  | .tunnel attempts tunnel, .allow => .reserving (.pooled attempts) tunnel
  | .tunnel _ _, .deny _ => .returning .denied
  | .stream locked tls, .allow =>
      if tls.session.negotiatedMux then .numbering locked tls
      else leave locked (.returning (.legacy tls))
  | .stream locked _, .deny _ => leave locked (.returning .denied)

def conclude (subject : Subject) (decision : Decision) : Effect × Conn × List Observation :=
  (.none, .routing addr (decided subject decision),
    [.evaluated i proxy.localId subject.peer decision, .metric (.policy decision)])

def advance : Pc → Reaction
  | .picking 0 => some (.none, .routing addr (.returning .failed), [])
  | .picking (attempts + 1) =>
      match s.pool.pickUnderCap addr with
      | some tunnel =>
          some (.none, .routing addr (.evaluating (.tunnel attempts tunnel)),
            [.picked i addr tunnel])
      | none => some (.none, .routing addr (.locking attempts), [])
  | .locking attempts =>
      if s.pool.creating addr = none then
        some (.lock, .routing addr (.rechecking attempts), [])
      else none
  | .rechecking attempts =>
      match s.pool.pickUnderCap addr with
      | some tunnel =>
          some (.none, .routing addr (.unlocking (.evaluating (.tunnel attempts tunnel))),
            [.picked i addr tunnel])
      | none => some (.none, .routing addr (.checkingGrowth attempts), [])
  | .checkingGrowth attempts =>
      if s.pool.canGrow addr then some (.none, .routing addr (.dialing true), [])
      else some (.none, .routing addr (.unlocking (.fallingBack attempts)), [])
  | .fallingBack attempts =>
      match s.pool.pickAny addr with
      | some tunnel =>
          some (.none, .routing addr (.evaluating (.tunnel attempts tunnel)),
            [.picked i addr tunnel])
      | none => some (.none, .routing addr (.picking attempts), [])
  | .dialing locked => some (.none, .routing addr (.connecting locked), [.dialed i addr])
  | .connecting _ => none
  | .identifying locked session =>
      match extractIdentity shared.parse shared.identityCache session with
      | .cached id =>
          some (.none, .routing addr (.evaluating (.stream locked ⟨session, id⟩)),
            [.metric .handshake])
      | .parsed leafDer id =>
          some (.none, .routing addr (.caching locked leafDer ⟨session, id⟩), [])
      | .failed _ =>
          some (.none, .routing addr (leave locked (.returning .failed)),
            [.metric .handshakeError])
  | .caching locked leafDer tls =>
      some (.cache leafDer tls.peerIdentity,
        .routing addr (.evaluating (.stream locked tls)), [.metric .handshake])
  | .evaluating subject =>
      match shared.policy.scanNamespace proxy.localId subject.peer with
      | some decision => some (conclude proxy i addr subject decision)
      | none => some (.none, .routing addr (.evaluatingGlobal subject), [])
  | .evaluatingGlobal subject =>
      some (conclude proxy i addr subject
        (shared.policy.scanGlobal proxy.localId subject.peer))
  | .numbering locked tls =>
      some (.takeId,
        .routing addr (.pushing locked ⟨s.pool.nextId, tls.peerIdentity, tls.session⟩), [])
  | .pushing locked tunnel =>
      some (.push tunnel, .routing addr (.spawning locked tunnel),
        [.registered addr tunnel])
  | .spawning locked tunnel =>
      some (.spawn tunnel, .routing addr (.reserving (.fresh locked) tunnel),
        [.metric .muxTunnelOpened])
  | .reserving origin tunnel =>
      some (.reserve tunnel.id, .routing addr (.opening origin tunnel), [])
  | .opening _ _ => none
  | .unreserving origin tunnel =>
      some (.unreserve tunnel.id, .routing addr (.evicting origin tunnel), [])
  | .evicting (.pooled attempts) tunnel =>
      some (.evict tunnel.id, .routing addr (.picking attempts), [.evicted addr tunnel.id])
  | .evicting (.fresh locked) tunnel =>
      some (.evict tunnel.id, .routing addr (leave locked (.returning .failed)),
        [.evicted addr tunnel.id])
  | .unlocking next => some (.unlock, .routing addr next, [])
  | .returning (.muxStream tunnel) =>
      some (.none, .routing addr (.relaying (.muxStream tunnel)),
        [.routed i addr (.muxStream tunnel), .metric .muxStream])
  | .returning (.legacy tls) =>
      some (.none, .routing addr (.relaying (.legacy tls)), [.routed i addr (.legacy tls)])
  | .returning .denied =>
      some (.none, .leaving, [.routed i addr .denied, .metric .connectionFailed])
  | .returning .failed =>
      some (.none, .leaving, [.routed i addr .failed, .metric .connectionFailed])
  | .relaying _ => none
  | .dropping (.muxStream tunnel) => some (.unreserve tunnel.id, .leaving, [])
  | .dropping _ => some (.none, .leaving, [])

def handshaken (result : Except InterlinkError Handshake) : Pc → Reaction
  | .connecting locked =>
      match result with
      | .ok handshake =>
          let session := handshake.session s.sessions
          some (.session, .routing addr (.identifying locked session),
            [.handshaken i addr (some session), .metric (.handshakeKind handshake.resumed)])
      | .error _ =>
          some (.none, .routing addr (leave locked (.returning .failed)),
            [.handshaken i addr none, .metric .handshakeError])
  | _ => none

/-- `open_stream` gets its answer from the driver, or finds it gone. -/
def opened (ok : Bool) : Pc → Reaction
  | .opening origin tunnel =>
      if ok then
        match origin with
        | .pooled _ => some (.none, .routing addr (.returning (.muxStream tunnel)), [])
        | .fresh locked =>
            some (.none, .routing addr (leave locked (.returning (.muxStream tunnel))), [])
      else
        some (.none, .routing addr (.unreserving origin tunnel),
          [.openFailed i addr tunnel])
  | _ => none

def relay (direction : Direction) (data : List UInt8) : Pc → Reaction
  | .relaying route =>
      some (.none, .routing addr (.relaying route), [.relayed i route direction data])
  | _ => none

def relayEnd (result : Option (Nat × Nat)) : Pc → Reaction
  | .relaying route =>
      some (.none, .routing addr (.dropping route), [.metric (recordRelayResult result)])
  | _ => none

end Control

/-! ## Steps -/

/-- An original destination on the proxy's own port was not redirected. -/
def selectUpstream (proxy : OutboundProxy) (originalDst : Option SocketAddr) :
    Option UpstreamTarget :=
  ((originalDst.filter fun addr => addr.port ≠ proxy.listenPort).map .socket).or
    proxy.defaultUpstream

def route (proxy : OutboundProxy) : Pc :=
  if proxy.muxEnabled then .picking 4 else .dialing false

section Steps

variable (proxy : OutboundProxy) (shared : Shared) (s : State)

def accept (originalDst : Option SocketAddr) : State × List Observation :=
  match proxy.selectUpstream originalDst with
  | none => (s, [])
  | some target =>
      if 0 < s.permits then
        ({ s with permits := s.permits - 1, conns := s.conns ++ [.accepted target] }, [])
      else (s, [.metric .saturationRejection])

def State.goto (i : Nat) (conn : Conn) : State :=
  { s with conns := s.conns.set i conn }

def resolved (i : Nat) : Except InterlinkError SocketAddr → State × List Observation
  | .ok addr => (s.goto i (.routing addr proxy.route), [.routeCalled i addr])
  | .error _ => (s.goto i .leaving, [.metric .connectionFailed])

def State.perform (i : Nat) (addr : SocketAddr) (effect : Effect) (conn : Conn) : State :=
  { s with
    pool := effect.onPool i addr s.pool
    drivers := effect.onDrivers addr s.drivers
    sessions := effect.onSessions s.sessions
    conns := s.conns.set i conn }

def Shared.perform (effect : Effect) : Shared :=
  { shared with identityCache := effect.onCache shared.identityCache }

def performed (i : Nat) (addr : SocketAddr) (reaction : Reaction) :
    Option (Shared × State × List Observation) :=
  reaction.map fun (effect, conn, out) =>
    (Shared.perform shared effect, s.perform i addr effect conn, out)

def runConn (i : Nat) : Conn → Option (Shared × State × List Observation)
  | .accepted target =>
      some (shared, { s.goto i (.spawned target) with
        activeConnections := fetchAdd s.activeConnections }, [])
  | .spawned target => some (shared, s.goto i (.resolving target), [.metric .connectionStart])
  | .resolving target =>
      match target.resolve proxy.hasDiscovery with
      | .done result => some (shared, resolved proxy s i result)
      | .lookup _ _ => none
  | .routing addr pc => performed shared s i addr (advance proxy shared s i addr pc)
  | .leaving =>
      some (shared, { s.goto i .releasing with
        activeConnections := fetchSub s.activeConnections }, [])
  | .releasing => some (shared, { s.goto i .finished with permits := s.permits + 1 }, [])
  | .finished => none

def discover (i : Nat) (result : Except InterlinkError ResolvedEndpoints) :
    Conn → Option (Shared × State × List Observation)
  | .resolving target =>
      match target.resolve proxy.hasDiscovery with
      | .lookup name port =>
          some (shared, resolved proxy s i (result.bind (resolveHost name port)))
      | .done _ => none
  | _ => none

def respond (i : Nat) (react : SocketAddr → Pc → Reaction) :
    Conn → Option (Shared × State × List Observation)
  | .routing addr pc => performed shared s i addr (react addr pc)
  | _ => none

def exitDriver (d : Nat) : Driver → Option (Shared × State × List Observation)
  | .running addr tunnel =>
      some (shared, { s with drivers := s.drivers.set d (.exited addr tunnel) },
        [.driverExited addr tunnel])
  | _ => none

def evictDriver (d : Nat) : Driver → Option (Shared × State × List Observation)
  | .exited addr tunnel =>
      some (shared, { s with
        drivers := s.drivers.set d .ended
        pool := s.pool.evict addr tunnel.id }, [.evicted addr tunnel.id])
  | _ => none

def step : Event → Option (Shared × State × List Observation)
  | .accept originalDst => some (shared, accept proxy s originalDst)
  | .run i => s.conns[i]?.bind (runConn proxy shared s i)
  | .discovered i result => s.conns[i]?.bind (discover proxy shared s i result)
  | .handshaken i result =>
      s.conns[i]?.bind (respond shared s i fun addr => handshaken s i addr result)
  | .opened i ok => s.conns[i]?.bind (respond shared s i fun addr => opened i addr ok)
  | .relay i direction data =>
      s.conns[i]?.bind (respond shared s i fun addr => relay i addr direction data)
  | .relayEnd i result =>
      s.conns[i]?.bind (respond shared s i fun addr => relayEnd addr result)
  | .driverExit d => s.drivers[d]?.bind (exitDriver shared s d)
  | .driverEvict d => s.drivers[d]?.bind (evictDriver shared s d)

end Steps

end OutboundProxy

end Interlink
