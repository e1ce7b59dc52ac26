import Interlink.Foundation.Tasks
import Interlink.Foundation.Transition
import Interlink.Proxy.Shared

/-!
# The inbound proxy

An accepted connection is a task that overlaps its TLS handshake with the dial
of its upstream, evaluates the policy once, and then either relays bytes one to
one or serves a mux tunnel.  A tunnel spawns one more task for every stream its
peer opens.
-/

namespace Interlink

open Interlink.Foundation

structure TcpProxy where
  maxConnections : Nat
  defaultUpstream : Option UpstreamTarget
  listenPort : UInt16
  hasDiscovery : Bool
  localId : SpiffeId

namespace TcpProxy

/-! ## Where a connection stands -/

/-- The `tls_server.accept` half of the join. -/
inductive Accepting where
  | handshaking
  | identifying (session : TlsSession)
  | caching (leafDer : Der) (tls : TlsStream)
  | done (tls : Option TlsStream)
  deriving DecidableEq

inductive Pc where
  | joining (accepting : Accepting) (dialed : Option Bool)
  | evaluating (tls : TlsStream)
  | evaluatingGlobal (tls : TlsStream)
  | serving (tls : TlsStream)
  | detecting (tls : TlsStream)
  | forwarding (tls : TlsStream) (data : List UInt8)
  | relaying (tls : TlsStream)
  deriving DecidableEq

inductive Conn where
  | accepted (target : UpstreamTarget)
  | spawned (target : UpstreamTarget)
  | resolving (target : UpstreamTarget)
  | handling (addr : SocketAddr) (pc : Pc)
  | leaving
  | releasing
  | finished
  deriving DecidableEq

def Conn.relays : Conn → Bool
  | .handling _ (.forwarding _ _) | .handling _ (.relaying _) => true
  | _ => false

inductive StreamPc where
  | spawned
  | dialing
  | relaying
  | finished
  deriving DecidableEq

/-- A `relay_stream_to_upstream` task with the connection and the session of its tunnel. -/
structure Stream where
  conn : Nat
  tls : TlsStream
  upstream : SocketAddr
  pc : StreamPc
  deriving DecidableEq

structure State where
  permits : Nat
  activeConnections : Nat
  conns : List Conn
  streams : List Stream
  sessions : Nat

inductive Event where
  | accept (originalDst : Option SocketAddr)
  | run (i : Nat)
  | discovered (i : Nat) (result : Except InterlinkError ResolvedEndpoints)
  | handshaken (i : Nat) (result : Except InterlinkError Handshake)
  | dialed (i : Nat) (ok : Bool)
  | read (i : Nat) (data : Option (List UInt8))
  | written (i : Nat) (delivered : Nat) (ok : Bool)
  | relay (i : Nat) (direction : Direction) (data : List UInt8)
  | relayEnd (i : Nat) (result : Option (Nat × Nat))
  | acceptStream (i : Nat)
  | closeTunnel (i : Nat)
  | runStream (k : Nat)
  | streamDialed (k : Nat) (ok : Bool)
  | streamRelay (k : Nat) (direction : Direction) (data : List UInt8)
  | streamEnd (k : Nat) (result : Option (Nat × Nat))
  deriving DecidableEq

/--
A relay names the connection, the stream if the connection is a tunnel, and the
session that carries the bytes.
-/
inductive Observation where
  | evaluated (i : Nat) (source destination : SpiffeId) (decision : Decision)
  | streamAccepted (i k : Nat) (tls : TlsStream)
  | relayed (i : Nat) (stream : Option Nat) (tls : TlsStream) (direction : Direction)
      (data : List UInt8)
  | metric (metric : Metric)
  deriving DecidableEq

def initial (proxy : TcpProxy) : State :=
  ⟨proxy.maxConnections, 0, [], [], 0⟩

/-! ## The control flow of a connection -/

inductive Effect where
  | none
  | cache (leafDer : Der) (id : SpiffeId)
  | session
  | spawn (tls : TlsStream)
  deriving DecidableEq

namespace Effect

def onCache : Effect → IdentityCache → IdentityCache
  | .cache leafDer id, entries => entries.insert leafDer id
  | _, entries => entries

def onSessions : Effect → Nat → Nat
  | .session, sessions => sessions + 1
  | _, sessions => sessions

def onStreams (i : Nat) (addr : SocketAddr) : Effect → List Stream → List Stream
  | .spawn tls, streams => streams ++ [⟨i, tls, addr, .spawned⟩]
  | _, streams => streams

end Effect

section Control

variable (proxy : TcpProxy) (shared : Shared) (s : State) (i : Nat) (addr : SocketAddr)

abbrev Reaction := Option (Effect × Conn × List Observation)

def decided (tls : TlsStream) : Decision → Conn × List Observation
  | .allow =>
      if tls.session.negotiatedMux then (.handling addr (.serving tls), [])
      else (.handling addr (.detecting tls), [])
  | .deny _ => (.leaving, [.metric .connectionFailed])

def conclude (tls : TlsStream) (decision : Decision) : Effect × Conn × List Observation :=
  (.none, (decided addr tls decision).1,
    [.evaluated i tls.peerIdentity proxy.localId decision, .metric (.policy decision)] ++
      (decided addr tls decision).2)

def joined : Option TlsStream → Bool → Conn × List Observation
  | none, _ => (.leaving, [.metric .handshakeError, .metric .connectionFailed])
  | some _, false => (.leaving, [.metric .handshake, .metric .connectionFailed])
  | some tls, true => (.handling addr (.evaluating tls), [.metric .handshake])

def advance : Pc → Reaction
  | .joining .handshaking _ => none
  | .joining (.identifying session) dialed =>
      match extractIdentity shared.parse shared.identityCache session with
      | .cached id =>
          some (.none, .handling addr (.joining (.done (some ⟨session, id⟩)) dialed), [])
      | .parsed leafDer id =>
          some (.none, .handling addr (.joining (.caching leafDer ⟨session, id⟩) dialed), [])
      | .failed _ => some (.none, .handling addr (.joining (.done none) dialed), [])
  | .joining (.caching leafDer tls) dialed =>
      some (.cache leafDer tls.peerIdentity,
        .handling addr (.joining (.done (some tls)) dialed), [])
  | .joining (.done _) none => none
  | .joining (.done tls) (some ok) => some (.none, joined addr tls ok)
  | .evaluating tls =>
      match shared.policy.scanNamespace tls.peerIdentity proxy.localId with
      | some decision => some (conclude proxy i addr tls decision)
      | none => some (.none, .handling addr (.evaluatingGlobal tls), [])
  | .evaluatingGlobal tls =>
      some (conclude proxy i addr tls
        (shared.policy.scanGlobal tls.peerIdentity proxy.localId))
  | _ => none

def handshaken (result : Except InterlinkError Handshake) : Pc → Reaction
  | .joining .handshaking dialed =>
      match result with
      | .ok handshake =>
          some (.session,
            .handling addr (.joining (.identifying (handshake.session s.sessions)) dialed),
            [.metric (.handshakeKind handshake.resumed)])
      | .error _ => some (.none, .handling addr (.joining (.done none) dialed), [])
  | _ => none

def dialed (ok : Bool) : Pc → Reaction
  | .joining accepting none =>
      some (.none, .handling addr (.joining accepting (some ok)), [])
  | _ => none

/-- The protocol-detection read: a failed read and an early end close the connection. -/
def read : Option (List UInt8) → Pc → Reaction
  | some (byte :: data), .detecting tls =>
      some (.none, .handling addr (.forwarding tls (byte :: data)), [])
  | _, .detecting _ => some (.none, .leaving, [.metric .connectionFailed])
  | _, _ => none

/-- `write_all` of the detected bytes; a failed write may have delivered some of them. -/
def written (delivered : Nat) (ok : Bool) : Pc → Reaction
  | .forwarding tls data =>
      if ok then
        some (.none, .handling addr (.relaying tls), [.relayed i none tls .toUpstream data])
      else
        some (.none, .leaving,
          [.relayed i none tls .toUpstream (data.take delivered), .metric .connectionFailed])
  | _ => none

def relay (direction : Direction) (data : List UInt8) : Pc → Reaction
  | .relaying tls =>
      some (.none, .handling addr (.relaying tls), [.relayed i none tls direction data])
  | _ => none

def relayEnd (result : Option (Nat × Nat)) : Pc → Reaction
  | .relaying _ => some (.none, .leaving, [.metric (recordRelayResult result)])
  | _ => none

def acceptStream : Pc → Reaction
  | .serving tls =>
      some (.spawn tls, .handling addr (.serving tls),
        [.streamAccepted i s.streams.length tls, .metric .muxStream])
  | _ => none

def closeTunnel : Pc → Reaction
  | .serving _ => some (.none, .leaving, [.metric .tunnelClosed])
  | _ => none

end Control

/-! ## Steps -/

def selectUpstream (proxy : TcpProxy) (originalDst : Option SocketAddr) :
    Option UpstreamTarget :=
  proxy.defaultUpstream.or (originalDst.map .socket)

section Steps

variable (proxy : TcpProxy) (shared : Shared) (s : State)

def accept (originalDst : Option SocketAddr) : State × List Observation :=
  match proxy.selectUpstream originalDst with
  | none => (s, [])
  | some target =>
      if 0 < s.permits then
        ({ s with permits := s.permits - 1, conns := s.conns ++ [.accepted target] }, [])
      else (s, [.metric .saturationRejection])

def State.goto (i : Nat) (conn : Conn) : State :=
  { s with conns := s.conns.set i conn }

def resolved (i : Nat) : Except InterlinkError SocketAddr → State × List Observation
  | .ok addr => (s.goto i (.handling addr (.joining .handshaking none)), [])
  | .error _ => (s.goto i .leaving, [.metric .connectionFailed])

def State.perform (i : Nat) (addr : SocketAddr) (effect : Effect) (conn : Conn) : State :=
  { s with
    streams := effect.onStreams i addr s.streams
    sessions := effect.onSessions s.sessions
    conns := s.conns.set i conn }

def Shared.perform (effect : Effect) : Shared :=
  { shared with identityCache := effect.onCache shared.identityCache }

def performed (i : Nat) (addr : SocketAddr) (reaction : Reaction) :
    Option (Shared × State × List Observation) :=
  reaction.map fun (effect, conn, out) =>
    (Shared.perform shared effect, s.perform i addr effect conn, out)

def runConn (i : Nat) : Conn → Option (Shared × State × List Observation)
  | .accepted target =>
      some (shared, { s.goto i (.spawned target) with
        activeConnections := fetchAdd s.activeConnections }, [])
  | .spawned target => some (shared, s.goto i (.resolving target), [.metric .connectionStart])
  | .resolving target =>
      match target.resolve proxy.hasDiscovery with
      | .done result => some (shared, resolved s i result)
      | .lookup _ _ => none
  | .handling addr pc => performed shared s i addr (advance proxy shared i addr pc)
  | .leaving =>
      some (shared, { s.goto i .releasing with
        activeConnections := fetchSub s.activeConnections }, [])
  | .releasing => some (shared, { s.goto i .finished with permits := s.permits + 1 }, [])
  | .finished => none

def discover (i : Nat) (result : Except InterlinkError ResolvedEndpoints) :
    Conn → Option (Shared × State × List Observation)
  | .resolving target =>
      match target.resolve proxy.hasDiscovery with
      | .lookup name port =>
          some (shared, resolved s i (result.bind (resolveHost name port)))
      | .done _ => none
  | _ => none

def respond (i : Nat) (react : SocketAddr → Pc → Reaction) :
    Conn → Option (Shared × State × List Observation)
  | .handling addr pc => performed shared s i addr (react addr pc)
  | _ => none

def State.gotoStream (k : Nat) (stream : Stream) (pc : StreamPc) : State :=
  { s with streams := s.streams.set k { stream with pc := pc } }

def runStream (k : Nat) (stream : Stream) : Option (Shared × State × List Observation) :=
  match stream.pc with
  | .spawned => some (shared, s.gotoStream k stream .dialing, [.metric .connectionStart])
  | _ => none

def streamDialed (k : Nat) (ok : Bool) (stream : Stream) :
    Option (Shared × State × List Observation) :=
  match stream.pc with
  | .dialing =>
      if ok then some (shared, s.gotoStream k stream .relaying, [])
      else some (shared, s.gotoStream k stream .finished, [.metric .connectionFailed])
  | _ => none

def streamRelay (k : Nat) (direction : Direction) (data : List UInt8) (stream : Stream) :
    Option (Shared × State × List Observation) :=
  match stream.pc with
  | .relaying =>
      some (shared, s, [.relayed stream.conn (some k) stream.tls direction data])
  | _ => none

def streamEnd (k : Nat) (result : Option (Nat × Nat)) (stream : Stream) :
    Option (Shared × State × List Observation) :=
  match stream.pc with
  | .relaying =>
      some (shared, s.gotoStream k stream .finished, [.metric (recordRelayResult result)])
  | _ => none

def step : Event → Option (Shared × State × List Observation)
  | .accept originalDst => some (shared, accept proxy s originalDst)
  | .run i => s.conns[i]?.bind (runConn proxy shared s i)
  | .discovered i result => s.conns[i]?.bind (discover proxy shared s i result)
  | .handshaken i result =>
      s.conns[i]?.bind (respond shared s i fun addr => handshaken s addr result)
  | .dialed i ok => s.conns[i]?.bind (respond shared s i fun addr => dialed addr ok)
  | .read i data => s.conns[i]?.bind (respond shared s i fun addr => read addr data)
  | .written i delivered ok =>
      s.conns[i]?.bind (respond shared s i fun addr => written i addr delivered ok)
  | .relay i direction data =>
      s.conns[i]?.bind (respond shared s i fun addr => relay i addr direction data)
  | .relayEnd i result => s.conns[i]?.bind (respond shared s i fun _ => relayEnd result)
  | .acceptStream i => s.conns[i]?.bind (respond shared s i fun addr => acceptStream s i addr)
  | .closeTunnel i => s.conns[i]?.bind (respond shared s i fun _ => closeTunnel)
  | .runStream k => s.streams[k]?.bind (runStream shared s k)
  | .streamDialed k ok => s.streams[k]?.bind (streamDialed shared s k ok)
  | .streamRelay k direction data => s.streams[k]?.bind (streamRelay shared s k direction data)
  | .streamEnd k result => s.streams[k]?.bind (streamEnd shared s k result)

end Steps

end TcpProxy

end Interlink
