import Interlink.Discovery.Resolve
import Interlink.Policy.Engine
import Interlink.Proxy.Mux

/-!
# What the two proxies share

The X.509 parser, the policy engine and the identity cache are shared by every
connection of both proxies.  Both resolve an upstream in the same way and record
the same metrics.
-/

namespace Interlink

open Interlink.Foundation

structure Shared where
  parse : X509Parser
  policy : PolicyEngine
  identityCache : IdentityCache

inductive Direction where
  | toUpstream
  | toClient
  deriving DecidableEq, Repr

inductive Metric where
  | connectionStart
  | connectionFailed
  | connection (bytesUp bytesDown : Nat)
  | handshake
  | handshakeError
  | handshakeKind (resumed : Bool)
  | policy (decision : Decision)
  | saturationRejection
  | muxTunnelOpened
  | muxStream
  | tunnelClosed
  deriving DecidableEq, Repr

def recordRelayResult : Option (Nat × Nat) → Metric
  | some (bytesUp, bytesDown) => .connection bytesUp bytesDown
  | none => .connectionFailed

/-- A finished handshake as rustls reports it. -/
structure Handshake where
  peerCertificates : Option (List Der)
  alpn : Option (List UInt8)
  resumed : Bool
  deriving DecidableEq, Repr

def Handshake.session (handshake : Handshake) (number : Nat) : TlsSession :=
  ⟨number, handshake.peerCertificates, handshake.alpn⟩

/-! ## Upstream targets -/

inductive UpstreamTarget where
  | socket (addr : SocketAddr)
  | host (name : Str) (port : Option UInt16)
  deriving DecidableEq, Repr

def hostText (name : Str) : Option UInt16 → Str
  | none => name
  | some port => name ++ ':' :: (toString port.toNat).toList

inductive Resolution where
  | done (result : Except InterlinkError SocketAddr)
  | lookup (name : Str) (port : Option UInt16)

def UpstreamTarget.resolve (hasDiscovery : Bool) : UpstreamTarget → Resolution
  | .socket addr => .done (.ok addr)
  | .host name port =>
      if hasDiscovery then .lookup name port
      else .done (.error (.dnsResolution ("cannot resolve hostname '".toList ++
        hostText name port ++ "' without discovery".toList)))

def resolveHost (name : Str) (port : Option UInt16) (resolved : ResolvedEndpoints) :
    Except InterlinkError SocketAddr :=
  match resolved.addrs with
  | [] => .error (.dnsResolution ("no endpoints for ".toList ++ hostText name port))
  | first :: _ => .ok ⟨first.ip, port.getD first.port⟩

end Interlink
