import Interlink.Foundation.Utf8

/-!
# Errors and addresses

The error type every fallible operation of the proxy returns, with the text
each of them carries, and the socket addresses the proxies dial.
-/

namespace Interlink

open Interlink.Foundation

inductive InterlinkError where
  | tls (message : Str)
  | io (message : Str)
  | protocol (message : Str)
  | identity (message : Str)
  | policyViolation (message : Str)
  | dnsResolution (message : Str)
  | config (message : Str)
  deriving DecidableEq, Repr

def InterlinkError.display : InterlinkError → Str
  | .tls message => "TLS error: ".toList ++ message
  | .io message => "I/O error: ".toList ++ message
  | .protocol message => "Protocol error: ".toList ++ message
  | .identity message => "Identity error: ".toList ++ message
  | .policyViolation message => "Policy violation: ".toList ++ message
  | .dnsResolution message => "DNS resolution failed: ".toList ++ message
  | .config message => "Configuration error: ".toList ++ message

inductive IpAddr where
  | v4 (address : BitVec 32)
  | v6 (address : BitVec 128)
  deriving DecidableEq, Repr

structure SocketAddr where
  ip : IpAddr
  port : UInt16
  deriving DecidableEq, Repr

end Interlink
