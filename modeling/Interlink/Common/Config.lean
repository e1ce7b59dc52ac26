import Interlink.Common.Identity

/-!
# Configuration

The runtime configuration, what `validate` accepts of it, and the part that is
handed to the proxies.
-/

namespace Interlink

open Interlink.Foundation

structure ProxyConfig where
  trustDomain : Str
  identity : Option Str
  defaultUpstream : Option Str
  maxConnections : Option Nat
  mux : Bool
  deriving DecidableEq, Repr

/-- The fields of the runtime configuration that the proxies read. -/
structure Config where
  trustDomain : Str
  identity : Option Str
  proxyInboundPort : UInt16
  proxyOutboundPort : UInt16
  maxConnections : Nat
  defaultUpstream : Option Str
  mux : Bool
  deriving DecidableEq, Repr

namespace Config

def default : Config where
  trustDomain := "cluster.local".toList
  identity := none
  proxyInboundPort := 4143
  proxyOutboundPort := 4140
  maxConnections := 1024
  defaultUpstream := none
  mux := true

def validateIdentity (uri : Str) : Except InterlinkError Unit :=
  match SpiffeId.fromUri uri with
  | .ok _ => .ok ()
  | .error error =>
      .error (.config ("invalid INTERLINK_IDENTITY: ".toList ++ error.display))

def validate (config : Config) : Except InterlinkError Unit :=
  if config.trustDomain = [] then
    .error (.config "trust_domain must not be empty".toList)
  else if config.maxConnections = 0 then
    .error (.config "max_connections must be > 0".toList)
  else
    match config.identity with
    | some uri => validateIdentity uri
    | none => .ok ()

def toProxyConfig (config : Config) : ProxyConfig where
  trustDomain := config.trustDomain
  identity := config.identity
  defaultUpstream := config.defaultUpstream
  maxConnections := some config.maxConnections
  mux := config.mux

theorem validate_default : default.validate = .ok () := rfl

/-- Accepted configurations, field by field.  No bound is put on `maxConnections`. -/
theorem validate_eq_ok_iff {config : Config} :
    config.validate = .ok () ↔
      config.trustDomain ≠ [] ∧ 0 < config.maxConnections ∧
        ∀ uri ∈ config.identity, ∃ id, SpiffeId.fromUri uri = .ok id := by
  unfold validate
  split
  next hdomain => simp [hdomain]
  next hdomain =>
    split
    next hmax => simp [hmax]
    next hmax =>
      cases config.identity with
      | none => simp [hdomain, Nat.pos_of_ne_zero hmax]
      | some uri =>
          cases hparse : SpiffeId.fromUri uri with
          | ok id => simp [validateIdentity, hparse, hdomain, Nat.pos_of_ne_zero hmax]
          | error error => simp [validateIdentity, hparse]

end Config

end Interlink
