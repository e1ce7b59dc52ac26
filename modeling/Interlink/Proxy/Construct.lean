import Interlink.Common.Config
import Interlink.Foundation.Decimal
import Interlink.Proxy.Inbound
import Interlink.Proxy.Outbound

/-!
# The proxies of a configuration
-/

namespace Interlink

open Interlink.Foundation

/-! ## The default upstream -/

/-- `str::parse::<u16>`, without the error. -/
def parsePort (s : Str) : Option UInt16 :=
  (Decimal.parseUnsigned 65536 s).toOption.map Nat.toUInt16

def rsplitOnce (separator : Char) (s : Str) : Option (Str × Str) :=
  let port := (s.reverse.takeWhile (· ≠ separator)).reverse
  if port.length < s.length then some (s.take (s.length - port.length - 1), port) else none

/-- The parser of socket addresses is the standard library's. -/
def UpstreamTarget.fromConfig (parseAddr : Str → Option SocketAddr) (value : Option Str) :
    Option UpstreamTarget :=
  (value.filter fun value => value ≠ []).map fun value =>
    match parseAddr value with
    | some addr => .socket addr
    | none =>
        match rsplitOnce ':' value with
        | some (name, port) =>
            match parsePort port with
            | some port => .host name (some port)
            | none => .host value none
        | none => .host value none

/-! ## Construction -/

namespace OutboundProxy

def maxPermits : Nat := 2 ^ 61 - 1

def localIdOf (config : ProxyConfig) : Option SpiffeId :=
  (config.identity.bind fun uri => (SpiffeId.fromUri uri).toOption).or
    (SpiffeId.tryNew config.trustDomain "default".toList "proxy".toList).toOption

/-- `new_with_discovery`; `none` is a panic, in `Semaphore::new` or for want of an identity. -/
def newWithDiscovery (parseAddr : Str → Option SocketAddr) (config : ProxyConfig)
    (port : UInt16) (hasDiscovery : Bool) : Option OutboundProxy :=
  let maxConn := config.maxConnections.getD 1024
  if maxPermits < maxConn then none
  else
    (localIdOf config).map fun localId =>
      ⟨maxConn, UpstreamTarget.fromConfig parseAddr config.defaultUpstream, config.mux, port,
        hasDiscovery, localId⟩

variable {parseAddr : Str → Option SocketAddr} {config : Config} {port : UInt16}
  {hasDiscovery : Bool} {proxy : OutboundProxy}

theorem of_built {α : Type} {config : ProxyConfig} {maxConn : Nat} {build : SpiffeId → α}
    {built : α}
    (h : (if maxPermits < maxConn then none else (localIdOf config).map build) = some built) :
    maxConn ≤ maxPermits ∧ ∃ localId, build localId = built := by
  split at h
  next => cases h
  next hmax =>
    obtain ⟨localId, -, hbuilt⟩ := Option.map_eq_some_iff.mp h
    exact ⟨Nat.le_of_not_lt hmax, localId, hbuilt⟩

theorem of_newWithDiscovery
    (h : newWithDiscovery parseAddr config.toProxyConfig port hasDiscovery = some proxy) :
    proxy.maxConnections = config.maxConnections ∧ proxy.muxEnabled = config.mux := by
  rw [newWithDiscovery] at h
  obtain ⟨-, localId, rfl⟩ := of_built h
  exact ⟨rfl, rfl⟩

theorem isSome_localIdOf (hvalid : config.validate = .ok ()) :
    (localIdOf config.toProxyConfig).isSome = true := by
  obtain ⟨hdomain, -, -⟩ := Config.validate_eq_ok_iff.mp hvalid
  have hfallback : SpiffeId.tryNew config.trustDomain "default".toList "proxy".toList =
      .ok (SpiffeId.new config.trustDomain "default".toList "proxy".toList) := by
    simp [SpiffeId.tryNew, SpiffeId.validateSegments, SpiffeId.new, hdomain]
    rfl
  simp only [localIdOf, Config.toProxyConfig, hfallback, Except.toOption, Option.isSome_or,
    Option.isSome_some, Bool.or_true]

/-- Both constructors panic only if the connections are more than a semaphore can count. -/
theorem isSome_built {α : Type} (hvalid : config.validate = .ok ()) (build : SpiffeId → α) :
    (if maxPermits < config.toProxyConfig.maxConnections.getD 1024 then none
      else (localIdOf config.toProxyConfig).map build).isSome ↔
        config.maxConnections ≤ maxPermits := by
  split
  next hmax => simpa [Config.toProxyConfig] using hmax
  next hmax =>
    have hmax : config.maxConnections ≤ maxPermits := by
      simpa [Config.toProxyConfig] using hmax
    simp [isSome_localIdOf hvalid, hmax]

theorem isSome_newWithDiscovery (hvalid : config.validate = .ok ()) :
    (newWithDiscovery parseAddr config.toProxyConfig port hasDiscovery).isSome ↔
      config.maxConnections ≤ maxPermits :=
  isSome_built hvalid _

end OutboundProxy

namespace TcpProxy

open OutboundProxy (maxPermits localIdOf isSome_built of_built)

def newWithDiscovery (parseAddr : Str → Option SocketAddr) (config : ProxyConfig)
    (port : UInt16) (hasDiscovery : Bool) : Option TcpProxy :=
  let maxConn := config.maxConnections.getD 1024
  if maxPermits < maxConn then none
  else
    (localIdOf config).map fun localId =>
      ⟨maxConn, UpstreamTarget.fromConfig parseAddr config.defaultUpstream, port, hasDiscovery,
        localId⟩

theorem maxConnections_le_maxPermits {parseAddr : Str → Option SocketAddr}
    {config : ProxyConfig} {port : UInt16} {hasDiscovery : Bool} {proxy : TcpProxy}
    (h : newWithDiscovery parseAddr config port hasDiscovery = some proxy) :
    proxy.maxConnections ≤ maxPermits := by
  rw [newWithDiscovery] at h
  obtain ⟨hmax, localId, rfl⟩ := of_built h
  exact hmax

theorem isSome_newWithDiscovery {parseAddr : Str → Option SocketAddr} {config : Config}
    {port : UInt16} {hasDiscovery : Bool} (hvalid : config.validate = .ok ()) :
    (newWithDiscovery parseAddr config.toProxyConfig port hasDiscovery).isSome ↔
      config.maxConnections ≤ maxPermits :=
  isSome_built hvalid _

end TcpProxy

end Interlink
