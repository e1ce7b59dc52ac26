import Interlink.Policy.Patterns
import Interlink.Proxy.Construct
import Interlink.Proxy.Credentials

/-!
# Starting the daemon

`main` derives the identity that its certificate must have, loads the credentials,
makes a policy from the identity and builds the two proxies.
-/

namespace Interlink.Main

open Interlink.Foundation

/-! ## What is started -/

/-- `none` is a panic of the expect. -/
def identity (config : Config) : Option SpiffeId :=
  (config.identity.bind fun uri => (SpiffeId.fromUri uri).toOption).or
    (SpiffeId.tryNew config.trustDomain "default".toList "proxy".toList).toOption

/-- `allowAll` says that the environment sets `INTERLINK_ALLOW_ALL`. -/
def policy (identity : SpiffeId) (allowAll : Bool) : Option PolicyEngine :=
  (Patterns.allow identity.toUri identity.toUri
    "allow replicas of this workload identity".toList).map fun rule =>
      let engine := PolicyEngine.new.setGlobalPolicies [rule]
      if allowAll then engine.setDefaultDecision .allow else engine

def inboundProxy (parseAddr : Str → Option SocketAddr) (config : Config) : Option TcpProxy :=
  TcpProxy.newWithDiscovery parseAddr config.toProxyConfig config.proxyInboundPort
    config.defaultUpstream.isNone

def outboundProxy (parseAddr : Str → Option SocketAddr) (config : Config) :
    Option OutboundProxy :=
  OutboundProxy.newWithDiscovery parseAddr config.toProxyConfig config.proxyOutboundPort true

structure Daemon where
  generation : TlsGeneration
  policy : PolicyEngine
  inbound : TcpProxy
  outbound : OutboundProxy

inductive Start where
  | panicked
  | refused (error : InterlinkError)
  | noResolver (error : Str)
  | running (daemon : Daemon)

/--
`reads` and `now` are what `load` sees of the files and of the clock, `resolver` is what
the construction of the DNS resolver returns.
-/
def start (lib : TlsLibrary) (parseAddr : Str → Option SocketAddr) (config : Config)
    (paths : TlsCredentialPaths) (reads : CredentialReads) (now : UnixTime) (allowAll : Bool)
    (resolver : Except Str Unit) : Start :=
  match identity config with
  | none => .panicked
  | some expected =>
      match buildGeneration lib paths expected config.mux reads now with
      | .error error => .refused error
      | .ok generation =>
          match policy expected allowAll with
          | none => .panicked
          | some engine =>
              match resolver with
              | .error error => .noResolver error
              | .ok _ =>
                  match inboundProxy parseAddr config, outboundProxy parseAddr config with
                  | some inbound, some outbound =>
                      .running ⟨generation, engine, inbound, outbound⟩
                  | _, _ => .panicked

variable {lib : TlsLibrary} {parseAddr : Str → Option SocketAddr} {config : Config}
  {paths : TlsCredentialPaths} {reads : CredentialReads} {now : UnixTime} {muxEnabled : Bool}
  {generation : TlsGeneration} {id : SpiffeId}

/-! ## The identity -/

theorem identity_of_some {uri : Str} (huri : config.identity = some uri)
    (h : SpiffeId.fromUri uri = .ok id) : identity config = some id := by
  simp [identity, huri, h, Except.toOption]

theorem identity_of_none (hnone : config.identity = none) (hdomain : config.trustDomain ≠ []) :
    identity config = some ⟨config.trustDomain, "default".toList, "proxy".toList⟩ := by
  simp [identity, hnone, SpiffeId.tryNew, SpiffeId.new, SpiffeId.validateSegments, hdomain]
  rfl

theorem exists_identity (hvalid : config.validate = .ok ()) :
    ∃ id, identity config = some id := by
  obtain ⟨hdomain, -, hidentity⟩ := Config.validate_eq_ok_iff.mp hvalid
  cases hgiven : config.identity with
  | none => exact ⟨_, identity_of_none hgiven hdomain⟩
  | some uri =>
      obtain ⟨id, hid⟩ := hidentity uri hgiven
      exact ⟨id, identity_of_some hgiven hid⟩

theorem canonical_fallback_iff (trustDomain : Str) :
    (⟨trustDomain, "default".toList, "proxy".toList⟩ : SpiffeId).Canonical ↔
      SpiffeUri.IsTrustDomain trustDomain ∧ toAsciiLowercase trustDomain = trustDomain := by
  have hns : SpiffeUri.IsSegment "default".toList := by decide
  have haccount : SpiffeUri.IsSegment "proxy".toList := by decide
  simp only [SpiffeId.Canonical, SpiffeId.Delimited, hns, haccount, and_true]

/--
The identity that a configuration stands for is one that certificates can have if it is
given as a URI; a trust domain must be spelled as a parsed one is.
-/
def Certifiable (config : Config) : Prop :=
  config.identity.isSome ∨
    SpiffeUri.IsTrustDomain config.trustDomain ∧
      toAsciiLowercase config.trustDomain = config.trustDomain

theorem canonical_of_load
    (hload : buildGeneration lib paths id muxEnabled reads now = .ok generation) :
    id.Canonical := by
  obtain ⟨credentials, -, hvalid, -⟩ := of_buildGeneration hload
  obtain ⟨uri, huri⟩ := exists_fromUri_of_spiffeIdFromCertDer hvalid.identity
  exact SpiffeId.canonical_of_fromUri huri

theorem exists_certificate_iff :
    (∃ (parse : X509Parser) (certificate : Der),
      Credentials.checkIdentity { lib with parse := parse } id certificate = .ok ()) ↔
        id.Canonical := by
  constructor
  · rintro ⟨parse, certificate, hcheck⟩
    obtain ⟨uri, huri⟩ :=
      exists_fromUri_of_spiffeIdFromCertDer (Credentials.checkIdentity_eq_ok.mp hcheck)
    exact SpiffeId.canonical_of_fromUri huri
  · intro hid
    refine ⟨fun _ => .ok [⟨sanOid, .subjectAlternativeName [.uri id.toUri]⟩], [],
      Credentials.checkIdentity_eq_ok.mpr ?_⟩
    simp [spiffeIdFromCertDer, Extension.spiffeId?, SpiffeId.fromUri_toUri_iff.mpr hid,
      Except.toOption]

/--
The identity that an accepted configuration stands for is read back as it is written, and
some certificate passes the check of the loader, just when the configuration is
certifiable.
-/
theorem identity_attested_iff (lib : TlsLibrary) (hvalid : config.validate = .ok ()) :
    ∃ id, identity config = some id ∧
      ((SpiffeId.fromUri id.toUri = .ok id ∧ ∃ (parse : X509Parser) (certificate : Der),
        Credentials.checkIdentity { lib with parse := parse } id certificate = .ok ()) ↔
          Certifiable config) := by
  obtain ⟨hdomain, -, hidentity⟩ := Config.validate_eq_ok_iff.mp hvalid
  have hboth : ∀ id : SpiffeId, (SpiffeId.fromUri id.toUri = .ok id ∧
      ∃ (parse : X509Parser) (certificate : Der),
        Credentials.checkIdentity { lib with parse := parse } id certificate = .ok ()) ↔
          id.Canonical := by
    intro id
    rw [SpiffeId.fromUri_toUri_iff, exists_certificate_iff, and_self]
  cases hgiven : config.identity with
  | none =>
      refine ⟨_, identity_of_none hgiven hdomain, ?_⟩
      rw [hboth, canonical_fallback_iff, Certifiable, hgiven]
      simp
  | some uri =>
      obtain ⟨id, hid⟩ := hidentity uri hgiven
      refine ⟨id, identity_of_some hgiven hid, ?_⟩
      rw [hboth, Certifiable, hgiven]
      exact iff_of_true (SpiffeId.canonical_of_fromUri hid) (.inl rfl)

section Example

private def capitalDomain : Config :=
  { Config.default with trustDomain := "Cluster.Local".toList }

theorem capitalDomain_unattested :
    capitalDomain.validate = .ok () ∧
      ∃ id, identity capitalDomain = some id ∧ SpiffeId.fromUri id.toUri ≠ .ok id :=
  ⟨by decide, ⟨"Cluster.Local".toList, "default".toList, "proxy".toList⟩, by decide, by decide⟩

open TlsGeneration.Example (library) in
theorem default_attested :
    Config.default.validate = .ok () ∧ ∃ id, identity Config.default = some id ∧
      SpiffeId.fromUri id.toUri = .ok id ∧ ∃ (parse : X509Parser) (certificate : Der),
        Credentials.checkIdentity { library with parse := parse } id certificate = .ok () := by
  obtain ⟨id, hid, hattested⟩ := identity_attested_iff library Config.validate_default
  exact ⟨Config.validate_default, id, hid, hattested.mpr (.inr (by decide))⟩

end Example

/-! ## The policy -/

theorem policy_of_canonical (hid : id.Canonical) (allowAll : Bool) :
    ∃ engine, policy id allowAll = some engine ∧ ∀ source destination,
      (engine.evaluate source destination = .allow ↔
        allowAll = true ∨ source.matchesCompiled id.pattern = true ∧
          destination.matchesCompiled id.pattern = true) := by
  refine ⟨_, by rw [policy, hid.allow, Option.map_some], fun source destination => ?_⟩
  cases allowAll <;> cases hsource : source.matchesCompiled id.pattern <;>
    cases hdestination : destination.matchesCompiled id.pattern <;>
    simp [PolicyEngine.evaluate, PolicyEngine.scanNamespace, PolicyEngine.scanGlobal,
      PolicyEngine.setGlobalPolicies, PolicyEngine.setDefaultDecision, PolicyEngine.new,
      PolicyRule.scan, PolicyRule.applies, hsource, hdestination]

/--
Once the credentials are loaded the policy is built without a panic, and it allows the
workload to itself.
-/
theorem policy_allows_self
    (hload : buildGeneration lib paths id muxEnabled reads now = .ok generation)
    (allowAll : Bool) :
    ∃ engine, policy id allowAll = some engine ∧ engine.evaluate id id = .allow := by
  have hid := canonical_of_load hload
  obtain ⟨engine, hengine, hallow⟩ := policy_of_canonical hid allowAll
  exact ⟨engine, hengine,
    (hallow id id).mpr (.inr ⟨hid.matchesCompiled_self, hid.matchesCompiled_self⟩)⟩

/--
The policy allows nobody but the workload itself just when the segments of its identity
have no star.
-/
theorem policy_only_self_iff
    (hload : buildGeneration lib paths id muxEnabled reads now = .ok generation) :
    ∃ engine, policy id false = some engine ∧
      ((∀ source destination, engine.evaluate source destination = .allow →
          source = id ∧ destination = id) ↔
        '*' ∉ id.namespace ∧ '*' ∉ id.serviceAccount) := by
  have hid := canonical_of_load hload
  obtain ⟨engine, hengine, hallow⟩ := policy_of_canonical hid false
  refine ⟨engine, hengine, ?_⟩
  rw [← hid.matches_only_self_iff]
  simp only [hallow, Bool.false_eq_true, false_or]
  constructor
  · intro honly other hother
    exact (honly other other ⟨hother, hother⟩).1
  · rintro honly source destination ⟨hsource, hdestination⟩
    exact ⟨honly source hsource, honly destination hdestination⟩

section Example

open TlsGeneration.Example (library direct workload)

private def mounted : TlsCredentialPaths := TlsGeneration.Example.paths

theorem workload_allowed :
    ∃ engine, policy workload true = some engine ∧ engine.evaluate workload workload = .allow :=
  policy_allows_self
    (by rfl : buildGeneration library mounted workload true direct 0 =
      .ok (Credentials.endpoints workload true ⟨[[1, 1]], [3, 1], [], .pkcs8 [7]⟩)) true

theorem workload_only :
    ∃ engine, policy workload false = some engine ∧
      ∀ source destination, engine.evaluate source destination = .allow →
        source = workload ∧ destination = workload := by
  obtain ⟨engine, hengine, honly⟩ := policy_only_self_iff
    (by rfl : buildGeneration library mounted workload true direct 0 =
      .ok (Credentials.endpoints workload true ⟨[[1, 1]], [3, 1], [], .pkcs8 [7]⟩))
  exact ⟨engine, hengine, honly.mpr (by decide)⟩

private def starred : SpiffeId :=
  ⟨"mesh.local".toList, "default".toList, "web*".toList⟩

private def stranger : SpiffeId :=
  ⟨"mesh.local".toList, "default".toList, "website".toList⟩

private def starredLibrary : TlsLibrary :=
  { library with parse := fun _ => .ok [⟨sanOid, .subjectAlternativeName [.uri starred.toUri]⟩] }

theorem stranger_allowed :
    (buildGeneration starredLibrary mounted starred true direct 0).isOk = true ∧
      (policy starred false).map (fun engine => engine.evaluate stranger stranger) =
        some .allow ∧ stranger ≠ starred := by
  refine ⟨by decide, by decide, by decide⟩

end Example

/-! ## The default upstream -/

/-- `discovery` is what `ServiceDiscovery::resolve` answers for a name. -/
def resolveUpstream (hasDiscovery : Bool)
    (discovery : Str → Except InterlinkError ResolvedEndpoints) (target : UpstreamTarget) :
    Except InterlinkError SocketAddr :=
  match target.resolve hasDiscovery with
  | .done result => result
  | .lookup name port => (discovery name).bind (resolveHost name port)

def LookupFails (hasDiscovery : Bool)
    (discovery : Str → Except InterlinkError ResolvedEndpoints) (target : UpstreamTarget) :
    Prop :=
  ∃ name port, target.resolve hasDiscovery = .lookup name port ∧
    ∀ endpoints, discovery name = .ok endpoints → endpoints.addrs = []

/-- Both proxies find the same address, or both look the target up and find none. -/
def SameUpstream (inbound : TcpProxy) (outbound : OutboundProxy)
    (discovery : Str → Except InterlinkError ResolvedEndpoints) (target : UpstreamTarget) :
    Prop :=
  (∃ addr, resolveUpstream inbound.hasDiscovery discovery target = .ok addr ∧
    resolveUpstream outbound.hasDiscovery discovery target = .ok addr) ∨
  LookupFails inbound.hasDiscovery discovery target ∧
    LookupFails outbound.hasDiscovery discovery target

theorem of_inboundProxy {inbound : TcpProxy} (h : inboundProxy parseAddr config = some inbound) :
    inbound.defaultUpstream = UpstreamTarget.fromConfig parseAddr config.defaultUpstream ∧
      inbound.hasDiscovery = config.defaultUpstream.isNone := by
  rw [inboundProxy, TcpProxy.newWithDiscovery] at h
  obtain ⟨-, localId, rfl⟩ := OutboundProxy.of_built h
  exact ⟨rfl, rfl⟩

theorem of_outboundProxy {outbound : OutboundProxy}
    (h : outboundProxy parseAddr config = some outbound) :
    outbound.defaultUpstream = UpstreamTarget.fromConfig parseAddr config.defaultUpstream ∧
      outbound.hasDiscovery = true := by
  rw [outboundProxy, OutboundProxy.newWithDiscovery] at h
  obtain ⟨-, localId, rfl⟩ := OutboundProxy.of_built h
  exact ⟨rfl, rfl⟩

theorem fromConfig_cases {value : Str} (hvalue : value ≠ []) :
    (∃ addr, parseAddr value = some addr ∧
      UpstreamTarget.fromConfig parseAddr (some value) = some (.socket addr)) ∨
    (parseAddr value = none ∧ ∃ name port,
      UpstreamTarget.fromConfig parseAddr (some value) = some (.host name port)) := by
  cases hparse : parseAddr value with
  | some addr => exact .inl ⟨addr, rfl, by simp [UpstreamTarget.fromConfig, hvalue, hparse]⟩
  | none =>
      refine .inr ⟨rfl, ?_⟩
      simp only [UpstreamTarget.fromConfig, Option.filter_some, decide_eq_true hvalue, if_true,
        Option.map_some, hparse]
      split
      next => split <;> exact ⟨_, _, rfl⟩
      next => exact ⟨_, _, rfl⟩

/--
A host name is looked up by the outbound proxy only, since `main` gives the inbound proxy
no discovery when there is a default upstream.
-/
theorem sameUpstream_iff {inbound : TcpProxy} {outbound : OutboundProxy} {value : Str}
    (hinbound : inboundProxy parseAddr config = some inbound)
    (houtbound : outboundProxy parseAddr config = some outbound)
    (hvalue : config.defaultUpstream = some value) (hne : value ≠ [])
    (discovery : Str → Except InterlinkError ResolvedEndpoints) :
    ∃ target, inbound.defaultUpstream = some target ∧ outbound.defaultUpstream = some target ∧
      (SameUpstream inbound outbound discovery target ↔ (parseAddr value).isSome) := by
  obtain ⟨hin, hinDiscovery⟩ := of_inboundProxy hinbound
  obtain ⟨hout, houtDiscovery⟩ := of_outboundProxy houtbound
  rw [hvalue] at hin hout hinDiscovery
  rcases fromConfig_cases hne with ⟨addr, hparse, htarget⟩ | ⟨hparse, name, port, htarget⟩
  · refine ⟨.socket addr, hin.trans htarget, hout.trans htarget, ?_⟩
    rw [hparse]
    exact iff_of_true (.inl ⟨addr, rfl, rfl⟩) rfl
  · refine ⟨.host name port, hin.trans htarget, hout.trans htarget, ?_⟩
    rw [hparse]
    refine iff_of_false ?_ Bool.false_ne_true
    rintro (⟨addr, hok, -⟩ | ⟨⟨_, _, hlookup, -⟩, -⟩)
    · rw [hinDiscovery] at hok
      cases hok
    · rw [hinDiscovery] at hlookup
      cases hlookup

section Example

private def named : Config :=
  { Config.default with defaultUpstream := some "backend:8080".toList }

private def backend : Str → Except InterlinkError ResolvedEndpoints :=
  fun _ => .ok ⟨[⟨.v4 0x0a000007, 0⟩], none⟩

theorem named_differs :
    named.validate = .ok () ∧
      (inboundProxy (fun _ => none) named).bind (fun inbound => inbound.defaultUpstream.map
        (resolveUpstream inbound.hasDiscovery backend)) =
          some (.error (.dnsResolution
            "cannot resolve hostname 'backend:8080' without discovery".toList)) ∧
      (outboundProxy (fun _ => none) named).bind (fun outbound => outbound.defaultUpstream.map
        (resolveUpstream outbound.hasDiscovery backend)) = some (.ok ⟨.v4 0x0a000007, 8080⟩) := by
  decide

private def loopback : Config :=
  { Config.default with defaultUpstream := some "127.0.0.1:8081".toList }

private def parseLoopback : Str → Option SocketAddr :=
  fun _ => some ⟨.v4 0x7f000001, 8081⟩

theorem loopback_same :
    ∃ inbound outbound target, inboundProxy parseLoopback loopback = some inbound ∧
      outboundProxy parseLoopback loopback = some outbound ∧
      inbound.defaultUpstream = some target ∧ outbound.defaultUpstream = some target ∧
      SameUpstream inbound outbound backend target := by
  have hin : (inboundProxy parseLoopback loopback).isSome = true := by decide
  have hout : (outboundProxy parseLoopback loopback).isSome = true := by decide
  obtain ⟨inbound, hinbound⟩ := Option.isSome_iff_exists.mp hin
  obtain ⟨outbound, houtbound⟩ := Option.isSome_iff_exists.mp hout
  obtain ⟨target, hinTarget, houtTarget, hsame⟩ :=
    sameUpstream_iff hinbound houtbound rfl (by decide) backend
  exact ⟨inbound, outbound, target, hinbound, houtbound, hinTarget, houtTarget,
    hsame.mpr rfl⟩

end Example

/-! ## Panics -/

theorem isSome_inboundProxy (parseAddr : Str → Option SocketAddr)
    (hvalid : config.validate = .ok ()) :
    (inboundProxy parseAddr config).isSome ↔
      config.maxConnections ≤ OutboundProxy.maxPermits :=
  TcpProxy.isSome_newWithDiscovery hvalid

theorem isSome_outboundProxy (parseAddr : Str → Option SocketAddr)
    (hvalid : config.validate = .ok ()) :
    (outboundProxy parseAddr config).isSome ↔
      config.maxConnections ≤ OutboundProxy.maxPermits :=
  OutboundProxy.isSome_newWithDiscovery hvalid

/--
With a configuration that `validate` accepts, the daemon panics at its start only if it has
its credentials and its resolver and the connections are more than a semaphore can count.
-/
theorem start_eq_panicked_iff (hvalid : config.validate = .ok ()) (allowAll : Bool)
    (resolver : Except Str Unit) :
    start lib parseAddr config paths reads now allowAll resolver = .panicked ↔
      (∃ id generation, identity config = some id ∧
        buildGeneration lib paths id config.mux reads now = .ok generation) ∧
      resolver = .ok () ∧ OutboundProxy.maxPermits < config.maxConnections := by
  obtain ⟨id, hid⟩ := exists_identity hvalid
  cases hload : buildGeneration lib paths id config.mux reads now with
  | error error =>
      simp only [start, hid, hload, reduceCtorEq, false_iff]
      rintro ⟨⟨found, generation, hfound, hgeneration⟩, -⟩
      obtain rfl : id = found := Option.some.inj hfound
      cases hload.symm.trans hgeneration
  | ok generation =>
      obtain ⟨engine, hengine, -⟩ := policy_of_canonical (canonical_of_load hload) allowAll
      cases resolver with
      | error error => simp [start, hid, hload, hengine]
      | ok _ =>
          rcases Nat.lt_or_ge OutboundProxy.maxPermits config.maxConnections with hmax | hmax
          · have hnone : inboundProxy parseAddr config = none := by
              rw [← Option.not_isSome_iff_eq_none, isSome_inboundProxy parseAddr hvalid]
              exact Nat.not_le_of_lt hmax
            simp only [start, hid, hload, hengine, hnone, true_iff]
            exact ⟨⟨id, generation, rfl, hload⟩, trivial, hmax⟩
          · obtain ⟨inbound, hinbound⟩ :=
              Option.isSome_iff_exists.mp ((isSome_inboundProxy parseAddr hvalid).mpr hmax)
            obtain ⟨outbound, houtbound⟩ :=
              Option.isSome_iff_exists.mp ((isSome_outboundProxy parseAddr hvalid).mpr hmax)
            simp only [start, hid, hload, hengine, hinbound, houtbound, reduceCtorEq, false_iff]
            rintro ⟨-, -, hlt⟩
            exact absurd hlt (Nat.not_lt_of_le hmax)

section Example

open TlsGeneration.Example (library direct workload)

private def crowded : Config :=
  { Config.default with
    identity := some workload.toUri
    maxConnections := OutboundProxy.maxPermits + 1 }

theorem crowded_panics :
    crowded.validate = .ok () ∧
      start library (fun _ => none) crowded mounted direct 0 false (.ok ()) = .panicked := by
  have hvalid : crowded.validate = .ok () := by decide
  have hload : buildGeneration library mounted workload crowded.mux direct 0 =
      .ok (Credentials.endpoints workload crowded.mux ⟨[[1, 1]], [3, 1], [], .pkcs8 [7]⟩) := rfl
  exact ⟨hvalid, (start_eq_panicked_iff hvalid false (.ok ())).mpr
    ⟨⟨workload, _, by decide, hload⟩, rfl, by decide⟩⟩

end Example

end Interlink.Main
