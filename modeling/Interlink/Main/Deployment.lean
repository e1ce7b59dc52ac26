import Interlink.Main.Startup
import Interlink.Proxy.Isolation

/-!
# Daemons in one mesh

What `main` starts is a sidecar of a mesh: it has loaded certificates for its identity, both
its proxies use that identity, and its policy is made from it.  Nothing in the daemon
updates the policy later.
-/

namespace Interlink.Main

open Interlink.Foundation

/-! ## What runs -/

section Start

variable {lib : TlsLibrary} {parseAddr : Str → Option SocketAddr} {config : Config}
  {paths : TlsCredentialPaths} {reads : CredentialReads} {now : UnixTime} {allowAll : Bool}
  {resolver : Except Str Unit} {daemon : Daemon} {id : SpiffeId} {engine : PolicyEngine}

theorem eq_built {α : Type} {maxConn : Nat} {build : SpiffeId → α} {built : α}
    (hid : identity config = some id)
    (h : (if OutboundProxy.maxPermits < maxConn then none
      else (OutboundProxy.localIdOf config.toProxyConfig).map build) = some built) :
    built = build id := by
  split at h
  next => cases h
  next =>
    obtain ⟨localId, hlocalId, rfl⟩ := Option.map_eq_some_iff.mp h
    exact congrArg build (Option.some.inj (hlocalId.symm.trans hid))

theorem localId_inboundProxy {inbound : TcpProxy} (hid : identity config = some id)
    (h : inboundProxy parseAddr config = some inbound) : inbound.localId = id := by
  rw [inboundProxy, TcpProxy.newWithDiscovery] at h
  rw [eq_built hid h]

theorem localId_outboundProxy {outbound : OutboundProxy} (hid : identity config = some id)
    (h : outboundProxy parseAddr config = some outbound) : outbound.localId = id := by
  rw [outboundProxy, OutboundProxy.newWithDiscovery] at h
  rw [eq_built hid h]

structure Runs (lib : TlsLibrary) (paths : TlsCredentialPaths) (reads : CredentialReads)
    (now : UnixTime) (muxEnabled allowAll : Bool) (id : SpiffeId) (daemon : Daemon) : Prop where
  load : buildGeneration lib paths id muxEnabled reads now = .ok daemon.generation
  policy_eq : policy id allowAll = some daemon.policy
  inbound : daemon.inbound.localId = id
  outbound : daemon.outbound.localId = id

theorem runs_of_start
    (h : start lib parseAddr config paths reads now allowAll resolver = .running daemon) :
    ∃ id, Runs lib paths reads now config.mux allowAll id daemon := by
  unfold start at h
  split at h
  next => cases h
  next expected hid =>
    split at h
    next => cases h
    next generation hload =>
      split at h
      next => cases h
      next engine hengine =>
        split at h
        next => cases h
        next =>
          split at h
          next inbound outbound hinbound houtbound =>
            cases h
            exact ⟨expected, hload, hengine, localId_inboundProxy hid hinbound,
              localId_outboundProxy hid houtbound⟩
          next => cases h

/-- The policy of a start without `INTERLINK_ALLOW_ALL` has one rule, in the global list. -/
theorem restrains_policy (hid : id.Canonical) (hengine : policy id false = some engine) :
    engine.Restrains fun source destination =>
      source.matchesCompiled id.pattern = true ∧
        destination.matchesCompiled id.pattern = true := by
  rw [policy, hid.allow] at hengine
  cases hengine
  rintro source destination (hnamespace | hglobal)
  · cases hnamespace
  · by_contra hother
    simp [PolicyEngine.scanGlobal, PolicyEngine.setGlobalPolicies, PolicyEngine.new,
      PolicyRule.scan, PolicyRule.applies, hother] at hglobal

end Start

/-! ## A deployment -/

/--
Daemons that were started without `INTERLINK_ALLOW_ALL`, each with a configuration and
files of its own.
-/
structure Deployment (ι : Type) where
  lib : TlsLibrary
  parseAddr : Str → Option SocketAddr
  config : ι → Config
  paths : ι → TlsCredentialPaths
  reads : ι → CredentialReads
  now : ι → UnixTime
  daemon : ι → Daemon
  started : ∀ w, start lib parseAddr (config w) (paths w) (reads w) (now w) false (.ok ()) =
    .running (daemon w)

namespace Deployment

variable {ι : Type} (deployment : Deployment ι)

theorem exists_runs (w : ι) :
    ∃ id, Runs deployment.lib (deployment.paths w) (deployment.reads w) (deployment.now w)
      (deployment.config w).mux false id (deployment.daemon w) :=
  runs_of_start (deployment.started w)

def mesh : Mesh ι where
  parse := deployment.lib.parse
  identity w := (deployment.daemon w).outbound.localId
  node w := ⟨(deployment.daemon w).outbound, (deployment.daemon w).inbound⟩
  policy w := (deployment.daemon w).policy
  outbound_localId _ := rfl
  inbound_localId w := by
    obtain ⟨id, hruns⟩ := deployment.exists_runs w
    exact hruns.inbound.trans hruns.outbound.symm

theorem canonical (w : ι) : (deployment.mesh.identity w).Canonical := by
  obtain ⟨id, hruns⟩ := deployment.exists_runs w
  change (deployment.daemon w).outbound.localId.Canonical
  rw [hruns.outbound]
  exact canonical_of_load hruns.load

theorem restrains (w : ι) :
    (deployment.mesh.policy w).Restrains fun source destination =>
      source.matchesCompiled (deployment.mesh.identity w).pattern = true ∧
        destination.matchesCompiled (deployment.mesh.identity w).pattern = true := by
  obtain ⟨id, hruns⟩ := deployment.exists_runs w
  have hidentity : deployment.mesh.identity w = id := hruns.outbound
  rw [hidentity]
  exact restrains_policy (hidentity ▸ deployment.canonical w) hruns.policy_eq

variable {deployment} [DecidableEq ι] {events : List (Mesh.Event ι)} {s : Mesh.State ι}
  {trace : List (Mesh.Observation ι)}

/--
In a mesh of such daemons bytes pass only between workloads that match each other's
identities, and to or from an identity that has no star only between its own replicas.
-/
theorem bytes_within_workload
    (hquiet : ∀ e ∈ events, ∀ w call, e ≠ .node w (.policy call))
    (hrun : deployment.mesh.step.exec deployment.mesh.initial events = some (s, trace))
    {wire : Mesh.Wire ι} {last : ι × Node.Relay} (hwire : wire ∈ s.wires)
    (hserver : wire.server = some last) (harrived : Mesh.Arrived trace wire last) :
    (deployment.mesh.identity last.1).matchesCompiled
        (deployment.mesh.identity wire.client.1).pattern = true ∧
      (deployment.mesh.identity wire.client.1).matchesCompiled
        (deployment.mesh.identity last.1).pattern = true ∧
      ∀ w, w = wire.client.1 ∨ w = last.1 → '*' ∉ (deployment.mesh.identity w).namespace →
        '*' ∉ (deployment.mesh.identity w).serviceAccount →
          deployment.mesh.identity wire.client.1 = deployment.mesh.identity last.1 := by
  have hupdates : deployment.mesh.step.Always (Mesh.Keeps fun w source destination =>
      source.matchesCompiled (deployment.mesh.identity w).pattern = true ∧
        destination.matchesCompiled (deployment.mesh.identity w).pattern = true)
      deployment.mesh.initial events :=
    (Step.always_of_forall hquiet _).imp fun h w call heq => absurd heq (h w call)
  obtain ⟨⟨-, hclient⟩, hserved, -⟩ :=
    Mesh.permitted_of_arrived deployment.restrains hupdates hrun hwire hserver harrived
  refine ⟨hclient, hserved, ?_⟩
  rintro w (rfl | rfl) hns haccount
  · exact ((deployment.canonical _).matches_only_self_iff.mpr ⟨hns, haccount⟩ _ hclient).symm
  · exact (deployment.canonical _).matches_only_self_iff.mpr ⟨hns, haccount⟩ _ hserved

section Example

open Mesh.Example (inbound linked)
open Node.Example (application)
open TlsGeneration.Example (library direct workload)

private def replicaConfig : Config :=
  { Config.default with
    identity := some workload.toUri
    defaultUpstream := some "10.96.0.1:8080".toList }

private def replica : Daemon where
  generation := Credentials.endpoints workload true ⟨[[1, 1]], [3, 1], [], .pkcs8 [7]⟩
  policy := PolicyEngine.new.setGlobalPolicies [⟨workload.pattern, workload.pattern, .allow,
    "allow replicas of this workload identity".toList⟩]
  inbound := ⟨1024, some (.socket application), 4143, false, workload⟩
  outbound := ⟨1024, some (.socket application), true, 4140, true, workload⟩

private def twoReplicas : Deployment Bool where
  lib := library
  parseAddr _ := some application
  config _ := replicaConfig
  paths _ := TlsGeneration.Example.paths
  reads _ := direct
  now _ := 0
  daemon _ := replica
  started _ := rfl

private def callReplica : List (Mesh.Event Bool) :=
  linked ++ inbound 5 ++
    [.node false (.outbound (.relay 0 .toUpstream [0x68, 0x69])),
      .node true (.inbound (.read 0 (some [0x68, 0x69]))),
      .node true (.inbound (.written 0 2 true))]

theorem callReplica_within :
    ∃ final, twoReplicas.mesh.step.exec twoReplicas.mesh.initial callReplica = some final ∧
      Node.payload (.inbound 0) .toUpstream (Mesh.nodeTrace true final.2) = [0x68, 0x69] ∧
      twoReplicas.mesh.identity false = twoReplicas.mesh.identity true := by
  have hfinal : (twoReplicas.mesh.step.exec twoReplicas.mesh.initial callReplica).any
      (fun final =>
        final.1.wires = [⟨0, (false, .outbound 0), some (true, .inbound 0), [], []⟩] &&
          Node.payload (.inbound 0) .toUpstream (Mesh.nodeTrace true final.2) = [0x68, 0x69]) =
            true := by
    decide +kernel
  obtain ⟨final, hrun, hcheck⟩ := (Option.any_eq_true _ _).mp hfinal
  simp only [Bool.and_eq_true, decide_eq_true_eq] at hcheck
  obtain ⟨hwires, hpayload⟩ := hcheck
  have hmem : ⟨0, (false, .outbound 0), some (true, .inbound 0), [], []⟩ ∈ final.1.wires := by
    simp [hwires]
  have hquiet : ∀ e ∈ callReplica, ∀ w call, e ≠ .node w (.policy call) := by
    simp [callReplica, linked, Mesh.Example.outbound, inbound]
  have harrived : Node.payload (.inbound 0) .toUpstream (Mesh.nodeTrace true final.2) ≠ [] := by
    simp [hpayload]
  obtain ⟨-, -, hsame⟩ := bytes_within_workload hquiet hrun hmem rfl (.inl harrived)
  exact ⟨final, hrun, hpayload, hsame false (.inl rfl) (by decide) (by decide)⟩

end Example

end Deployment

end Interlink.Main
