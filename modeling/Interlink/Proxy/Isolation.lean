import Interlink.Policy.Patterns
import Interlink.Proxy.Mesh

/-!
# What policies keep apart

An evaluation takes two scans, and the policy may be updated between them.  If no engine
that is in force has a scan that allows what it should not, no evaluation does, however
the updates fall; and then no byte of such a call reaches the other side of the mesh.
-/

namespace Interlink

open Interlink.Foundation

/-! ## Engines -/

namespace PolicyEngine

/-- Neither scan allows a call that is not in `P`. -/
def Restrains (engine : PolicyEngine) (P : SpiffeId → SpiffeId → Prop) : Prop :=
  ∀ source destination, engine.scanNamespace source destination = some .allow ∨
    engine.scanGlobal source destination = .allow → P source destination

end PolicyEngine

variable {P : SpiffeId → SpiffeId → Prop}

/-! ## Decisions of a sidecar -/

section Outbound

open OutboundProxy

variable {proxy : OutboundProxy} {shared shared' : Shared} {s s' : OutboundProxy.State}
  {e : OutboundProxy.Event} {out : List OutboundProxy.Observation} {i : Nat}
  {source destination : SpiffeId}

theorem OutboundProxy.Change.permitted (h : OutboundProxy.Change proxy shared s e shared' s' out)
    (hpolicy : shared.policy.Restrains P)
    (hmem : .evaluated i source destination .allow ∈ out) : P source destination := by
  cases h with
  | move _ _ hmove =>
      cases hmove with
      | decideNamespace hscan =>
          obtain ⟨-, rfl, rfl, rfl⟩ : _ ∧ _ ∧ _ ∧ _ := by simpa using hmem
          exact hpolicy _ _ (.inl hscan)
      | decideGlobal hscan =>
          obtain ⟨-, rfl, rfl, rfl⟩ : _ ∧ _ ∧ _ ∧ _ := by simpa using hmem
          exact hpolicy _ _ (.inr hscan)
      | _ => simp at hmem
  | _ => simp at hmem

theorem OutboundProxy.Change.policy_eq
    (h : OutboundProxy.Change proxy shared s e shared' s' out) :
    shared'.policy = shared.policy := by
  cases h <;> rfl

end Outbound

section Inbound

variable {proxy : TcpProxy} {shared shared' : Shared} {s s' : TcpProxy.State}
  {e : TcpProxy.Event} {out : List TcpProxy.Observation} {i : Nat}
  {source destination : SpiffeId}

theorem TcpProxy.not_evaluated_decided (addr : SocketAddr) (tls : TlsStream)
    (decision decision' : Decision) :
    .evaluated i source destination decision' ∉ (TcpProxy.decided addr tls decision).2 := by
  cases decision with
  | allow => cases hmux : tls.session.negotiatedMux <;> simp [TcpProxy.decided, hmux]
  | deny reason => simp [TcpProxy.decided]

theorem TcpProxy.Change.permitted (h : TcpProxy.Change proxy shared s e shared' s' out)
    (hpolicy : shared.policy.Restrains P)
    (hmem : .evaluated i source destination .allow ∈ out) : P source destination := by
  cases h with
  | move _ hmove =>
      cases hmove with
      | decideNamespace hscan =>
          rcases List.mem_append.mp hmem with hmem | hmem
          · obtain ⟨-, rfl, rfl, rfl⟩ : _ ∧ _ ∧ _ ∧ _ := by simpa using hmem
            exact hpolicy _ _ (.inl hscan)
          · exact absurd hmem (not_evaluated_decided _ _ _ _)
      | decideGlobal hscan =>
          rcases List.mem_append.mp hmem with hmem | hmem
          · obtain ⟨-, rfl, rfl, rfl⟩ : _ ∧ _ ∧ _ ∧ _ := by simpa using hmem
            exact hpolicy _ _ (.inr hscan)
          · exact absurd hmem (not_evaluated_decided _ _ _ _)
      | _ => simp at hmem
  | _ => simp at hmem

theorem TcpProxy.Change.policy_eq (h : TcpProxy.Change proxy shared s e shared' s' out) :
    shared'.policy = shared.policy := by
  cases h <;> rfl

end Inbound

namespace Node

def Observation.Permitted (P : SpiffeId → SpiffeId → Prop) (o : Observation) : Prop :=
  ∀ i source destination, o = .outbound (.evaluated i source destination .allow) ∨
    o = .inbound (.evaluated i source destination .allow) → P source destination

variable {node : Node} {s s' : State} {e : Event} {out : List Observation}

theorem Change.permitted (h : Change node s e s' out) (hpolicy : s.shared.policy.Restrains P) :
    ∀ o ∈ out, o.Permitted P := by
  rintro o hmem i source destination (rfl | rfl)
  · cases h with
    | outbound hchange => exact hchange.permitted hpolicy (by simpa using hmem)
    | inbound hchange => simp at hmem
    | _ => cases hmem
  · cases h with
    | inbound hchange => exact hchange.permitted hpolicy (by simpa using hmem)
    | outbound hchange => simp at hmem
    | _ => cases hmem

theorem Change.restrains (h : Change node s e s' out) (hpolicy : s.shared.policy.Restrains P)
    (hupdate : ∀ call, e = .policy call → (s.shared.policy.apply call).Restrains P) :
    s'.shared.policy.Restrains P := by
  cases h with
  | outbound hchange =>
      rw [hchange.policy_eq]
      exact hpolicy
  | inbound hchange =>
      rw [hchange.policy_eq]
      exact hpolicy
  | policy call => exact hupdate call rfl
  | evictIdentity leafDer => exact hpolicy

end Node

/-! ## Decisions in a mesh -/

namespace Mesh

variable {ι : Type} [DecidableEq ι] {mesh : Mesh ι} {s s' : State ι} {e : Event ι}
  {trace out : List (Observation ι)} {events : List (Event ι)}
  {P : ι → SpiffeId → SpiffeId → Prop}

structure Steps (mesh : Mesh ι) (s : State ι) (e : Event ι) (w : ι) (event : Node.Event)
    (s' : State ι) (out : List (Observation ι)) : Prop where
  exists_step : ∃ next observed, (mesh.node w).step (s.nodes w) event = some (next, observed) ∧
    s'.nodes = Function.update s.nodes w next ∧ out = observed.map fun o => (w, o)
  update : ∀ call, event = .policy call → e = .node w (.policy call)

theorem steps_of_map {w : ι} {event : Node.Event}
    {f : State ι × List (Observation ι) → State ι × List (Observation ι)}
    (h : (mesh.advance s w event).map f = some (s', out))
    (hf : ∀ next, (f next).1.nodes = next.1.nodes ∧ (f next).2 = next.2)
    (hevent : ∀ call, event ≠ .policy call) : Steps mesh s e w event s' out := by
  obtain ⟨next, hadvance, heq⟩ := Option.map_eq_some_iff.mp h
  obtain ⟨hnodes, hout⟩ := hf next
  rw [heq] at hnodes hout
  obtain ⟨node, observed, hstep, hupdate, hobserved⟩ :=
    (advances_of_advance hadvance).exists_step
  exact ⟨⟨node, observed, hstep, hnodes.trans hupdate, hout.trans hobserved⟩,
    fun call heq => absurd heq (hevent call)⟩

omit [DecidableEq ι] in
theorem nodes_addLink (s : State ι) (link : Link ι) (i : Nat) :
    (s.addLink link i).nodes = s.nodes := by
  unfold State.addLink
  split <;> rfl

theorem exists_steps (h : mesh.step s e = some (s', out)) :
    ∃ w event, Steps mesh s e w event s' out := by
  cases e with
  | node w event =>
      simp only [Mesh.step, Option.ite_none_right_eq_some] at h
      refine ⟨w, event, (advances_of_advance h.2).exists_step, ?_⟩
      rintro call rfl
      rfl
  | connect client i server chain alpn resumed =>
      simp only [Mesh.step, Mesh.connect, Option.ite_none_right_eq_some] at h
      exact ⟨client, _, steps_of_map h.2 (fun next => ⟨nodes_addLink _ _ _, rfl⟩) (by simp)⟩
  | accept l j chain resumed =>
      obtain ⟨link, -, haccept⟩ := Option.bind_eq_some_iff.mp h
      simp only [Mesh.accept, Option.ite_none_right_eq_some] at haccept
      exact ⟨link.server, _, steps_of_map haccept.2 (fun next => ⟨rfl, rfl⟩) (by simp)⟩
  | openStream w i l =>
      simp only [Mesh.step, Mesh.openStream] at h
      split at h
      next =>
        simp only [Option.ite_none_right_eq_some] at h
        exact ⟨w, _, steps_of_map h.2 (fun next => ⟨rfl, rfl⟩) (by simp)⟩
      next => cases h
  | acceptStream w j m =>
      simp only [Mesh.step, Mesh.acceptStream] at h
      split at h
      next =>
        simp only [Option.ite_none_right_eq_some] at h
        exact ⟨w, _, steps_of_map h.2 (fun next => ⟨rfl, rfl⟩) (by simp)⟩
      next => cases h

def Keeps (P : ι → SpiffeId → SpiffeId → Prop) (s : State ι) (e : Event ι) : Prop :=
  ∀ w call, e = .node w (.policy call) →
    ((s.nodes w).shared.policy.apply call).Restrains (P w)

structure Restrained (P : ι → SpiffeId → SpiffeId → Prop) (trace : List (Observation ι))
    (s : State ι) : Prop where
  policies : ∀ w, (s.nodes w).shared.policy.Restrains (P w)
  permitted : ∀ w, ∀ o ∈ nodeTrace w trace, o.Permitted (P w)

theorem Restrained.step (h : Restrained P trace s) (hkeeps : Keeps P s e)
    (hstep : mesh.step s e = some (s', out)) : Restrained P (trace ++ out) s' := by
  obtain ⟨w, event, ⟨next, observed, hnode, hnodes, rfl⟩, hupdate⟩ := exists_steps hstep
  have hchange := Node.step_change hnode
  refine ⟨fun v => ?_, fun v o hmem => ?_⟩
  · rw [hnodes]
    by_cases hv : v = w
    · subst hv
      rw [Function.update_self]
      exact hchange.restrains (h.policies v) fun call heq => hkeeps v call (hupdate call heq)
    · rw [Function.update_of_ne hv]
      exact h.policies v
  · rw [nodeTrace_append, nodeTrace_map] at hmem
    rcases List.mem_append.mp hmem with hold | hnew
    · exact h.permitted v o hold
    · split at hnew
      next heq =>
        subst heq
        exact hchange.permitted (h.policies w) o hnew
      next => cases hnew

theorem restrained_of_run (hpolicy : ∀ w, (mesh.policy w).Restrains (P w))
    (hkeeps : mesh.step.Always (Keeps P) mesh.initial events)
    (hrun : mesh.step.exec mesh.initial events = some (s, trace)) : Restrained P trace s := by
  have hinitial : Restrained P ([] : List (Observation ι)) mesh.initial :=
    ⟨hpolicy, fun w o hmem => absurd hmem (by simp [nodeTrace])⟩
  exact Step.invariant_of_always (fun h hC hstep => h.step hC hstep) hinitial hkeeps hrun

def Arrived (trace : List (Observation ι)) (wire : Wire ι) (last : ι × Node.Relay) : Prop :=
  Node.payload last.2 .toUpstream (nodeTrace last.1 trace) ≠ [] ∨
    Node.payload wire.client.2 .toClient (nodeTrace wire.client.1 trace) ≠ []

/-- A byte comes out only where both engines may allow the call. -/
theorem permitted_of_arrived (hpolicy : ∀ w, (mesh.policy w).Restrains (P w))
    (hkeeps : mesh.step.Always (Keeps P) mesh.initial events)
    (hrun : mesh.step.exec mesh.initial events = some (s, trace)) {wire : Wire ι}
    {last : ι × Node.Relay} (hwire : wire ∈ s.wires) (hserver : wire.server = some last)
    (harrived : Arrived trace wire last) :
    P wire.client.1 (mesh.identity wire.client.1) (mesh.identity last.1) ∧
      P last.1 (mesh.identity wire.client.1) (mesh.identity last.1) := by
  have hrestrained := restrained_of_run hpolicy hkeeps hrun
  obtain ⟨i, hclient, -, -, hallowed⟩ := (inv_of_run hrun).end_to_end hwire hserver
  rw [Arrived, hclient] at harrived
  obtain ⟨hfirst, j, hlast⟩ := hallowed harrived
  exact ⟨hrestrained.permitted _ _ hfirst i _ _ (.inl rfl),
    hrestrained.permitted _ _ hlast j _ _ (.inr rfl)⟩

/-! ## Blocklists -/

/--
The rule comes first in the global list, and no rule of a namespace allows the call.  Such
a rule would be found before it.
-/
structure Blocks (rule : PolicyRule) (source destination : SpiffeId) (engine : PolicyEngine) :
    Prop where
  first : engine.globalPolicies.head? = some rule
  unmatched : engine.scanNamespace source destination ≠ some .allow

theorem matchesCompiled_any (id : SpiffeId) : id.matchesCompiled .any = true := by
  have hall (segment : Str) : segment ∈ Glob.language '*' ['*'] := by
    rw [Glob.language_wild]
    trivial
  exact (id.matchesCompiled_iff .any).mpr ⟨.inl rfl, hall _, hall _⟩

theorem scanGlobal_of_deny {pattern description : Str} {rule : PolicyRule}
    {source destination : SpiffeId} {engine : PolicyEngine}
    (hrule : Patterns.deny pattern description = some rule)
    (hsource : source.matchesCompiled rule.source = true)
    (hfirst : engine.globalPolicies.head? = some rule) :
    engine.scanGlobal source destination = .deny "blocklisted source".toList := by
  obtain ⟨compiled, -, heq⟩ := Option.bind_eq_some_iff.mp hrule
  cases heq
  obtain ⟨others, hothers⟩ := List.head?_eq_some_iff.mp hfirst
  simp [PolicyEngine.scanGlobal, hothers, PolicyRule.scan, PolicyRule.applies, hsource,
    matchesCompiled_any]

/--
A source on the blocklist of a server gets nothing through to it and nothing back, as long
as every update of the server's policy leaves the blocklist in force.
-/
theorem blocklisted_excluded {pattern description : Str} {rule : PolicyRule}
    (hrule : Patterns.deny pattern description = some rule) {client server : ι}
    (hsource : (mesh.identity client).matchesCompiled rule.source = true)
    (hblocks : Blocks rule (mesh.identity client) (mesh.identity server) (mesh.policy server))
    (hkeeps : mesh.step.Always (fun s e => ∀ call, e = .node server (.policy call) →
      Blocks rule (mesh.identity client) (mesh.identity server)
        ((s.nodes server).shared.policy.apply call)) mesh.initial events)
    (hrun : mesh.step.exec mesh.initial events = some (s, trace)) {wire : Wire ι}
    {relay : Node.Relay} (hwire : wire ∈ s.wires) (hclient : wire.client.1 = client)
    (hserver : wire.server = some (server, relay)) :
    Node.payload relay .toUpstream (nodeTrace server trace) = [] ∧
      Node.payload wire.client.2 .toClient (nodeTrace client trace) = [] := by
  -- what the server's engine must not allow is this one call
  let P : ι → SpiffeId → SpiffeId → Prop := fun w source destination =>
    ¬ (w = server ∧ source = mesh.identity client ∧ destination = mesh.identity server)
  have hrestrains : ∀ w engine,
      (w = server → Blocks rule (mesh.identity client) (mesh.identity server) engine) →
        engine.Restrains (P w) := by
    rintro w engine hengine source destination hallow ⟨rfl, rfl, rfl⟩
    have hblocked := hengine rfl
    rcases hallow with hnamespace | hglobal
    · exact hblocked.unmatched hnamespace
    · rw [scanGlobal_of_deny hrule hsource hblocked.first] at hglobal
      cases hglobal
  have hpolicy : ∀ w, (mesh.policy w).Restrains (P w) := fun w =>
    hrestrains w _ fun hw => hw ▸ hblocks
  have hupdates : mesh.step.Always (Keeps P) mesh.initial events := by
    refine hkeeps.imp fun hC w call heq => hrestrains w _ ?_
    rintro rfl
    exact hC call heq
  have hsilent : ¬ Arrived trace wire (server, relay) := by
    intro harrived
    obtain ⟨-, hlast⟩ := permitted_of_arrived hpolicy hupdates hrun hwire hserver harrived
    exact hlast ⟨rfl, by rw [hclient], rfl⟩
  subst hclient
  simpa [Arrived] using hsilent

section Example

open Example Node.Example

private def blocked : PolicyRule :=
  ⟨workload.pattern, .any, .deny "blocklisted source".toList, "withdrawn".toList⟩

private def guarded : Mesh Bool :=
  { replicas with
    policy := fun w =>
      if w then allowAny.setGlobalPolicies (blocked :: allowAny.globalPolicies) else allowAny }

/--
The first replica has written two bytes.  Between the two scans of its evaluation the
second gets a shorter list, which still begins with the blocklist.
-/
private def turnedAway : List (Event Bool) :=
  linked ++ [.node false (.outbound (.relay 0 .toUpstream [0x68, 0x69]))] ++ inbound 4 ++
    [.node true (.policy (.setGlobalPolicies [blocked]))] ++ inbound 1

private def keepsBlocked (s : State Bool) : Event Bool → Bool
  | .node true (.policy call) =>
      let engine := (s.nodes true).shared.policy.apply call
      engine.globalPolicies.head? = some blocked &&
        engine.scanNamespace workload workload ≠ some .allow
  | _ => true

private theorem blocks_of_keepsBlocked {s : State Bool} {e : Event Bool}
    (h : keepsBlocked s e = true) (call : PolicyEngine.Call)
    (he : e = .node true (.policy call)) :
    Blocks blocked workload workload ((s.nodes true).shared.policy.apply call) := by
  subst he
  obtain ⟨hfirst, hunmatched⟩ := Bool.and_eq_true_iff.mp h
  exact ⟨of_decide_eq_true hfirst, of_decide_eq_true hunmatched⟩

theorem turnedAway_excluded :
    ∃ final, guarded.step.exec guarded.initial turnedAway = some final ∧
      final.1.wires = [⟨0, (false, .outbound 0), some (true, .inbound 0), [0x68, 0x69], []⟩] ∧
      (final.1.nodes true).shared.policy.globalPolicies = [blocked] ∧
      Node.payload (.inbound 0) .toUpstream (nodeTrace true final.2) = [] ∧
      Node.payload (.outbound 0) .toClient (nodeTrace false final.2) = [] := by
  have hfinal : (guarded.step.exec guarded.initial turnedAway).any (fun final =>
      final.1.wires =
          [⟨0, (false, .outbound 0), some (true, .inbound 0), [0x68, 0x69], []⟩] &&
        (final.1.nodes true).shared.policy.globalPolicies = [blocked]) = true := by
    decide +kernel
  have hkeeps : guarded.step.Always (fun s e => keepsBlocked s e = true) guarded.initial
      turnedAway := by
    decide +kernel
  obtain ⟨final, hrun, hcheck⟩ := (Option.any_eq_true _ _).mp hfinal
  simp only [Bool.and_eq_true, decide_eq_true_eq] at hcheck
  obtain ⟨hwires, hupdated⟩ := hcheck
  have hmem : ⟨0, (false, .outbound 0), some (true, .inbound 0), [0x68, 0x69], []⟩ ∈
      final.1.wires := by
    simp [hwires]
  have hrule : Patterns.deny workload.toUri "withdrawn".toList = some blocked := by decide
  have hsource : (guarded.identity false).matchesCompiled blocked.source = true := by decide
  have hblocks : Blocks blocked (guarded.identity false) (guarded.identity true)
      (guarded.policy true) :=
    ⟨rfl, by decide⟩
  obtain ⟨hserved, hreplied⟩ := blocklisted_excluded hrule hsource hblocks
    (hkeeps.imp fun h call heq => blocks_of_keepsBlocked h call heq) hrun hmem rfl rfl
  exact ⟨final, hrun, hwires, hupdated, hserved, hreplied⟩

end Example

end Mesh

end Interlink
