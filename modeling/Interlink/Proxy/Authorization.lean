import Interlink.Proxy.InboundAuthorization
import Interlink.Proxy.Node
import Interlink.Proxy.OutboundAuthorization

/-!
# Authorization across a run

Every byte that a sidecar relays was authorized for the peer of the session that
carries it.  On the inbound side the authorization is made once for a tunnel:
the second half of this file says when its streams can rely on it.
-/

namespace Interlink.Node

open Interlink.Foundation

variable {node : Node} {parse : X509Parser} {policy : PolicyEngine} {events : List Event}
  {s s' : State} {e : Event} {trace out : List Observation}

/-! ## Relayed bytes -/

def RelayAuthorized (node : Node) (parse : X509Parser) (before : List Observation) :
    Observation → Prop
  | .outbound o =>
      OutboundProxy.RelayAuthorized parse node.outbound.localId (outboundTrace before) o
  | .inbound o =>
      TcpProxy.RelayAuthorized parse node.inbound.localId (inboundTrace before) o

structure Authorized (node : Node) (parse : X509Parser) (trace : List Observation)
    (s : State) : Prop where
  parser : s.shared.parse = parse
  cache : s.shared.identityCache.Sound parse
  outbound : OutboundProxy.Invariant parse node.outbound.localId (outboundTrace trace)
    s.outbound
  inbound : TcpProxy.Invariant parse node.inbound.localId (inboundTrace trace) s.inbound

theorem Authorized.step (h : Authorized node parse trace s) (hchange : Change node s e s' out) :
    Authorized node parse (trace ++ out) s' := by
  obtain ⟨rfl, hcache, houtbound, hinbound⟩ := h
  cases hchange with
  | outbound hchange =>
      obtain ⟨hparse, hsound⟩ := OutboundProxy.sound_of_change houtbound hcache hchange
      refine ⟨hparse, hsound, ?_, ?_⟩
      · rw [outboundTrace_append, outboundTrace_map_outbound]
        exact houtbound.step hcache hchange
      · rw [inboundTrace_append, inboundTrace_map_outbound, List.append_nil]
        exact hinbound
  | inbound hchange =>
      obtain ⟨hparse, hsound⟩ := TcpProxy.sound_of_change hinbound hcache hchange
      refine ⟨hparse, hsound, ?_, ?_⟩
      · rw [outboundTrace_append, outboundTrace_map_inbound, List.append_nil]
        exact houtbound
      · rw [inboundTrace_append, inboundTrace_map_inbound]
        exact hinbound.step hcache hchange
  | policy call =>
      rw [List.append_nil]
      exact ⟨rfl, hcache, houtbound, hinbound⟩
  | evictIdentity leafDer =>
      rw [List.append_nil]
      exact ⟨rfl, hcache.evict leafDer, houtbound, hinbound⟩

theorem Authorized.initial (node : Node) (parse : X509Parser) (policy : PolicyEngine) :
    Authorized node parse [] (node.initial parse policy) :=
  ⟨rfl, .empty, .initial node.outbound parse, .initial node.inbound parse⟩

/--
No byte is relayed unless the policy allowed the peer of the session that carries
it, on the outbound side inside the `route` call that returned the stream.
-/
theorem relayed_authorized
    (hrun : node.step.exec (node.initial parse policy) events = some (s, trace)) :
    Preceded (node.RelayAuthorized parse) trace := by
  have hlast : Authorized node parse trace s :=
    Step.invariant (fun h hs => h.step (step_change hs)) (.initial node parse policy) hrun
  intro before o after heq
  cases o with
  | outbound o =>
      refine hlast.outbound.relays (outboundTrace before) o (outboundTrace after) ?_
      rw [heq, outboundTrace_append]
      rfl
  | inbound o =>
      refine hlast.inbound.relays (inboundTrace before) o (inboundTrace after) ?_
      rw [heq, inboundTrace_append]
      rfl

/-! ## Streams of a tunnel that is already open -/

def StreamsChecked (node : Node) (s : State) : Event → Prop
  | .inbound (.acceptStream i) =>
      ∀ (addr : SocketAddr) (tls : TlsStream),
        s.inbound.conns[i]? = some (.handling addr (.serving tls)) →
          s.shared.policy.evaluate tls.peerIdentity node.inbound.localId = .allow
  | _ => True

/-- What a policy must still say about a connection that has been, or is being, evaluated. -/
def Keeps (localId : SpiffeId) (policy : PolicyEngine) : TcpProxy.Conn → Prop
  | .handling _ (.serving tls) => policy.evaluate tls.peerIdentity localId = .allow
  | .handling _ (.evaluatingGlobal tls) =>
      policy.scanNamespace tls.peerIdentity localId = none
  | _ => True

/--
An update of the policy still allows the peers of the open tunnels, and adds no
rule for the namespace that an evaluation has just scanned and that matches it.
-/
def KeepsPeers (node : Node) (s : State) : Event → Prop
  | .policy call =>
      ∀ conn ∈ s.inbound.conns,
        Keeps node.inbound.localId (s.shared.policy.apply call) conn
  | _ => True

instance (localId : SpiffeId) (policy : PolicyEngine) :
    DecidablePred (Keeps localId policy) := fun conn =>
  match conn with
  | .handling _ (.serving _) | .handling _ (.evaluatingGlobal _) =>
      inferInstanceAs (Decidable (_ = _))
  | .handling _ (.joining _ _) | .handling _ (.evaluating _) | .handling _ (.detecting _)
  | .handling _ (.forwarding _ _) | .handling _ (.relaying _) | .accepted _ | .spawned _
  | .resolving _ | .leaving | .releasing | .finished => isTrue trivial

instance (node : Node) (s : State) : DecidablePred (node.KeepsPeers s) := fun e =>
  match e with
  | .policy _ => inferInstanceAs (Decidable (∀ conn ∈ s.inbound.conns, _))
  | .outbound _ | .inbound _ | .evictIdentity _ => isTrue trivial

section Keeps

variable {proxy : TcpProxy} {shared shared' : Shared} {t t' : TcpProxy.State} {i : Nat}
  {addr : SocketAddr} {pc : TcpProxy.Pc} {effect : TcpProxy.Effect} {conn : TcpProxy.Conn}
  {event : TcpProxy.Event} {observed : List TcpProxy.Observation}

private theorem keeps_decided {localId : SpiffeId} {engine : PolicyEngine} {tls : TlsStream}
    {decision : Decision}
    (h : engine.evaluate tls.peerIdentity localId = decision) :
    Keeps localId engine (TcpProxy.decided addr tls decision).1 := by
  cases decision with
  | allow =>
      simp only [TcpProxy.decided]
      split
      next => exact h
      next => trivial
  | deny reason => trivial

private theorem keeps_move (h : TcpProxy.Move proxy shared t i addr pc effect conn observed)
    (hpc : Keeps proxy.localId shared.policy (.handling addr pc)) :
    Keeps proxy.localId shared.policy conn := by
  cases h
  case scan hscan => exact hscan
  case decideNamespace hscan =>
    exact keeps_decided (by rw [PolicyEngine.evaluate, hscan, Option.getD_some])
  case decideGlobal hscan =>
    have hnone : shared.policy.scanNamespace _ proxy.localId = none := hpc
    exact keeps_decided (by rw [PolicyEngine.evaluate, hnone, Option.getD_none, hscan])
  case acceptStream => exact hpc
  all_goals trivial

private theorem keeps_change
    (hchange : TcpProxy.Change proxy shared t event shared' t' observed)
    (h : ∀ conn ∈ t.conns, Keeps proxy.localId shared.policy conn) :
    shared'.policy = shared.policy ∧
      ∀ conn ∈ t'.conns, Keeps proxy.localId shared.policy conn := by
  refine ⟨by cases hchange <;> rfl, ?_⟩
  cases hchange with
  | accept => exact Tasks.forall_mem_append h trivial
  | start | begin | enter | unresolved | leave | release =>
      exact Tasks.forall_mem_set h trivial
  | move hi hmove =>
      exact Tasks.forall_mem_set h (keeps_move hmove (h _ (List.mem_of_getElem? hi)))
  | _ => exact h

end Keeps

private theorem policy_of_outbound {proxy : OutboundProxy} {shared shared' : Shared}
    {t t' : OutboundProxy.State} {event : OutboundProxy.Event}
    {observed : List OutboundProxy.Observation}
    (hchange : OutboundProxy.Change proxy shared t event shared' t' observed) :
    shared'.policy = shared.policy := by
  cases hchange <;> rfl

theorem keeps_step
    (h : ∀ conn ∈ s.inbound.conns, Keeps node.inbound.localId s.shared.policy conn)
    (hkeeps : node.KeepsPeers s e) (hchange : Change node s e s' out) :
    ∀ conn ∈ s'.inbound.conns, Keeps node.inbound.localId s'.shared.policy conn := by
  cases hchange with
  | outbound hchange =>
      rw [policy_of_outbound hchange]
      exact h
  | inbound hchange =>
      obtain ⟨hpolicy, hconns⟩ := keeps_change hchange h
      rw [hpolicy]
      exact hconns
  | policy call => exact hkeeps
  | evictIdentity leafDer => exact h

/--
While updates keep the peers of open tunnels allowed, every stream is accepted
under a policy that allows it.
-/
theorem streamsChecked_of_keepsPeers
    (hkeeps : node.step.Always node.KeepsPeers (node.initial parse policy) events) :
    node.step.Always node.StreamsChecked (node.initial parse policy) events := by
  refine Step.Always.of_invariant
    (J := fun s => ∀ conn ∈ s.inbound.conns,
      Keeps node.inbound.localId s.shared.policy conn)
    (fun h hC hs => keeps_step h hC (step_change hs)) (fun {s e} h => ?_)
    (by simp [initial, TcpProxy.initial]) hkeeps
  unfold StreamsChecked
  split
  next i =>
    intro addr tls hi
    exact h _ (List.mem_of_getElem? hi)
  next => trivial

/-! ## A sidecar and its replica -/

section Example

open Example

private def outboundRelay : List OutboundProxy.Event :=
  [OutboundProxy.Event.accept none] ++ List.replicate 8 (OutboundProxy.Event.run 0) ++
    [OutboundProxy.Event.handshaken 0 muxHandshake] ++
    List.replicate 8 (OutboundProxy.Event.run 0) ++ [OutboundProxy.Event.opened 0 true] ++
    List.replicate 2 (OutboundProxy.Event.run 0) ++
    [OutboundProxy.Event.relay 0 .toUpstream [0x68, 0x69]]

private def openTunnel : List TcpProxy.Event :=
  [TcpProxy.Event.accept none] ++ List.replicate 3 (TcpProxy.Event.run 0) ++
    [TcpProxy.Event.handshaken 0 muxHandshake, .dialed 0 true] ++
    List.replicate 5 (TcpProxy.Event.run 0)

private def relayStream : List TcpProxy.Event :=
  [.acceptStream 0, .runStream 0, .streamDialed 0 true,
    .streamRelay 0 .toUpstream [0x68, 0x69]]

private def carrier : TlsStream := ⟨⟨0, some [svid], some alpnMux⟩, workload⟩

theorem outboundRelay_authorized :
    ∃ last, sidecar.step.exec (sidecar.initial readSvid allowAny)
        (outboundRelay.map .outbound) = some last ∧
      .outbound (.relayed 0 (.muxStream ⟨0, workload, carrier.session⟩) .toUpstream
        [0x68, 0x69]) ∈ last.2 ∧
      Preceded (sidecar.RelayAuthorized readSvid) last.2 := by
  have hrelayed : (sidecar.step.exec (sidecar.initial readSvid allowAny)
      (outboundRelay.map .outbound)).any (fun last =>
        last.2.contains (.outbound (.relayed 0 (.muxStream ⟨0, workload, carrier.session⟩)
          .toUpstream [0x68, 0x69]))) = true := by
    decide +kernel
  obtain ⟨last, hlast, hmem⟩ := (Option.any_eq_true _ _).mp hrelayed
  exact ⟨last, hlast, List.contains_iff_mem.mp hmem, relayed_authorized hlast⟩

/-- The peer of an open tunnel loses its permission and is still served. -/
theorem relayStream_after_deny :
    (sidecar.step.exec (sidecar.initial readSvid allowAny)
      (openTunnel.map .inbound ++ [.policy (.setGlobalPolicies [])])).map
        (fun last => last.1.shared.policy.evaluate workload workload) =
      some (.deny "no matching policy".toList) ∧
    (sidecar.step.exec (sidecar.initial readSvid allowAny)
      (openTunnel.map .inbound ++ [.policy (.setGlobalPolicies [])] ++
        relayStream.map .inbound)).any (fun last =>
          last.2.contains (.inbound (.streamAccepted 0 0 carrier)) &&
          last.2.contains (.inbound (.relayed 0 (some 0) carrier .toUpstream
            [0x68, 0x69]))) = true := by
  decide +kernel

private def reload : List Event :=
  [.policy (.setGlobalPolicies [⟨.any, .any, .allow, "reloaded".toList⟩])]

theorem openTunnel_streamsChecked :
    sidecar.step.Always sidecar.KeepsPeers (sidecar.initial readSvid allowAny)
        (openTunnel.map .inbound ++ reload ++ relayStream.map .inbound) ∧
      sidecar.step.Always sidecar.StreamsChecked (sidecar.initial readSvid allowAny)
        (openTunnel.map .inbound ++ reload ++ relayStream.map .inbound) := by
  have hkeeps : sidecar.step.Always sidecar.KeepsPeers (sidecar.initial readSvid allowAny)
      (openTunnel.map .inbound ++ reload ++ relayStream.map .inbound) := by
    decide +kernel
  exact ⟨hkeeps, streamsChecked_of_keepsPeers hkeeps⟩

end Example

end Interlink.Node
