import Interlink.Proxy.InboundMoves
import Interlink.Proxy.OutboundMoves

/-!
# A running sidecar

Both proxies of a sidecar, interleaved with updates of the policy and with
evictions from the identity cache.
-/

namespace Interlink

open Interlink.Foundation

structure Node where
  outbound : OutboundProxy
  inbound : TcpProxy

namespace Node

structure State where
  shared : Shared
  outbound : OutboundProxy.State
  inbound : TcpProxy.State

inductive Event where
  | outbound (event : OutboundProxy.Event)
  | inbound (event : TcpProxy.Event)
  | policy (call : PolicyEngine.Call)
  | evictIdentity (leafDer : Der)

inductive Observation where
  | outbound (observation : OutboundProxy.Observation)
  | inbound (observation : TcpProxy.Observation)
  deriving DecidableEq

def initial (node : Node) (parse : X509Parser) (policy : PolicyEngine) : State where
  shared := ⟨parse, policy, .empty⟩
  outbound := node.outbound.initial
  inbound := node.inbound.initial

def step (node : Node) : Step State Event Observation
  | s, .outbound event =>
      (node.outbound.step s.shared s.outbound event).map fun (shared, outbound, out) =>
        ({ s with shared := shared, outbound := outbound }, out.map .outbound)
  | s, .inbound event =>
      (node.inbound.step s.shared s.inbound event).map fun (shared, inbound, out) =>
        ({ s with shared := shared, inbound := inbound }, out.map .inbound)
  | s, .policy call =>
      some ({ s with shared := { s.shared with policy := s.shared.policy.apply call } }, [])
  | s, .evictIdentity leafDer =>
      some ({ s with shared :=
        { s.shared with identityCache := s.shared.identityCache.evict leafDer } }, [])

inductive Change (node : Node) (s : State) : Event → State → List Observation → Prop
  | outbound {event shared outbound out}
      (hchange : OutboundProxy.Change node.outbound s.shared s.outbound event shared outbound
        out) :
      Change node s (.outbound event) { s with shared := shared, outbound := outbound }
        (out.map .outbound)
  | inbound {event shared inbound out}
      (hchange : TcpProxy.Change node.inbound s.shared s.inbound event shared inbound out) :
      Change node s (.inbound event) { s with shared := shared, inbound := inbound }
        (out.map .inbound)
  | policy (call : PolicyEngine.Call) :
      Change node s (.policy call)
        { s with shared := { s.shared with policy := s.shared.policy.apply call } } []
  | evictIdentity (leafDer : Der) :
      Change node s (.evictIdentity leafDer) { s with shared :=
        { s.shared with identityCache := s.shared.identityCache.evict leafDer } } []

theorem step_change {node : Node} {s s' : State} {e : Event} {out : List Observation}
    (h : node.step s e = some (s', out)) : Change node s e s' out := by
  cases e with
  | outbound event =>
      obtain ⟨⟨shared, outbound, out⟩, hstep, heq⟩ := Option.map_eq_some_iff.mp h
      cases heq
      exact .outbound (OutboundProxy.step_change hstep)
  | inbound event =>
      obtain ⟨⟨shared, inbound, out⟩, hstep, heq⟩ := Option.map_eq_some_iff.mp h
      cases heq
      exact .inbound (TcpProxy.step_change hstep)
  | policy call =>
      cases h
      exact .policy call
  | evictIdentity leafDer =>
      cases h
      exact .evictIdentity leafDer

/-! ## The view of one proxy -/

def outboundTrace (trace : List Observation) : List OutboundProxy.Observation :=
  trace.filterMap fun
    | .outbound observation => some observation
    | .inbound _ => none

def inboundTrace (trace : List Observation) : List TcpProxy.Observation :=
  trace.filterMap fun
    | .inbound observation => some observation
    | .outbound _ => none

@[simp]
theorem outboundTrace_append (l r : List Observation) :
    outboundTrace (l ++ r) = outboundTrace l ++ outboundTrace r :=
  List.filterMap_append

@[simp]
theorem inboundTrace_append (l r : List Observation) :
    inboundTrace (l ++ r) = inboundTrace l ++ inboundTrace r :=
  List.filterMap_append

@[simp]
theorem outboundTrace_map_outbound (out : List OutboundProxy.Observation) :
    outboundTrace (out.map .outbound) = out := by
  simp [outboundTrace, List.filterMap_map]

@[simp]
theorem outboundTrace_map_inbound (out : List TcpProxy.Observation) :
    outboundTrace (out.map .inbound) = [] := by
  simp [outboundTrace, List.filterMap_map]

@[simp]
theorem inboundTrace_map_inbound (out : List TcpProxy.Observation) :
    inboundTrace (out.map .inbound) = out := by
  simp [inboundTrace, List.filterMap_map]

@[simp]
theorem inboundTrace_map_outbound (out : List OutboundProxy.Observation) :
    inboundTrace (out.map .outbound) = [] := by
  simp [inboundTrace, List.filterMap_map]

theorem Change.parse_eq {node : Node} {s s' : State} {e : Event} {out : List Observation}
    (h : Change node s e s' out) : s'.shared.parse = s.shared.parse := by
  cases h with
  | outbound hchange => exact hchange.parse_eq
  | inbound hchange => exact hchange.parse_eq
  | policy _ => rfl
  | evictIdentity _ => rfl

section Outbound

variable {node : Node} {C : OutboundProxy.State → Event → Prop}
  {I : List OutboundProxy.Observation → OutboundProxy.State → Prop} {parse : X509Parser}
  {policy : PolicyEngine} {events : List Event} {s : State} {trace : List Observation}

/-- The invariant rule for the outbound proxy in runs of the sidecar whose steps all meet `C`. -/
theorem outbound_invariant_of_always (hinit : I [] node.outbound.initial)
    (hstep : ∀ {trace shared s e shared' s' out}, I trace s → C s (.outbound e) →
      shared.parse = parse →
      OutboundProxy.Change node.outbound shared s e shared' s' out → I (trace ++ out) s')
    (halways : node.step.Always (fun s e => C s.outbound e) (node.initial parse policy) events)
    (hrun : node.step.exec (node.initial parse policy) events = some (s, trace)) :
    I (outboundTrace trace) s.outbound := by
  have hlast : I (outboundTrace trace) s.outbound ∧ s.shared.parse = parse := by
    refine Step.invariant_of_always (s := node.initial parse policy)
      (I := fun (trace : List Observation) (s : State) =>
        I (outboundTrace trace) s.outbound ∧ s.shared.parse = parse)
      (fun ⟨h, hparse⟩ hC hs => ?_) ⟨hinit, rfl⟩ halways hrun
    have hchange := step_change hs
    refine ⟨?_, hchange.parse_eq.trans hparse⟩
    rw [outboundTrace_append]
    cases hchange with
    | outbound hchange =>
        rw [outboundTrace_map_outbound]
        exact hstep h hC hparse hchange
    | inbound _ =>
        rw [outboundTrace_map_inbound, List.append_nil]
        exact h
    | policy _ => simpa [outboundTrace] using h
    | evictIdentity _ => simpa [outboundTrace] using h
  exact hlast.1

theorem outbound_invariant (hinit : I [] node.outbound.initial)
    (hstep : ∀ {trace shared s e shared' s' out}, I trace s →
      OutboundProxy.Change node.outbound shared s e shared' s' out → I (trace ++ out) s')
    (hrun : node.step.exec (node.initial parse policy) events = some (s, trace)) :
    I (outboundTrace trace) s.outbound :=
  outbound_invariant_of_always (C := fun _ _ => True) hinit (fun h _ _ => hstep h)
    (Step.always_of_forall (fun _ _ => trivial) _) hrun

end Outbound

/-! ## A sidecar whose peers are all one workload -/

namespace Example

def workload : SpiffeId :=
  ⟨"mesh.local".toList, "default".toList, "web".toList⟩

def application : SocketAddr := ⟨.v4 0x0a600001, 8080⟩

def svid : Der := [0x30, 0x82]

def readSvid : X509Parser := fun _ =>
  .ok [⟨sanOid, .subjectAlternativeName [.uri workload.toUri]⟩]

def sidecar : Node where
  outbound := ⟨1024, some (.socket application), true, 15001, true, workload⟩
  inbound := ⟨1024, some (.socket application), 15006, false, workload⟩

def allowAny : PolicyEngine :=
  PolicyEngine.new.setGlobalPolicies [⟨.any, .any, .allow, "allow any".toList⟩]

def muxHandshake : Except InterlinkError Handshake :=
  .ok ⟨some [svid], some alpnMux, false⟩

end Example

end Node

end Interlink
