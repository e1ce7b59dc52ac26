import Interlink.Proxy.Admission
import Interlink.Proxy.InboundDraining
import Interlink.Proxy.OutboundDraining

/-!
# A sidecar drains

Once nothing new is let in, both proxies come to rest, in whatever order their
connections and streams go on, and a sidecar at rest has given back every permit, every
creation lock and every slot on a tunnel.
-/

namespace Interlink.Node

open Interlink.Foundation

def Event.outboundAdvances : Event → Option Nat
  | .outbound event => event.advances
  | _ => none

def Event.inboundAdvances : Event → Option Nat
  | .inbound event => event.advances
  | _ => none

def Event.streamAdvances : Event → Option Nat
  | .inbound event => event.advancesStream
  | _ => none

/-- Events that take a connection or a stream that is there closer to its end. -/
def Event.Advances (e : Event) : Prop :=
  e.outboundAdvances ≠ none ∨ e.inboundAdvances ≠ none ∨ e.streamAdvances ≠ none

/-- Nothing is going on, and everything that was taken has been given back. -/
structure Drained (node : Node) (s : State) : Prop where
  outbound : ∀ conn ∈ s.outbound.conns, conn = .finished
  inbound : ∀ conn ∈ s.inbound.conns, conn = .finished
  streams : ∀ stream ∈ s.inbound.streams, stream.pc = .finished
  outboundPermits : s.outbound.permits = node.outbound.maxConnections
  outboundActive : s.outbound.activeConnections = 0
  inboundPermits : s.inbound.permits = node.inbound.maxConnections
  inboundActive : s.inbound.activeConnections = 0
  creating : ∀ addr, s.outbound.pool.creating addr = none
  live : ∀ id, s.outbound.pool.live id = 0

variable {node : Node} {parse : X509Parser} {policy : PolicyEngine} {events : List Event}
  {s s' : State} {e : Event} {trace out : List Observation}

theorem outbound_turn (h : node.step s e = some (s', out)) :
    Tasks.Turn OutboundProxy.Conn.work OutboundProxy.budget s.outbound.conns
      e.outboundAdvances s'.outbound.conns := by
  cases e with
  | outbound event =>
      obtain ⟨⟨shared, outbound, out⟩, hstep, heq⟩ := Option.map_eq_some_iff.mp h
      cases heq
      exact OutboundProxy.step_turn hstep
  | inbound event =>
      obtain ⟨⟨shared, inbound, out⟩, hstep, heq⟩ := Option.map_eq_some_iff.mp h
      cases heq
      exact .rest
  | policy call =>
      cases h
      exact .rest
  | evictIdentity leafDer =>
      cases h
      exact .rest

theorem inbound_turns (h : node.step s e = some (s', out)) :
    (∃ event, e = .inbound event ∧ s'.outbound = s.outbound ∧
      TcpProxy.Turns s.inbound event s'.inbound) ∨
      e.inboundAdvances = none ∧ e.streamAdvances = none ∧ s'.inbound = s.inbound := by
  cases e with
  | outbound event =>
      obtain ⟨⟨shared, outbound, out⟩, hstep, heq⟩ := Option.map_eq_some_iff.mp h
      cases heq
      exact .inr ⟨rfl, rfl, rfl⟩
  | inbound event =>
      obtain ⟨⟨shared, inbound, out⟩, hstep, heq⟩ := Option.map_eq_some_iff.mp h
      cases heq
      exact .inl ⟨event, rfl, rfl, TcpProxy.step_turns hstep⟩
  | policy call =>
      cases h
      exact .inr ⟨rfl, rfl, rfl⟩
  | evictIdentity leafDer =>
      cases h
      exact .inr ⟨rfl, rfl, rfl⟩

theorem inbound_turn (h : node.step s e = some (s', out)) :
    Tasks.Turn TcpProxy.Conn.work TcpProxy.budget s.inbound.conns
      e.inboundAdvances s'.inbound.conns := by
  rcases inbound_turns h with ⟨event, rfl, -, hturns⟩ | ⟨he, -, heq⟩
  · exact hturns.conns
  · rw [he, heq]
    exact .rest

theorem stream_turn (h : node.step s e = some (s', out)) :
    Tasks.Turn TcpProxy.Stream.work TcpProxy.streamBudget s.inbound.streams
      e.streamAdvances s'.inbound.streams := by
  rcases inbound_turns h with ⟨event, rfl, -, hturns⟩ | ⟨-, he, heq⟩
  · exact hturns.streams
  · rw [he, heq]
    exact .rest

def State.work (s : State) : Nat :=
  (s.outbound.conns.map OutboundProxy.Conn.work).sum +
    ((s.inbound.conns.map TcpProxy.Conn.work).sum +
      (s.inbound.streams.map TcpProxy.Stream.work).sum)

theorem work_lt (he : e.Advances) (h : node.step s e = some (s', out)) : s'.work < s.work := by
  simp only [State.work]
  rcases inbound_turns h with ⟨event, rfl, houtbound, hturns⟩ | ⟨hconn, hstream, hinbound⟩
  · rw [houtbound]
    rcases he with he | he | he
    · exact absurd rfl he
    · obtain ⟨i, hi⟩ := Option.ne_none_iff_exists'.mp he
      have hlt := Tasks.Turn.sum_lt (hi ▸ inbound_turn h)
      rw [hturns.streams_eq he]
      omega
    · obtain ⟨k, hk⟩ := Option.ne_none_iff_exists'.mp he
      have hlt := Tasks.Turn.sum_lt (hk ▸ stream_turn h)
      rw [hturns.conns_eq he]
      omega
  · have he := he.resolve_right (by simp [hconn, hstream])
    obtain ⟨i, hi⟩ := Option.ne_none_iff_exists'.mp he
    have hlt := Tasks.Turn.sum_lt (hi ▸ outbound_turn h)
    rw [hinbound]
    omega

/-! ## What is left when nothing can go on -/

private theorem step_outbound_ne_none {event : OutboundProxy.Event}
    (h : node.outbound.step s.shared s.outbound event ≠ none) :
    node.step s (.outbound event) ≠ none := by
  simpa [Node.step] using h

private theorem step_inbound_ne_none {event : TcpProxy.Event}
    (h : node.inbound.step s.shared s.inbound event ≠ none) :
    node.step s (.inbound event) ≠ none := by
  simpa [Node.step] using h

theorem drained_of_stuck
    (hrun : node.step.exec (node.initial parse policy) events = some (s, trace))
    (hstuck : node.step.Stuck Event.Advances s) : Drained node s := by
  have hlocks : OutboundProxy.Locks s.outbound :=
    outbound_invariant (I := fun _ s => OutboundProxy.Locks s) (.initial node.outbound)
      (fun h hchange => h.step hchange.view) hrun
  have hloads : OutboundProxy.Loads s.outbound :=
    (outbound_invariant
      (I := fun trace s => OutboundProxy.Registry trace s ∧ OutboundProxy.Loads s)
      ⟨.initial node.outbound, .initial node.outbound⟩
      (fun h hchange => ⟨h.1.step hchange.view, h.2.step h.1 hchange.view⟩) hrun).2
  have hbalanced := balanced_of_run hrun
  have houtbound : ∀ conn ∈ s.outbound.conns, conn = .finished := by
    refine hlocks.finished_of_stuck node.outbound s.shared ?_
    rintro i ⟨event, he, hstep⟩
    exact step_outbound_ne_none hstep
      (hstuck _ (.inl (by simp [Event.outboundAdvances, he])))
  have hinbound : ∀ conn ∈ s.inbound.conns, conn = .finished := by
    intro conn hmem
    obtain ⟨i, hi⟩ := List.getElem?_of_mem hmem
    by_contra hconn
    obtain ⟨event, he, hstep⟩ := TcpProxy.enabled_of_ne_finished node.inbound s.shared hi
      hconn
    exact step_inbound_ne_none hstep
      (hstuck _ (.inr (.inl (by simp [Event.inboundAdvances, he]))))
  have hstreams : ∀ stream ∈ s.inbound.streams, stream.pc = .finished := by
    intro stream hmem
    obtain ⟨k, hk⟩ := List.getElem?_of_mem hmem
    by_contra hpc
    obtain ⟨event, he, hstep⟩ := TcpProxy.stream_enabled_of_ne_finished node.inbound s.shared
      hk hpc
    exact step_inbound_ne_none hstep
      (hstuck _ (.inr (.inr (by simp [Event.streamAdvances, he]))))
  have hout := hbalanced.outbound.drained <| by
    simp only [OutboundProxy.State.gate, Gate.ofTasks, List.forall_mem_map]
    intro conn hmem
    rw [houtbound conn hmem]
    rfl
  have hin := hbalanced.inbound.drained <| by
    simp only [TcpProxy.State.gate, Gate.ofTasks, List.forall_mem_map]
    intro conn hmem
    rw [hinbound conn hmem]
    rfl
  exact ⟨houtbound, hinbound, hstreams, hout.2, hout.1, hin.2, hin.1,
    hlocks.creating_eq_none houtbound, hloads.live_eq_zero houtbound⟩

theorem Drained.stuck (h : Drained node s) : node.step.Stuck Event.Advances s := by
  intro e he
  by_contra hne
  obtain ⟨⟨next, out⟩, hstep⟩ := Option.ne_none_iff_exists'.mp hne
  rcases he with he | he | he
  · obtain ⟨i, hi⟩ := Option.ne_none_iff_exists'.mp he
    refine Tasks.Turn.not_advance (fun conn hmem => ?_) (hi ▸ outbound_turn hstep)
    rw [h.outbound conn hmem]
    rfl
  · obtain ⟨i, hi⟩ := Option.ne_none_iff_exists'.mp he
    refine Tasks.Turn.not_advance (fun conn hmem => ?_) (hi ▸ inbound_turn hstep)
    rw [h.inbound conn hmem]
    rfl
  · obtain ⟨k, hk⟩ := Option.ne_none_iff_exists'.mp he
    refine Tasks.Turn.not_advance (fun stream hmem => ?_) (hk ▸ stream_turn hstep)
    simp [TcpProxy.Stream.work, h.streams stream hmem]

/--
However the connections are interleaved, each of them makes a bounded number of steps.
A sidecar in which no connection and no stream can go on is drained, so there is no
deadlock, and from every reachable state the connections that are there can be brought
to their end.
-/
theorem sidecar_drains
    (hrun : node.step.exec (node.initial parse policy) events = some (s, trace)) :
    (∀ i, events.countP (fun e => e.outboundAdvances = some i) ≤ OutboundProxy.budget) ∧
      (∀ i, events.countP (fun e => e.inboundAdvances = some i) ≤ TcpProxy.budget) ∧
      (∀ k, events.countP (fun e => e.streamAdvances = some k) ≤ TcpProxy.streamBudget) ∧
      (node.step.Stuck Event.Advances s ↔ Drained node s) ∧
      ∃ more last rest, (∀ e ∈ more, e.Advances) ∧
        node.step.exec s more = some (last, rest) ∧ Drained node last := by
  refine ⟨Step.countP_le_budget outbound_turn rfl hrun, Step.countP_le_budget inbound_turn rfl hrun,
    Step.countP_le_budget stream_turn rfl hrun, ⟨drained_of_stuck hrun, Drained.stuck⟩, ?_⟩
  obtain ⟨more, last, rest, hmore, hexec, hstuck⟩ := node.step.exists_stuck work_lt s
  exact ⟨more, last, rest, hmore, hexec, drained_of_stuck (Step.exec_append hrun hexec) hstuck⟩

section Example

open Example

/--
Two connections to one address: the first holds the creation lock and waits for its
handshake, the second waits for the lock.
-/
private def waitingForLock : List Event :=
  [.outbound (.accept none), .outbound (.accept none)] ++
    List.replicate 8 (.outbound (.run 0)) ++ List.replicate 4 (.outbound (.run 1))

theorem waitingForLock_drains :
    ∃ last, sidecar.step.exec (sidecar.initial readSvid allowAny) waitingForLock = some last ∧
      (sidecar.step last.1 (.outbound (.run 1))).isNone = true ∧
      last.1.outbound.permits = 1022 ∧
      ∃ more drained rest, sidecar.step.exec last.1 more = some (drained, rest) ∧
        drained.outbound.permits = 1024 := by
  have hlast : (sidecar.step.exec (sidecar.initial readSvid allowAny) waitingForLock).any
      (fun last => (sidecar.step last.1 (.outbound (.run 1))).isNone &&
        last.1.outbound.permits = 1022) = true := by
    decide +kernel
  obtain ⟨last, hrun, hcheck⟩ := (Option.any_eq_true _ _).mp hlast
  simp only [Bool.and_eq_true, decide_eq_true_eq] at hcheck
  obtain ⟨more, drained, rest, -, hexec, hdrained⟩ := (sidecar_drains hrun).2.2.2.2
  exact ⟨last, hrun, hcheck.1, hcheck.2, more, drained, rest, hexec, hdrained.outboundPermits⟩

end Example

end Interlink.Node
