import Interlink.Proxy.Admission
import Interlink.Proxy.Construct

/-!
# Graceful shutdown of the inbound proxy

`run` ends when its acceptors have stopped and `wait_for_graceful_shutdown` reads no
active connection.  The relay of a mux stream is a task of its own that the counter
does not know; the handler of its tunnel holds the slot, and only until the tunnel
closes.
-/

namespace Interlink

open Interlink.Foundation

/-! ## Streams and their tunnels -/

namespace TcpProxy

variable {proxy : TcpProxy} {shared shared' : Shared} {s s' : State} {i j : Nat}
  {addr other : SocketAddr} {tls : TlsStream} {pc : Pc} {conn old : Conn} {e : Event}
  {out : List Observation}

section Serving

private theorem serving_of_set (hi : s.conns[i]? = some (.handling addr (.serving tls)))
    (hj : s.conns[j]? = some old) (hold : old ≠ .handling addr (.serving tls))
    (hconns : s'.conns = s.conns.set j conn) :
    s'.conns[i]? = some (.handling addr (.serving tls)) := by
  rw [hconns]
  exact Tasks.getElem?_set_of_ne hj hi hold conn

private theorem serving_of_performed {reaction : Reaction}
    (hi : s.conns[i]? = some (.handling addr (.serving tls)))
    (hsame : ∀ {effect conn out}, j = i → reaction = some (effect, conn, out) →
      conn = .handling addr (.serving tls))
    (h : performed shared s j other reaction = some (shared', s', out)) :
    s'.conns[i]? = some (.handling addr (.serving tls)) := by
  obtain ⟨⟨effect, conn, out⟩, hreaction, heq⟩ := Option.map_eq_some_iff.mp h
  cases heq
  by_cases hji : j = i
  · obtain rfl := hsame hji hreaction
    subst hji
    exact Tasks.getElem?_set_of hi _
  · exact (List.getElem?_set_ne hji).trans hi

private theorem serving_of_respond {react : SocketAddr → Pc → Reaction}
    (hi : s.conns[i]? = some (.handling addr (.serving tls)))
    (hsame : ∀ {effect conn out}, j = i → react addr (.serving tls) = some (effect, conn, out) →
      conn = .handling addr (.serving tls))
    (h : s.conns[j]?.bind (respond shared s j react) = some (shared', s', out)) :
    s'.conns[i]? = some (.handling addr (.serving tls)) := by
  obtain ⟨conn, hj, hrespond⟩ := Option.bind_eq_some_iff.mp h
  cases conn with
  | handling other pc =>
      refine serving_of_performed hi (fun hji hreaction => ?_) hrespond
      subst hji
      cases hj.symm.trans hi
      exact hsame rfl hreaction
  | _ => cases hrespond

private theorem serving_of_silent {react : SocketAddr → Pc → Reaction}
    (hi : s.conns[i]? = some (.handling addr (.serving tls)))
    (hsilent : react addr (.serving tls) = none)
    (h : s.conns[j]?.bind (respond shared s j react) = some (shared', s', out)) :
    s'.conns[i]? = some (.handling addr (.serving tls)) := by
  refine serving_of_respond hi (fun _ hreaction => ?_) h
  cases hsilent.symm.trans hreaction

private theorem serving_of_resolved {target : UpstreamTarget}
    {result : Except InterlinkError SocketAddr}
    (hi : s.conns[i]? = some (.handling addr (.serving tls)))
    (hj : s.conns[j]? = some (.resolving target))
    (h : some (shared, resolved s j result) = some (shared', s', out)) :
    s'.conns[i]? = some (.handling addr (.serving tls)) := by
  cases result with
  | ok found =>
      cases h
      exact serving_of_set hi hj (by simp) rfl
  | error error =>
      cases h
      exact serving_of_set hi hj (by simp) rfl

private theorem serving_of_runConn (hi : s.conns[i]? = some (.handling addr (.serving tls)))
    (hj : s.conns[j]? = some conn)
    (h : runConn proxy shared s j conn = some (shared', s', out)) :
    s'.conns[i]? = some (.handling addr (.serving tls)) := by
  cases conn with
  | resolving target =>
      simp only [runConn] at h
      split at h
      next => exact serving_of_resolved hi hj h
      next => cases h
  | handling other pc =>
      refine serving_of_performed hi (fun hji hreaction => ?_) h
      subst hji
      cases hj.symm.trans hi
      cases hreaction
  | finished => cases h
  | _ =>
      cases h
      exact serving_of_set hi hj (by simp) rfl

theorem serving_step (hi : s.conns[i]? = some (.handling addr (.serving tls)))
    (hopen : e ≠ .closeTunnel i)
    (hstep : proxy.step shared s e = some (shared', s', out)) :
    s'.conns[i]? = some (.handling addr (.serving tls)) := by
  cases e with
  | accept originalDst =>
      obtain ⟨-, hnext⟩ := Prod.mk.inj (Option.some.inj hstep)
      obtain rfl := congrArg Prod.fst hnext
      unfold accept
      split
      next => exact hi
      next =>
        split
        next => exact Tasks.getElem?_append_of hi _
        next => exact hi
  | run j =>
      obtain ⟨conn, hj, hrun⟩ := Option.bind_eq_some_iff.mp hstep
      exact serving_of_runConn hi hj hrun
  | discovered j result =>
      obtain ⟨conn, hj, hdiscover⟩ := Option.bind_eq_some_iff.mp hstep
      cases conn with
      | resolving target =>
          simp only [discover] at hdiscover
          split at hdiscover
          next => exact serving_of_resolved hi hj hdiscover
          next => cases hdiscover
      | _ => cases hdiscover
  | handshaken j result => exact serving_of_silent hi rfl hstep
  | dialed j ok => exact serving_of_silent hi rfl hstep
  | read j data =>
      refine serving_of_silent hi ?_ hstep
      rcases data with - | - | ⟨byte, data⟩ <;> rfl
  | written j delivered ok => exact serving_of_silent hi rfl hstep
  | relay j direction data => exact serving_of_silent hi rfl hstep
  | relayEnd j result => exact serving_of_silent hi rfl hstep
  | acceptStream j =>
      refine serving_of_respond hi (fun _ h => ?_) hstep
      cases h
      rfl
  | closeTunnel j =>
      refine serving_of_respond hi (fun hji => ?_) hstep
      exact absurd (congrArg Event.closeTunnel hji) hopen
  | runStream k =>
      obtain ⟨stream, -, hrun⟩ := Option.bind_eq_some_iff.mp hstep
      unfold runStream at hrun
      split at hrun <;> cases hrun
      exact hi
  | streamDialed k ok =>
      obtain ⟨stream, -, hdialed⟩ := Option.bind_eq_some_iff.mp hstep
      unfold streamDialed at hdialed
      split at hdialed
      next => cases ok <;> cases hdialed <;> exact hi
      next => cases hdialed
  | streamRelay k direction data =>
      obtain ⟨stream, -, hrelay⟩ := Option.bind_eq_some_iff.mp hstep
      unfold streamRelay at hrelay
      split at hrelay <;> cases hrelay
      exact hi
  | streamEnd k result =>
      obtain ⟨stream, -, hend⟩ := Option.bind_eq_some_iff.mp hstep
      unfold streamEnd at hend
      split at hend <;> cases hend
      exact hi

end Serving

theorem Change.stream_cases (h : Change proxy shared s e shared' s' out) {stream : Stream}
    (hmem : stream ∈ s'.streams) :
    (∃ old ∈ s.streams, old.conn = stream.conn ∧
        (old.pc = .finished → stream.pc = .finished)) ∨
      ∃ addr tls, s'.conns[stream.conn]? = some (.handling addr (.serving tls)) := by
  have hkept : stream ∈ s.streams → ∃ old ∈ s.streams, old.conn = stream.conn ∧
      (old.pc = .finished → stream.pc = .finished) :=
    fun hold => ⟨stream, hold, rfl, id⟩
  have hmoved : ∀ {k old next}, s.streams[k]? = some old → old.pc ≠ .finished →
      stream ∈ (s.gotoStream k old next).streams → ∃ old ∈ s.streams, old.conn = stream.conn ∧
        (old.pc = .finished → stream.pc = .finished) := by
    intro k old next hk hpc hmem
    rcases List.mem_or_eq_of_mem_set hmem with hold | rfl
    · exact hkept hold
    · exact ⟨old, List.mem_of_getElem? hk, rfl, fun hfinished => absurd hfinished hpc⟩
  cases h with
  | move hi hmove =>
      cases hmove with
      | acceptStream =>
          rcases List.mem_append.mp hmem with hold | hnew
          · exact .inl (hkept hold)
          · rw [List.mem_singleton.mp hnew]
            exact .inr ⟨_, _, Tasks.getElem?_set_of hi _⟩
      | _ => exact .inl (hkept hmem)
  | streamStart hk hpc => exact .inl (hmoved hk (by simp [hpc]) hmem)
  | streamDial hk hpc => exact .inl (hmoved hk (by simp [hpc]) hmem)
  | streamDialError hk hpc => exact .inl (hmoved hk (by simp [hpc]) hmem)
  | streamEnd hk hpc => exact .inl (hmoved hk (by simp [hpc]) hmem)
  | _ => exact .inl (hkept hmem)

def Served (s : State) : Prop :=
  ∀ stream ∈ s.streams, stream.pc = .finished ∨
    ∃ addr tls, s.conns[stream.conn]? = some (.handling addr (.serving tls))

def Drains (s : State) (e : Event) : Prop :=
  ∀ stream ∈ s.streams, e = .closeTunnel stream.conn → stream.pc = .finished

theorem Served.step (h : Served s) (hdrains : Drains s e)
    (hstep : proxy.step shared s e = some (shared', s', out)) : Served s' := by
  intro stream hmem
  rcases (step_change hstep).stream_cases hmem with ⟨old, hold, hconn, hfinished⟩ | hserved
  · rcases h old hold with hpc | ⟨addr, tls, hserving⟩
    · exact .inl (hfinished hpc)
    · by_cases hclose : e = .closeTunnel old.conn
      · exact .inl (hfinished (hdrains old hold hclose))
      · have hkept := serving_step hserving hclose hstep
        rw [hconn] at hkept
        exact .inr ⟨addr, tls, hkept⟩
  · exact .inr hserved

theorem Change.length_eq (h : Change proxy shared s e shared' s' out)
    (he : ∀ originalDst, e ≠ .accept originalDst) : s'.conns.length = s.conns.length := by
  cases h with
  | refuse => exact absurd rfl (he _)
  | saturate => exact absurd rfl (he _)
  | accept => exact absurd rfl (he _)
  | start => exact List.length_set
  | begin => exact List.length_set
  | enter => exact List.length_set
  | unresolved => exact List.length_set
  | move => exact List.length_set
  | leave => exact List.length_set
  | release => exact List.length_set
  | _ => rfl

/-- Some relay to an upstream has not ended, of a connection or of a stream. -/
def Relaying (s : State) : Prop :=
  (∃ conn ∈ s.conns, conn.relays = true) ∨ ∃ stream ∈ s.streams, stream.pc ≠ .finished

theorem Served.not_relaying (h : Served s)
    (hsettled : ∀ task ∈ s.gate.tasks, task ≠ .running) : ¬ Relaying s := by
  have hidle : ∀ conn ∈ s.conns, conn.phase ≠ .running :=
    fun conn hmem => hsettled _ (List.mem_map_of_mem hmem)
  rintro (⟨conn, hmem, hrelays⟩ | ⟨stream, hmem, hpc⟩)
  · cases conn with
    | handling addr pc => exact hidle _ hmem rfl
    | _ => cases hrelays
  · rcases h stream hmem with hfinished | ⟨addr, tls, hserving⟩
    · exact hpc hfinished
    · exact hidle _ (List.mem_of_getElem? hserving) rfl

end TcpProxy

/-! ## The run of the proxy -/

namespace Node

inductive RunPhase where
  | accepting
  | waiting
  | complete
  | expired
  deriving DecidableEq, Repr

structure Running where
  state : State
  phase : RunPhase

namespace Running

inductive Event where
  | node (event : Node.Event)
  | join
  | poll (late : Bool)

def isAccept : Node.Event → Bool
  | .inbound (.accept _) => true
  | _ => false

/--
The acceptors are joined when none of them is in `handle_accept`; from then on nothing
is accepted.  A poll reads the counter first and the clock after it.
-/
def step (node : Node) : Step Running Event Observation
  | s, .node event =>
      if isAccept event = true ∧ s.phase ≠ .accepting then none
      else (node.step s.state event).map fun (state, out) => ({ s with state := state }, out)
  | s, .join =>
      if s.phase = .accepting ∧ ∀ task ∈ s.state.inbound.gate.tasks, task ≠ .admitted then
        some ({ s with phase := .waiting }, [])
      else none
  | s, .poll late =>
      if s.phase = .waiting then
        if s.state.inbound.activeConnections = 0 then some ({ s with phase := .complete }, [])
        else some ({ s with phase := if late then .expired else .waiting }, [])
      else none

def start (node : Node) (parse : X509Parser) (policy : PolicyEngine) : Running :=
  ⟨node.initial parse policy, .accepting⟩

def Drains (s : Running) : Event → Prop
  | .node (.inbound event) => TcpProxy.Drains s.state.inbound event
  | _ => True

structure Quiet (node : Node) (s : Running) : Prop where
  balanced : BothBalanced node s.state
  served : TcpProxy.Served s.state.inbound
  joined : s.phase ≠ .accepting → ∀ task ∈ s.state.inbound.gate.tasks, task ≠ .admitted
  settled : s.phase = .complete → ∀ task ∈ s.state.inbound.gate.tasks, task ≠ .running

variable {node : Node} {parse : X509Parser} {policy : PolicyEngine} {events : List Event}
  {s s' : Running} {e : Event} {trace out : List Observation}

theorem Quiet.start : Quiet node (start node parse policy) where
  balanced := ⟨.empty _ _, .empty _ _⟩
  served := List.forall_mem_nil _
  joined _ := List.forall_mem_nil _
  settled _ := List.forall_mem_nil _

theorem not_accept {event : TcpProxy.Event}
    (hguard : ¬ (isAccept (.inbound event) = true ∧ s.phase ≠ .accepting))
    (hphase : s.phase ≠ .accepting) (originalDst : Option SocketAddr) :
    event ≠ .accept originalDst := by
  rintro rfl
  exact hguard ⟨rfl, hphase⟩

private theorem Quiet.nodeStep (h : Quiet node s) {event : Node.Event} {state : State}
    (hdrains : Drains s (.node event))
    (hguard : ¬ (isAccept event = true ∧ s.phase ≠ .accepting))
    (hnode : node.step s.state event = some (state, out)) :
    Quiet node { s with state := state } := by
  have hbalanced := h.balanced.step (step_change hnode)
  cases event with
  | inbound event =>
      obtain ⟨⟨shared, inbound, observed⟩, hproxy, heq⟩ := Option.map_eq_some_iff.mp hnode
      cases heq
      have hchange := TcpProxy.step_change hproxy
      refine ⟨hbalanced, h.served.step hdrains hproxy, fun hphase => ?_, fun hphase => ?_⟩
      · refine hchange.gate.not_admitted ?_ (h.joined hphase)
        simpa [TcpProxy.State.gate, Gate.ofTasks] using
          hchange.length_eq (not_accept hguard hphase)
      · have hjoined := h.joined (by rw [show s.phase = .complete from hphase]; decide)
        exact hchange.gate.not_running hjoined (h.settled hphase)
  | outbound event =>
      obtain ⟨⟨shared, outbound, observed⟩, -, heq⟩ := Option.map_eq_some_iff.mp hnode
      cases heq
      exact ⟨hbalanced, h.served, h.joined, h.settled⟩
  | policy call =>
      cases hnode
      exact ⟨hbalanced, h.served, h.joined, h.settled⟩
  | evictIdentity leafDer =>
      cases hnode
      exact ⟨hbalanced, h.served, h.joined, h.settled⟩

theorem Quiet.step (hmax : node.inbound.maxConnections < wordSize) (h : Quiet node s)
    (hdrains : Drains s e) (hstep : Running.step node s e = some (s', out)) :
    Quiet node s' := by
  cases e with
  | node event =>
      simp only [Running.step] at hstep
      split at hstep
      next => cases hstep
      next hguard =>
        obtain ⟨⟨state, observed⟩, hnode, heq⟩ := Option.map_eq_some_iff.mp hstep
        cases heq
        exact h.nodeStep hdrains hguard hnode
  | join =>
      simp only [Running.step] at hstep
      split at hstep
      next hjoin =>
        cases hstep
        exact ⟨h.balanced, h.served, fun _ => hjoin.2, fun hphase => by cases hphase⟩
      next => cases hstep
  | poll late =>
      simp only [Running.step] at hstep
      split at hstep
      next hwaiting =>
        have hjoined := h.joined (by rw [hwaiting]; decide)
        split at hstep
        next hactive =>
          cases hstep
          refine ⟨h.balanced, h.served, fun _ => hjoined, fun _ => ?_⟩
          exact (h.balanced.inbound.active_eq_zero_iff hmax).mp hactive
        next =>
          cases hstep
          refine ⟨h.balanced, h.served, fun _ => hjoined, fun hphase => ?_⟩
          cases late <;> cases hphase
      next => cases hstep

/--
If every tunnel closes after the relays of its streams have ended, then no relay is
running when, or after, `run` has ended because the counter was zero.
-/
theorem complete_not_relaying {parseAddr : Str → Option SocketAddr} {config : ProxyConfig}
    {port : UInt16} {hasDiscovery : Bool}
    (hnew : TcpProxy.newWithDiscovery parseAddr config port hasDiscovery = some node.inbound)
    (hrun : (step node).exec (start node parse policy) events = some (s, trace))
    (hdrains : (step node).Always Drains (start node parse policy) events)
    (hcomplete : s.phase = .complete) : ¬ TcpProxy.Relaying s.state.inbound := by
  have hmax : node.inbound.maxConnections < wordSize :=
    (TcpProxy.maxConnections_le_maxPermits hnew).trans_lt (by decide)
  have hquiet : Quiet node s :=
    Step.invariant_of_always (I := fun _ s => Quiet node s)
      (fun h hdrains hstep => h.step hmax hdrains hstep) Quiet.start hdrains hrun
  exact hquiet.served.not_relaying (hquiet.settled hcomplete)

section Example

open Example

private def openStream : List TcpProxy.Event :=
  [.accept none, .run 0, .run 0, .run 0, .handshaken 0 muxHandshake, .dialed 0 true, .run 0,
    .run 0, .run 0, .run 0, .run 0, .acceptStream 0, .runStream 0, .streamDialed 0 true]

private def closeFirst : List Event :=
  (openStream ++ [TcpProxy.Event.closeTunnel 0, .run 0]).map (fun e => Event.node (.inbound e)) ++
    [.join, .poll false]

private def relayFirst : List Event :=
  (openStream ++ [TcpProxy.Event.streamEnd 0 none, .closeTunnel 0, .run 0]).map
      (fun e => Event.node (.inbound e)) ++ [.join, .poll false]

private def config : ProxyConfig :=
  ⟨"mesh.local".toList, some workload.toUri, some "10.96.0.1:8080".toList, none, true⟩

instance (s : TcpProxy.State) (e : TcpProxy.Event) : Decidable (TcpProxy.Drains s e) :=
  inferInstanceAs (Decidable (∀ stream ∈ s.streams, _ → _))

instance (s : Running) : (e : Event) → Decidable (Drains s e)
  | .node (.inbound event) => inferInstanceAs (Decidable (TcpProxy.Drains _ event))
  | .node (.outbound _) | .node (.policy _) | .node (.evictIdentity _) | .join | .poll _ =>
      isTrue trivial

theorem relayFirst_not_relaying :
    ∃ last, (step sidecar).exec (start sidecar readSvid allowAny) relayFirst = some last ∧
      last.1.phase = .complete ∧ ¬ TcpProxy.Relaying last.1.state.inbound := by
  have hlast : ((step sidecar).exec (start sidecar readSvid allowAny) relayFirst).any
      (fun last => last.1.phase = .complete) = true := by
    decide +kernel
  have hdrains : (step sidecar).Always Drains (start sidecar readSvid allowAny) relayFirst := by
    decide +kernel
  obtain ⟨last, hrun, hcomplete⟩ := (Option.any_eq_true _ _).mp hlast
  have hcomplete := of_decide_eq_true hcomplete
  have hlocal : OutboundProxy.localIdOf config = some workload := by
    decide +kernel
  have hnew : TcpProxy.newWithDiscovery (fun _ => some application) config 15006 false =
      some sidecar.inbound := by
    rw [TcpProxy.newWithDiscovery, hlocal]
    rfl
  exact ⟨last, hrun, hcomplete, complete_not_relaying hnew hrun hdrains hcomplete⟩

/-- The tunnel closes first: `run` ends while the stream is still relayed. -/
theorem closeFirst_relaying :
    ∃ last, (step sidecar).exec (start sidecar readSvid allowAny) closeFirst = some last ∧
      last.1.phase = .complete ∧ TcpProxy.Relaying last.1.state.inbound := by
  have hlast : ((step sidecar).exec (start sidecar readSvid allowAny) closeFirst).any
      (fun last => last.1.phase = .complete &&
        last.1.state.inbound.streams.any (fun stream => stream.pc ≠ .finished)) = true := by
    decide +kernel
  obtain ⟨last, hrun, hcheck⟩ := (Option.any_eq_true _ _).mp hlast
  simp only [Bool.and_eq_true, decide_eq_true_eq, List.any_eq_true] at hcheck
  exact ⟨last, hrun, hcheck.1, .inr hcheck.2⟩

end Example

end Running

end Node

end Interlink
