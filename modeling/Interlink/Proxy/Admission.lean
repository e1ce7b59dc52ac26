import Interlink.Foundation.Admission
import Interlink.Proxy.Node

/-!
# Connection accounting

Both proxies admit connections in the same way: a permit of the semaphore, then the
`active_connections` counter, then the handler, which gives them back in the opposite
order.  Each of them refines a gate.
-/

namespace Interlink

open Interlink.Foundation

/-! ## The outbound proxy -/

namespace OutboundProxy

def Conn.phase : Conn → Phase
  | .accepted _ => .admitted
  | .spawned _ | .resolving _ | .routing _ _ | .leaving => .running
  | .releasing => .uncounted
  | .finished => .finished

def State.gate (s : State) : Gate :=
  .ofTasks Conn.phase s.permits s.activeConnections s.conns

variable {proxy : OutboundProxy} {shared shared' : Shared} {s s' : State} {i : Nat}
  {addr : SocketAddr} {pc : Pc} {effect : Effect} {conn : Conn} {e : Event}
  {out : List Observation}

theorem Move.phase_eq (h : Move proxy shared s i addr pc effect conn out) :
    conn.phase = .running := by
  cases h <;> rfl

/-- Every step of the proxy is a step of the gate. -/
theorem Change.gate (h : Change proxy shared s e shared' s' out) :
    Gate.Move wordSize s.gate s'.gate := by
  cases h with
  | refuse => exact .stay
  | saturate => exact .stay
  | accept hpermit => exact .acquireTask hpermit rfl
  | start hi => exact .countTask hi rfl rfl
  | begin hi => exact .keep hi rfl
  | enter _ hi => exact .keep hi rfl
  | unresolved _ hi => exact .keep hi rfl
  | move _ hi hmove => exact .keep hi hmove.phase_eq
  | leave hi => exact .uncountTask hi rfl rfl
  | release hi => exact .releaseTask hi rfl rfl
  | driverExit => exact .stay
  | driverEvict => exact .stay

theorem step_accept_of_refused {originalDst : Option SocketAddr} (shared : Shared)
    (h : proxy.selectUpstream originalDst = none ∨ s.permits = 0) :
    ∃ out, proxy.step shared s (.accept originalDst) = some (shared, s, out) := by
  simp only [step, accept]
  cases hselect : proxy.selectUpstream originalDst with
  | none => exact ⟨_, rfl⟩
  | some target =>
      have hpermits : s.permits = 0 := h.resolve_left (by simp [hselect])
      simp [hpermits]

end OutboundProxy

/-! ## The inbound proxy -/

namespace TcpProxy

def Conn.phase : Conn → Phase
  | .accepted _ => .admitted
  | .spawned _ | .resolving _ | .handling _ _ | .leaving => .running
  | .releasing => .uncounted
  | .finished => .finished

def State.gate (s : State) : Gate :=
  .ofTasks Conn.phase s.permits s.activeConnections s.conns

variable {proxy : TcpProxy} {shared shared' : Shared} {s s' : State} {i : Nat}
  {addr : SocketAddr} {pc : Pc} {effect : Effect} {conn : Conn} {e : Event}
  {out : List Observation}

theorem phase_decided (addr : SocketAddr) (tls : TlsStream) (decision : Decision) :
    (decided addr tls decision).1.phase = .running := by
  cases decision with
  | deny reason => rfl
  | allow =>
      simp only [decided]
      split <;> rfl

theorem Move.phase_eq (h : Move proxy shared s i addr pc effect conn out) :
    conn.phase = .running := by
  cases h with
  | decideNamespace => exact phase_decided ..
  | decideGlobal => exact phase_decided ..
  | _ => rfl

theorem Change.gate (h : Change proxy shared s e shared' s' out) :
    Gate.Move wordSize s.gate s'.gate := by
  cases h with
  | refuse => exact .stay
  | saturate => exact .stay
  | accept hpermit => exact .acquireTask hpermit rfl
  | start hi => exact .countTask hi rfl rfl
  | begin hi => exact .keep hi rfl
  | enter hi => exact .keep hi rfl
  | unresolved hi => exact .keep hi rfl
  | move hi hmove => exact .keep hi hmove.phase_eq
  | leave hi => exact .uncountTask hi rfl rfl
  | release hi => exact .releaseTask hi rfl rfl
  | streamStart => exact .stay
  | streamDial => exact .stay
  | streamDialError => exact .stay
  | streamEnd => exact .stay
  | streamRelay => exact .stay

theorem step_accept_of_refused {originalDst : Option SocketAddr} (shared : Shared)
    (h : proxy.selectUpstream originalDst = none ∨ s.permits = 0) :
    ∃ out, proxy.step shared s (.accept originalDst) = some (shared, s, out) := by
  simp only [step, accept]
  cases hselect : proxy.selectUpstream originalDst with
  | none => exact ⟨_, rfl⟩
  | some target =>
      have hpermits : s.permits = 0 := h.resolve_left (by simp [hselect])
      simp [hpermits]

end TcpProxy

/-! ## Runs of the sidecar -/

namespace Node

structure Accounted (maxConnections : Nat) (gate : Gate) : Prop where
  handlers_le : gate.handlers ≤ maxConnections
  active_le : gate.active ≤ gate.held
  permits_add_held : gate.permits + gate.held = maxConnections
  drained : (∀ task ∈ gate.tasks, task = .finished) →
    gate.active = 0 ∧ gate.permits = maxConnections

theorem Accounted.of_balanced {size maxConnections : Nat} {gate : Gate}
    (h : gate.Balanced size maxConnections) : Accounted maxConnections gate :=
  ⟨h.handlers_le, h.active_le, h.permits, h.drained⟩

variable {node : Node} {parse : X509Parser} {policy : PolicyEngine} {events : List Event}
  {s s' : State} {e : Event} {trace out : List Observation}

structure BothBalanced (node : Node) (s : State) : Prop where
  outbound : s.outbound.gate.Balanced wordSize node.outbound.maxConnections
  inbound : s.inbound.gate.Balanced wordSize node.inbound.maxConnections

theorem BothBalanced.step (h : BothBalanced node s) (hchange : Change node s e s' out) :
    BothBalanced node s' := by
  cases hchange with
  | outbound hchange => exact ⟨h.outbound.move (by decide) hchange.gate, h.inbound⟩
  | inbound hchange => exact ⟨h.outbound, h.inbound.move (by decide) hchange.gate⟩
  | policy => exact ⟨h.outbound, h.inbound⟩
  | evictIdentity => exact ⟨h.outbound, h.inbound⟩

theorem balanced_of_run
    (hrun : node.step.exec (node.initial parse policy) events = some (s, trace)) :
    BothBalanced node s :=
  Step.invariant (I := fun _ s => BothBalanced node s) (fun h hstep => h.step (step_change hstep))
    ⟨.empty _ _, .empty _ _⟩ hrun

/--
In every reachable state the permits, the counters and the handlers of both proxies
add up, and a connection that is turned away changes none of them.
-/
theorem connections_accounted
    (hrun : node.step.exec (node.initial parse policy) events = some (s, trace)) :
    Accounted node.outbound.maxConnections s.outbound.gate ∧
      Accounted node.inbound.maxConnections s.inbound.gate ∧
      (∀ originalDst, node.outbound.selectUpstream originalDst = none ∨ s.outbound.permits = 0 →
        ∃ out, node.step s (.outbound (.accept originalDst)) = some (s, out)) ∧
      ∀ originalDst, node.inbound.selectUpstream originalDst = none ∨ s.inbound.permits = 0 →
        ∃ out, node.step s (.inbound (.accept originalDst)) = some (s, out) := by
  have hbalanced := balanced_of_run hrun
  refine ⟨.of_balanced hbalanced.outbound, .of_balanced hbalanced.inbound, ?_, ?_⟩
  · intro originalDst hrefused
    obtain ⟨out, hstep⟩ := OutboundProxy.step_accept_of_refused s.shared hrefused
    exact ⟨_, by rw [Node.step, hstep]; rfl⟩
  · intro originalDst hrefused
    obtain ⟨out, hstep⟩ := TcpProxy.step_accept_of_refused s.shared hrefused
    exact ⟨_, by rw [Node.step, hstep]; rfl⟩

section Example

open Example

/-- One connection is open in each proxy, and one has come and gone in the inbound proxy. -/
private def threeConnections : List Event :=
  [.outbound (.accept none), .inbound (.accept none), .outbound (.run 0), .inbound (.run 0),
    .inbound (.run 0), .inbound (.accept none), .inbound (.run 0), .inbound (.run 1),
    .inbound (.handshaken 0 (.error (.tls []))), .inbound (.dialed 0 true), .inbound (.run 0),
    .inbound (.run 0), .inbound (.run 0)]

theorem threeConnections_accounted :
    ∃ last, sidecar.step.exec (sidecar.initial readSvid allowAny) threeConnections = some last ∧
      last.1.outbound.gate.active = 1 ∧ last.1.inbound.gate.handlers = 1 ∧
      Accounted 1024 last.1.outbound.gate ∧ Accounted 1024 last.1.inbound.gate := by
  have hlast : (sidecar.step.exec (sidecar.initial readSvid allowAny) threeConnections).any
      (fun last => last.1.outbound.gate.active = 1 && last.1.inbound.gate.handlers = 1) =
        true := by
    decide +kernel
  obtain ⟨last, hrun, hcheck⟩ := (Option.any_eq_true _ _).mp hlast
  simp only [Bool.and_eq_true, decide_eq_true_eq] at hcheck
  have haccounted := connections_accounted hrun
  exact ⟨last, hrun, hcheck.1, hcheck.2, haccounted.1, haccounted.2.1⟩

end Example

end Node

end Interlink
