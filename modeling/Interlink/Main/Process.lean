import Mathlib.Logic.Function.Basic
import Interlink.Foundation.Draining
import Interlink.Foundation.Watch
import Interlink.Proxy.Admission

/-!
# The tasks of a running daemon

`main` starts the admin server and the two proxies, waits for a signal, sends `true`
over a watch channel and joins the three tasks.  A proxy runs several acceptors.  Each
of them selects between the next connection and `wait_shutdown`, which it starts anew
in every round from the receiver it was given; `handle_accept` runs in the acceptor.
When all acceptors have stopped, `wait_for_graceful_shutdown` polls the counter of the
proxy until it reads zero or the grace period is over.

The moves of the connections are those of the sidecar.  The channel is not closed: its
sender lives as long as `main`.
-/

namespace Interlink

open Interlink.Foundation

/-! ## The two proxies -/

inductive Side where
  | inbound
  | outbound
  deriving DecidableEq, Repr

namespace Side

def gate (node : Node.State) : Side → Gate
  | .inbound => node.inbound.gate
  | .outbound => node.outbound.gate

def listenPort (node : Node) : Side → UInt16
  | .inbound => node.inbound.listenPort
  | .outbound => node.outbound.listenPort

def activeConnections (node : Node.State) : Side → Nat
  | .inbound => node.inbound.activeConnections
  | .outbound => node.outbound.activeConnections

/-- `handle_accept` up to the permit. -/
def accept (originalDst : Option SocketAddr) : Side → Node.Event
  | .inbound => .inbound (.accept originalDst)
  | .outbound => .outbound (.accept originalDst)

def run (k : Nat) : Side → Node.Event
  | .inbound => .inbound (.run k)
  | .outbound => .outbound (.run k)

end Side

/-! ## The tasks -/

namespace Process

inductive Acceptor where
  | selecting (wait : Watch.Wait)
  | handling (k : Nat)
  | stopped
  deriving DecidableEq, Repr

inductive ServicePhase where
  | disabled
  | accepting
  | waiting (deadline wake : Nat)
  | complete
  | expired
  deriving DecidableEq, Repr

structure Service where
  acceptors : List Acceptor
  phase : ServicePhase

/-- The receivers of the acceptors and of the admin server, from the time before the first send. -/
def receiver : Watch.Receiver :=
  (Watch.channel false).subscribe

def waitShutdown : Acceptor :=
  .selecting (.testing receiver)

/-- `binds` says which calls of `bind_reuseport` succeed. -/
def listeners (listenPort : UInt16) (binds : List Bool) : List Bool :=
  if listenPort = 0 then [] else binds.filter (· = true)

def Service.start (listenPort : UInt16) (binds : List Bool) : Service where
  acceptors := (listeners listenPort binds).map fun _ => waitShutdown
  phase := if listeners listenPort binds = [] then .disabled else .accepting

def Service.returned (service : Service) : Bool :=
  match service.phase with
  | .disabled | .complete | .expired => true
  | .accepting | .waiting _ _ => false

inductive AdminPhase where
  | selecting (rx : Watch.Receiver)
  | ended
  deriving DecidableEq, Repr

inductive MainPhase where
  | serving
  | joiningInbound
  | joiningOutbound
  | joiningAdmin
  | complete
  deriving DecidableEq, Repr

end Process

/-- Times are in milliseconds. -/
structure Process where
  node : Node.State
  services : Side → Process.Service
  admin : Process.AdminPhase
  channel : Watch Bool
  main : Process.MainPhase
  now : Nat

namespace Process

def shutdownGrace : Nat := 30000

def pollInterval : Nat := 100

/-- `adminBinds` says whether the admin server gets its listener. -/
def start (node : Node) (parse : X509Parser) (policy : PolicyEngine)
    (binds : Side → List Bool) (adminBinds : Bool) : Process where
  node := node.initial parse policy
  services side := .start (side.listenPort node) (binds side)
  admin := if adminBinds then .selecting receiver else .ended
  channel := Watch.channel false
  main := .serving
  now := 0

inductive Event where
  | node (event : Node.Event)
  | accept (side : Side) (a : Nat) (originalDst : Option SocketAddr)
  | acceptError (side : Side) (a : Nat)
  | handled (side : Side) (a : Nat)
  | wait (side : Side) (a : Nat)
  | join (side : Side)
  | poll (side : Side)
  | adminAccept
  | adminWait
  | signal
  | main
  | elapse (ms : Nat)

def reserved (node : Node.State) : Node.Event → Bool
  | .inbound (.accept _) | .outbound (.accept _) => true
  | .inbound (.run k) => node.inbound.gate.tasks[k]? = some .admitted
  | .outbound (.run k) => node.outbound.gate.tasks[k]? = some .admitted
  | _ => false

def Service.setAcceptor (service : Service) (a : Nat) (acceptor : Acceptor) : Service :=
  { service with acceptors := service.acceptors.set a acceptor }

section Steps

variable (node : Node) (s : Process)

def setService (side : Side) (service : Service) : Process :=
  { s with services := Function.update s.services side service }

def setAcceptor (side : Side) (a : Nat) (acceptor : Acceptor) : Process :=
  s.setService side ((s.services side).setAcceptor a acceptor)

def accept (side : Side) (a : Nat) (originalDst : Option SocketAddr) :
    Acceptor → Option (Process × List Node.Observation)
  | .selecting _ =>
      (node.step s.node (side.accept originalDst)).map fun (state, out) =>
        let admitted := (side.gate s.node).tasks.length
        let next := if (side.gate state).tasks.length = admitted then waitShutdown
          else .handling admitted
        ({ s.setAcceptor side a next with node := state }, out)
  | .handling _ | .stopped => none

def acceptError (side : Side) (a : Nat) : Acceptor → Option (Process × List Node.Observation)
  | .selecting _ => some (s.setAcceptor side a waitShutdown, [])
  | .handling _ | .stopped => none

/-- The rest of `handle_accept`: the connection is counted and its handler started. -/
def handled (side : Side) (a : Nat) : Acceptor → Option (Process × List Node.Observation)
  | .handling k =>
      (node.step s.node (side.run k)).map fun (state, out) =>
        ({ s.setAcceptor side a waitShutdown with node := state }, out)
  | .selecting _ | .stopped => none

def wait (side : Side) (a : Nat) : Acceptor → Option (Process × List Node.Observation)
  | .selecting wait =>
      (wait.step id s.channel).map fun
        | .done => (s.setAcceptor side a .stopped, [])
        | next => (s.setAcceptor side a (.selecting next), [])
  | .handling _ | .stopped => none

def join (side : Side) (service : Service) : Option (Process × List Node.Observation) :=
  match service.phase with
  | .accepting =>
      if ∀ acceptor ∈ service.acceptors, acceptor = .stopped then
        some (s.setService side
          { service with phase := .waiting (s.now + shutdownGrace) s.now }, [])
      else none
  | _ => none

/-- A round of `wait_for_graceful_shutdown` after its sleep: the counter first, then the clock. -/
def poll (side : Side) (service : Service) : Option (Process × List Node.Observation) :=
  match service.phase with
  | .waiting deadline wake =>
      let now := max s.now wake
      let phase :=
        if side.activeConnections s.node = 0 then ServicePhase.complete
        else if deadline ≤ now then .expired
        else .waiting deadline (now + pollInterval)
      some ({ s.setService side { service with phase := phase } with now := now }, [])
  | _ => none

/-- The admin server takes any send since its receiver was made for the signal. -/
def adminWait : AdminPhase → Option (Process × List Node.Observation)
  | .selecting rx =>
      match rx.changed s.channel with
      | .pending => none
      | .changed _ | .closed => some ({ s with admin := .ended }, [])
  | .ended => none

def joinNext : MainPhase → Option (Process × List Node.Observation)
  | .joiningInbound =>
      if (s.services .inbound).returned then some ({ s with main := .joiningOutbound }, [])
      else none
  | .joiningOutbound =>
      if (s.services .outbound).returned then some ({ s with main := .joiningAdmin }, [])
      else none
  | .joiningAdmin =>
      if s.admin = .ended then some ({ s with main := .complete }, []) else none
  | .serving | .complete => none

end Steps

def step (node : Node) : Step Process Event Node.Observation
  | s, .node event =>
      if reserved s.node event then none
      else (node.step s.node event).map fun (state, out) => ({ s with node := state }, out)
  | s, .accept side a originalDst =>
      (s.services side).acceptors[a]?.bind (accept node s side a originalDst)
  | s, .acceptError side a => (s.services side).acceptors[a]?.bind (acceptError s side a)
  | s, .handled side a => (s.services side).acceptors[a]?.bind (handled node s side a)
  | s, .wait side a => (s.services side).acceptors[a]?.bind (wait s side a)
  | s, .join side => join s side (s.services side)
  | s, .poll side => poll s side (s.services side)
  | s, .adminAccept =>
      match s.admin with
      | .selecting _ => some ({ s with admin := .selecting receiver }, [])
      | .ended => none
  | s, .adminWait => adminWait s s.admin
  | s, .signal =>
      if s.main = .serving then
        some ({ s with channel := s.channel.send true, main := .joiningInbound }, [])
      else none
  | s, .main => joinNext s s.main
  | s, .elapse ms => some ({ s with now := s.now + ms }, [])

/-! ## The moves of the connections -/

section Gates

variable {node : Node} {s s' : Node.State} {side other : Side} {e : Node.Event}
  {originalDst : Option SocketAddr} {k : Nat} {out : List Node.Observation}

private theorem admitted_set {α : Type} {phase : α → Phase} {tasks : List α} {i : Nat} {a b : α}
    (hi : tasks[i]? = some a) (ha : decide (phase a = .admitted) = false)
    (hb : decide (phase b = .admitted) = false) (k : Nat) :
    ((tasks.set i b).map phase)[k]? = some .admitted ↔
      (tasks.map phase)[k]? = some .admitted := by
  rw [List.getElem?_map, List.getElem?_map]
  by_cases hik : i = k
  · subst hik
    rw [Tasks.getElem?_set_of hi, hi]
    simp [of_decide_eq_false ha, of_decide_eq_false hb]
  · rw [List.getElem?_set_ne hik]

private theorem inbound_admitted_iff {proxy : TcpProxy} {shared shared' : Shared}
    {s s' : TcpProxy.State} {e : TcpProxy.Event} {out : List TcpProxy.Observation}
    (h : TcpProxy.Change proxy shared s e shared' s' out)
    (haccept : ∀ originalDst, e ≠ .accept originalDst)
    (hrun : ∀ k, e = .run k → s.gate.tasks[k]? ≠ some .admitted) (k : Nat) :
    s'.gate.tasks[k]? = some .admitted ↔ s.gate.tasks[k]? = some .admitted := by
  cases h with
  | refuse => exact absurd rfl (haccept _)
  | saturate => exact absurd rfl (haccept _)
  | accept => exact absurd rfl (haccept _)
  | start hi =>
      refine absurd ?_ (hrun _ rfl)
      simp [TcpProxy.State.gate, Gate.ofTasks, hi, TcpProxy.Conn.phase]
  | begin hi => exact admitted_set hi rfl rfl k
  | enter hi => exact admitted_set hi rfl rfl k
  | unresolved hi => exact admitted_set hi rfl rfl k
  | move hi hmove => exact admitted_set hi rfl (by rw [hmove.phase_eq]; rfl) k
  | leave hi => exact admitted_set hi rfl rfl k
  | release hi => exact admitted_set hi rfl rfl k
  | _ => exact Iff.rfl

private theorem outbound_admitted_iff {proxy : OutboundProxy} {shared shared' : Shared}
    {s s' : OutboundProxy.State} {e : OutboundProxy.Event} {out : List OutboundProxy.Observation}
    (h : OutboundProxy.Change proxy shared s e shared' s' out)
    (haccept : ∀ originalDst, e ≠ .accept originalDst)
    (hrun : ∀ k, e = .run k → s.gate.tasks[k]? ≠ some .admitted) (k : Nat) :
    s'.gate.tasks[k]? = some .admitted ↔ s.gate.tasks[k]? = some .admitted := by
  cases h with
  | refuse => exact absurd rfl (haccept _)
  | saturate => exact absurd rfl (haccept _)
  | accept => exact absurd rfl (haccept _)
  | start hi =>
      refine absurd ?_ (hrun _ rfl)
      simp [OutboundProxy.State.gate, Gate.ofTasks, hi, OutboundProxy.Conn.phase]
  | begin hi => exact admitted_set hi rfl rfl k
  | enter _ hi => exact admitted_set hi rfl rfl k
  | unresolved _ hi => exact admitted_set hi rfl rfl k
  | move _ hi hmove => exact admitted_set hi rfl (by rw [hmove.phase_eq]; rfl) k
  | leave hi => exact admitted_set hi rfl rfl k
  | release hi => exact admitted_set hi rfl rfl k
  | _ => exact Iff.rfl

theorem admitted_iff (h : node.step s e = some (s', out)) (hfree : reserved s e = false)
    (side : Side) (k : Nat) :
    (side.gate s').tasks[k]? = some .admitted ↔ (side.gate s).tasks[k]? = some .admitted := by
  cases Node.step_change h with
  | @outbound event shared outbound out hchange =>
      cases side with
      | inbound => exact Iff.rfl
      | outbound =>
          refine outbound_admitted_iff hchange ?_ ?_ k
          · rintro originalDst rfl
            cases hfree
          · rintro i rfl hadmitted
            simp [reserved, hadmitted] at hfree
  | @inbound event shared inbound out hchange =>
      cases side with
      | inbound =>
          refine inbound_admitted_iff hchange ?_ ?_ k
          · rintro originalDst rfl
            cases hfree
          · rintro i rfl hadmitted
            simp [reserved, hadmitted] at hfree
      | outbound => exact Iff.rfl
  | policy => exact Iff.rfl
  | evictIdentity => exact Iff.rfl

theorem tasks_of_accept (h : node.step s (side.accept originalDst) = some (s', out)) :
    ((side.gate s').tasks = (side.gate s).tasks ∨
        (side.gate s').tasks = (side.gate s).tasks ++ [.admitted]) ∧
      ∀ other, other ≠ side → (other.gate s').tasks = (other.gate s).tasks := by
  cases side with
  | inbound =>
      simp only [Side.accept, Node.step] at h
      obtain ⟨⟨shared, inbound, observed⟩, hstep, heq⟩ := Option.map_eq_some_iff.mp h
      cases heq
      obtain ⟨-, hnext⟩ := Prod.mk.inj (Option.some.inj hstep)
      obtain rfl := congrArg Prod.fst hnext
      refine ⟨?_, fun other hother => ?_⟩
      · simp only [Side.gate, TcpProxy.accept]
        split
        next => exact .inl rfl
        next =>
          split
          next => exact .inr (by simp [TcpProxy.State.gate, Gate.ofTasks, TcpProxy.Conn.phase])
          next => exact .inl rfl
      · cases other with
        | inbound => exact absurd rfl hother
        | outbound => rfl
  | outbound =>
      simp only [Side.accept, Node.step] at h
      obtain ⟨⟨shared, outbound, observed⟩, hstep, heq⟩ := Option.map_eq_some_iff.mp h
      cases heq
      obtain ⟨-, hnext⟩ := Prod.mk.inj (Option.some.inj hstep)
      obtain rfl := congrArg Prod.fst hnext
      refine ⟨?_, fun other hother => ?_⟩
      · simp only [Side.gate, OutboundProxy.accept]
        split
        next => exact .inl rfl
        next =>
          split
          next =>
            exact .inr (by simp [OutboundProxy.State.gate, Gate.ofTasks, OutboundProxy.Conn.phase])
          next => exact .inl rfl
      · cases other with
        | inbound => rfl
        | outbound => exact absurd rfl hother

theorem exists_run (node : Node) (hk : (side.gate s).tasks[k]? = some .admitted) :
    ∃ s' out, node.step s (side.run k) = some (s', out) ∧
      (side.gate s').tasks = (side.gate s).tasks.set k .running ∧
      ∀ other, other ≠ side → (other.gate s').tasks = (other.gate s).tasks := by
  cases side with
  | inbound =>
      obtain ⟨conn, hconn, hphase⟩ : ∃ conn, s.inbound.conns[k]? = some conn ∧
          conn.phase = .admitted := by
        simpa [Side.gate, TcpProxy.State.gate, Gate.ofTasks] using hk
      cases conn with
      | accepted target =>
          have hstep : node.inbound.step s.shared s.inbound (.run k) =
              some (s.shared, { s.inbound.goto k (.spawned target) with
                activeConnections := fetchAdd s.inbound.activeConnections }, []) := by
            simp [TcpProxy.step, hconn, TcpProxy.runConn]
          refine ⟨_, _, congrArg (Option.map _) hstep, List.map_set, fun other hother => ?_⟩
          cases other with
          | inbound => exact absurd rfl hother
          | outbound => rfl
      | _ => cases hphase
  | outbound =>
      obtain ⟨conn, hconn, hphase⟩ : ∃ conn, s.outbound.conns[k]? = some conn ∧
          conn.phase = .admitted := by
        simpa [Side.gate, OutboundProxy.State.gate, Gate.ofTasks] using hk
      cases conn with
      | accepted target =>
          have hstep : node.outbound.step s.shared s.outbound (.run k) =
              some (s.shared, { s.outbound.goto k (.spawned target) with
                activeConnections := fetchAdd s.outbound.activeConnections }, []) := by
            simp [OutboundProxy.step, hconn, OutboundProxy.runConn]
          refine ⟨_, _, congrArg (Option.map _) hstep, List.map_set, fun other hother => ?_⟩
          cases other with
          | inbound => rfl
          | outbound => exact absurd rfl hother
      | _ => cases hphase

theorem gate_move (h : node.step s e = some (s', out)) (side : Side) :
    Gate.Move wordSize (side.gate s) (side.gate s') := by
  cases Node.step_change h with
  | outbound hchange =>
      cases side with
      | inbound => exact .stay
      | outbound => exact hchange.gate
  | inbound hchange =>
      cases side with
      | inbound => exact hchange.gate
      | outbound => exact .stay
  | policy => exact .stay
  | evictIdentity => exact .stay

end Gates

/-! ## The branches of a step -/

inductive Change (node : Node) (s : Process) : Event → Process → List Node.Observation → Prop
  | node {event state out} (hfree : reserved s.node event = false)
      (hnode : node.step s.node event = some (state, out)) :
      Change node s (.node event) { s with node := state } out
  | refuse {side a originalDst wait state out}
      (ha : (s.services side).acceptors[a]? = some (.selecting wait))
      (hnode : node.step s.node (side.accept originalDst) = some (state, out))
      (htasks : (side.gate state).tasks = (side.gate s.node).tasks) :
      Change node s (.accept side a originalDst)
        { s.setAcceptor side a waitShutdown with node := state } out
  | takeIn {side a originalDst wait state out}
      (ha : (s.services side).acceptors[a]? = some (.selecting wait))
      (hnode : node.step s.node (side.accept originalDst) = some (state, out))
      (htasks : (side.gate state).tasks = (side.gate s.node).tasks ++ [.admitted]) :
      Change node s (.accept side a originalDst)
        { s.setAcceptor side a (.handling (side.gate s.node).tasks.length) with node := state }
        out
  | acceptError {side a wait} (ha : (s.services side).acceptors[a]? = some (.selecting wait)) :
      Change node s (.acceptError side a) (s.setAcceptor side a waitShutdown) []
  | handled {side a k state out} (ha : (s.services side).acceptors[a]? = some (.handling k))
      (hnode : node.step s.node (side.run k) = some (state, out)) :
      Change node s (.handled side a)
        { s.setAcceptor side a waitShutdown with node := state } out
  | wait {side a wait next} (ha : (s.services side).acceptors[a]? = some (.selecting wait))
      (hwait : wait.step id s.channel = some next) (hnext : next ≠ .done) :
      Change node s (.wait side a) (s.setAcceptor side a (.selecting next)) []
  | stop {side a wait} (ha : (s.services side).acceptors[a]? = some (.selecting wait))
      (hwait : wait.step id s.channel = some .done) :
      Change node s (.wait side a) (s.setAcceptor side a .stopped) []
  | join {side} (hphase : (s.services side).phase = .accepting)
      (hall : ∀ acceptor ∈ (s.services side).acceptors, acceptor = .stopped) :
      Change node s (.join side) (s.setService side
        { s.services side with phase := .waiting (s.now + shutdownGrace) s.now }) []
  | complete {side deadline wake} (hphase : (s.services side).phase = .waiting deadline wake)
      (hactive : side.activeConnections s.node = 0) :
      Change node s (.poll side)
        { s.setService side { s.services side with phase := .complete } with
          now := max s.now wake } []
  | expire {side deadline wake} (hphase : (s.services side).phase = .waiting deadline wake)
      (hlate : deadline ≤ max s.now wake) :
      Change node s (.poll side)
        { s.setService side { s.services side with phase := .expired } with
          now := max s.now wake } []
  | sleep {side deadline wake} (hphase : (s.services side).phase = .waiting deadline wake)
      (hearly : max s.now wake < deadline) :
      Change node s (.poll side)
        { s.setService side { s.services side with
            phase := .waiting deadline (max s.now wake + pollInterval) } with
          now := max s.now wake } []
  | adminAccept {rx} (hadmin : s.admin = .selecting rx) :
      Change node s .adminAccept { s with admin := .selecting receiver } []
  | adminStop {rx} (hadmin : s.admin = .selecting rx)
      (hsent : rx.seen ≠ s.channel.version ∨ s.channel.closed = true) :
      Change node s .adminWait { s with admin := .ended } []
  | signal (hmain : s.main = .serving) :
      Change node s .signal
        { s with channel := s.channel.send true, main := .joiningInbound } []
  | joinedInbound (hmain : s.main = .joiningInbound)
      (hreturned : (s.services .inbound).returned = true) :
      Change node s .main { s with main := .joiningOutbound } []
  | joinedOutbound (hmain : s.main = .joiningOutbound)
      (hreturned : (s.services .outbound).returned = true) :
      Change node s .main { s with main := .joiningAdmin } []
  | joinedAdmin (hmain : s.main = .joiningAdmin) (hended : s.admin = .ended) :
      Change node s .main { s with main := .complete } []
  | elapse (ms : Nat) : Change node s (.elapse ms) { s with now := s.now + ms } []

section Inversion

variable {node : Node} {s s' : Process} {side : Side} {a : Nat} {acceptor : Acceptor}
  {e : Event} {out : List Node.Observation}

private theorem accept_change {originalDst : Option SocketAddr}
    (ha : (s.services side).acceptors[a]? = some acceptor)
    (h : accept node s side a originalDst acceptor = some (s', out)) :
    Change node s (.accept side a originalDst) s' out := by
  cases acceptor with
  | selecting wait =>
      obtain ⟨⟨state, observed⟩, hnode, heq⟩ := Option.map_eq_some_iff.mp h
      rcases (tasks_of_accept hnode).1 with htasks | htasks
      · simp only [htasks, if_true] at heq
        cases heq
        exact .refuse ha hnode htasks
      · simp only [htasks, List.length_append, List.length_singleton, Nat.add_eq_left,
          Nat.one_ne_zero, if_false] at heq
        cases heq
        exact .takeIn ha hnode htasks
  | handling k => cases h
  | stopped => cases h

private theorem wait_change (ha : (s.services side).acceptors[a]? = some acceptor)
    (h : wait s side a acceptor = some (s', out)) : Change node s (.wait side a) s' out := by
  cases acceptor with
  | selecting wait =>
      obtain ⟨next, hwait, heq⟩ := Option.map_eq_some_iff.mp h
      cases next with
      | done =>
          cases heq
          exact .stop ha hwait
      | testing rx =>
          cases heq
          exact .wait ha hwait nofun
      | awaiting rx =>
          cases heq
          exact .wait ha hwait nofun
  | handling k => cases h
  | stopped => cases h

private theorem poll_change (h : poll s side (s.services side) = some (s', out)) :
    Change node s (.poll side) s' out := by
  unfold poll at h
  split at h
  next deadline wake hphase =>
    by_cases hactive : side.activeConnections s.node = 0
    · simp only [hactive, if_true] at h
      cases h
      exact .complete hphase hactive
    · by_cases hlate : deadline ≤ max s.now wake
      · simp only [hactive, hlate, if_true, if_false] at h
        cases h
        exact .expire hphase hlate
      · simp only [hactive, hlate, if_false] at h
        cases h
        exact .sleep hphase (Nat.lt_of_not_le hlate)
  next => cases h

private theorem adminWait_change (h : adminWait s s.admin = some (s', out)) :
    Change node s .adminWait s' out := by
  cases hadmin : s.admin with
  | selecting rx =>
      simp only [hadmin, adminWait] at h
      split at h
      next => cases h
      next hchanged =>
        cases h
        refine .adminStop hadmin (.inl fun hseen => ?_)
        simp only [Watch.Receiver.changed, hseen, ne_eq, not_true_eq_false, if_false] at hchanged
        split at hchanged <;> cases hchanged
      next hchanged =>
        cases h
        refine .adminStop hadmin (.inr ?_)
        simp only [Watch.Receiver.changed] at hchanged
        split at hchanged
        next => cases hchanged
        next =>
          split at hchanged
          next hclosed => exact hclosed
          next => cases hchanged
  | ended =>
      rw [hadmin] at h
      cases h

private theorem joinNext_change (h : joinNext s s.main = some (s', out)) :
    Change node s .main s' out := by
  cases hmain : s.main with
  | joiningInbound =>
      simp only [hmain, joinNext] at h
      split at h
      next hreturned =>
        cases h
        exact .joinedInbound hmain hreturned
      next => cases h
  | joiningOutbound =>
      simp only [hmain, joinNext] at h
      split at h
      next hreturned =>
        cases h
        exact .joinedOutbound hmain hreturned
      next => cases h
  | joiningAdmin =>
      simp only [hmain, joinNext] at h
      split at h
      next hended =>
        cases h
        exact .joinedAdmin hmain hended
      next => cases h
  | _ =>
      rw [hmain] at h
      cases h

theorem step_change (h : step node s e = some (s', out)) : Change node s e s' out := by
  cases e with
  | node event =>
      cases hfree : reserved s.node event with
      | true => simp [step, hfree] at h
      | false =>
          simp only [step, hfree, Bool.false_eq_true, if_false] at h
          obtain ⟨⟨state, observed⟩, hnode, heq⟩ := Option.map_eq_some_iff.mp h
          cases heq
          exact .node hfree hnode
  | accept side a originalDst =>
      obtain ⟨acceptor, ha, haccept⟩ := Option.bind_eq_some_iff.mp h
      exact accept_change ha haccept
  | acceptError side a =>
      obtain ⟨acceptor, ha, herror⟩ := Option.bind_eq_some_iff.mp h
      cases acceptor with
      | selecting wait =>
          cases herror
          exact .acceptError ha
      | _ => cases herror
  | handled side a =>
      obtain ⟨acceptor, ha, hhandled⟩ := Option.bind_eq_some_iff.mp h
      cases acceptor with
      | handling k =>
          obtain ⟨⟨state, observed⟩, hnode, heq⟩ := Option.map_eq_some_iff.mp hhandled
          cases heq
          exact .handled ha hnode
      | _ => cases hhandled
  | wait side a =>
      obtain ⟨acceptor, ha, hwait⟩ := Option.bind_eq_some_iff.mp h
      exact wait_change ha hwait
  | join side =>
      simp only [step, join] at h
      split at h
      next hphase =>
        split at h
        next hall =>
          cases h
          exact .join hphase hall
        next => cases h
      next => cases h
  | poll side => exact poll_change h
  | adminAccept =>
      cases hadmin : s.admin with
      | selecting rx =>
          simp only [step, hadmin, Option.some.injEq] at h
          cases h
          exact .adminAccept hadmin
      | ended => simp [step, hadmin] at h
  | adminWait => exact adminWait_change h
  | signal =>
      by_cases hmain : s.main = .serving
      · simp only [step, hmain, if_true, Option.some.injEq] at h
        cases h
        exact .signal hmain
      · simp [step, hmain] at h
  | main => exact joinNext_change h
  | elapse ms =>
      cases h
      exact .elapse ms

end Inversion

end Process

end Interlink
