import Interlink.Foundation.Trace
import Interlink.Foundation.Transition
import Interlink.Proxy.OpenStream

/-!
# The driver of a tunnel

`drive_client` is a future that is polled again and again.  A poll serves open requests
until one has to wait, then pumps the connection until that has to wait.  The driver is
modelled between any two calls it makes, so that requests can arrive and requesters can
give up at every point of a poll; what the calls answer is in the events.  Requests are
numbered in the order in which they enter the queue.
-/

namespace Interlink.DriveClient

open Interlink.Foundation

inductive Poll (α : Type) where
  | pending
  | ready (value : α)
  deriving DecidableEq, Repr

/-- What yamux makes of an open request: a stream or the text of an error. -/
abbrev Outcome := Except Str Nat

/--
A point in the closure of `poll_fn`.  From `checking` to `sending` the request is in the
local variable `req`.
-/
inductive Pc where
  | serving
  | taking
  | checking (req : Nat)
  | opening (req : Nat)
  | sending (req : Nat) (res : Outcome)
  | pumping
  | suspended
  | terminated
  deriving DecidableEq

structure State where
  queue : List Nat
  sent : Nat
  sendersDropped : Bool
  givenUp : List Nat
  pendingOpen : Option Nat
  openQueueClosed : Bool
  pc : Pc
  deriving DecidableEq

def initial : State := ⟨[], 0, false, [], none, false, .suspended⟩

/--
`send` and `giveUp` are steps of requesters.  `run` is a step of the driver that asks
nobody; `poll_recv` may be pending although the queue has a request.
-/
inductive Event where
  | send
  | dropSenders
  | giveUp (req : Nat)
  | poll
  | run
  | recv (ready : Bool)
  | newOutbound (answer : Poll Outcome)
  | nextInbound (answer : Poll (Option (Except Str Nat)))
  deriving DecidableEq

/--
A result is observed with the request for which `poll_new_outbound` was called, an answer
with the request on whose channel it is sent and whether the requester was still there.
-/
inductive Observation where
  | gaveUp (req : Nat)
  | skipped (req : Nat)
  | result (req : Nat) (res : Outcome)
  | answered (req : Nat) (res : Outcome) (delivered : Bool)
  | terminated (discarded : List Nat)
  deriving DecidableEq

/-! ## Steps -/

def Pc.request : Pc → Option Nat
  | .checking req | .opening req | .sending req _ => some req
  | _ => none

def Pc.unsent : Pc → Option (Nat × Outcome)
  | .sending req res => some (req, res)
  | _ => none

def State.held (s : State) : List Nat :=
  s.pc.request.toList ++ s.pendingOpen.toList

section Steps

variable (s : State)

/-- The receiver is dropped with the driver. -/
def send : Option (State × List Observation) :=
  if s.pc ≠ .terminated ∧ s.sendersDropped = false ∧ s.queue.length < OpenStream.queueCapacity then
    some ({ s with queue := s.queue ++ [s.sent], sent := s.sent + 1 }, [])
  else none

def giveUp (req : Nat) : Option (State × List Observation) :=
  if req < s.sent then some ({ s with givenUp := req :: s.givenUp }, [.gaveUp req]) else none

def run : Option (State × List Observation) :=
  match s.pc with
  | .serving =>
      if s.pendingOpen.isNone && !s.openQueueClosed then none
      else some ({ s with pc := .taking }, [])
  | .taking =>
      match s.pendingOpen with
      | none => some ({ s with pc := .pumping }, [])
      | some req => some ({ s with pendingOpen := none, pc := .checking req }, [])
  | .checking req =>
      if req ∈ s.givenUp then some ({ s with pc := .serving }, [.skipped req])
      else some ({ s with pc := .opening req }, [])
  | .sending req res =>
      some ({ s with pc := .serving }, [.answered req res (decide (req ∉ s.givenUp))])
  | _ => none

def recv (ready : Bool) : Option (State × List Observation) :=
  match s.pc, s.pendingOpen, s.openQueueClosed with
  | .serving, none, false =>
      if ready then
        match s.queue with
        | req :: queue =>
            some ({ s with queue := queue, pendingOpen := some req, pc := .taking }, [])
        | [] =>
            if s.sendersDropped then
              some ({ s with openQueueClosed := true, pc := .taking }, [])
            else none
      else some ({ s with pc := .taking }, [])
  | _, _, _ => none

def newOutbound (answer : Poll Outcome) : Option (State × List Observation) :=
  match s.pc with
  | .opening req =>
      match answer with
      | .ready res => some ({ s with pc := .sending req res }, [.result req res])
      | .pending => some ({ s with pendingOpen := some req, pc := .pumping }, [])
  | _ => none

/-- The future returns: what it has and what is queued is dropped. -/
def terminate : State × List Observation :=
  ({ s with queue := [], pendingOpen := none, pc := .terminated },
    [.terminated (s.held ++ s.queue)])

def nextInbound (answer : Poll (Option (Except Str Nat))) :
    Option (State × List Observation) :=
  match s.pc with
  | .pumping =>
      match answer with
      | .ready (some (.ok _)) => some (s, [])
      | .ready (some (.error _)) => some (terminate s)
      | .ready none => some (terminate s)
      | .pending => some ({ s with pc := .suspended }, [])
  | _ => none

end Steps

def step : Step State Event Observation
  | s, .send => send s
  | s, .dropSenders => some ({ s with sendersDropped := true }, [])
  | s, .giveUp req => giveUp s req
  | s, .poll => if s.pc = .suspended then some ({ s with pc := .serving }, []) else none
  | s, .run => run s
  | s, .recv ready => recv s ready
  | s, .newOutbound answer => newOutbound s answer
  | s, .nextInbound answer => nextInbound s answer

/-! ## What a step does to the requests -/

inductive Move (s : State) : State → List Observation → Prop
  | send (hpc : s.pc ≠ .terminated) (hroom : s.queue.length < OpenStream.queueCapacity) :
      Move s { s with queue := s.queue ++ [s.sent], sent := s.sent + 1 } []
  | giveUp {req : Nat} (hreq : req < s.sent) :
      Move s { s with givenUp := req :: s.givenUp } [.gaveUp req]
  | recv {req : Nat} {queue : List Nat} (hpc : s.pc = .serving) (hpending : s.pendingOpen = none)
      (hqueue : s.queue = req :: queue) :
      Move s { s with queue := queue, pendingOpen := some req, pc := .taking } []
  | skip {req : Nat} (hpc : s.pc = .checking req) (hgone : req ∈ s.givenUp) :
      Move s { s with pc := .serving } [.skipped req]
  | result {req : Nat} (res : Outcome) (hpc : s.pc = .opening req) :
      Move s { s with pc := .sending req res } [.result req res]
  | answer {req : Nat} {res : Outcome} (hpc : s.pc = .sending req res) :
      Move s { s with pc := .serving } [.answered req res (decide (req ∉ s.givenUp))]
  | terminate (hpc : s.pc = .pumping) : Move s (terminate s).1 (terminate s).2
  | quiet {s' : State} (hqueue : s'.queue = s.queue) (hsent : s'.sent = s.sent)
      (hgivenUp : s'.givenUp = s.givenUp) (hheld : s'.held = s.held)
      (hunsent : s'.pc.unsent = s.pc.unsent)
      (hended : s'.pc = .terminated ↔ s.pc = .terminated) : Move s s' []

variable {s s' : State} {trace out : List Observation}

theorem Move.goto {closed : Bool} {pc : Pc} (hrequest : pc.request = s.pc.request)
    (hunsent : pc.unsent = s.pc.unsent) (hended : pc = .terminated ↔ s.pc = .terminated) :
    Move s { s with openQueueClosed := closed, pc := pc } [] :=
  .quiet rfl rfl rfl (by simp [State.held, hrequest]) hunsent hended

theorem run_move (h : run s = some (s', out)) : Move s s' out := by
  unfold run at h
  split at h
  next hpc =>
    split at h
    next => cases h
    next =>
      cases h
      exact .goto (by rw [hpc]; rfl) (by rw [hpc]; rfl) (by simp [hpc])
  next hpc =>
    split at h
    next hpending =>
      cases h
      exact .goto (by rw [hpc]; rfl) (by rw [hpc]; rfl) (by simp [hpc])
    next req hpending =>
      cases h
      exact .quiet rfl rfl rfl (by simp [State.held, Pc.request, hpc, hpending])
        (by simp [Pc.unsent, hpc]) (by simp [hpc])
  next req hpc =>
    split at h
    next hgone =>
      cases h
      exact .skip hpc hgone
    next =>
      cases h
      exact .goto (by rw [hpc]; rfl) (by rw [hpc]; rfl) (by simp [hpc])
  next req res hpc =>
    cases h
    exact .answer hpc
  next => cases h

theorem recv_move {ready : Bool} (h : recv s ready = some (s', out)) : Move s s' out := by
  unfold recv at h
  split at h
  next hpc hpending _ =>
    split at h
    next =>
      split at h
      next req queue hqueue =>
        cases h
        exact .recv hpc hpending hqueue
      next =>
        split at h
        next =>
          cases h
          exact .goto (by rw [hpc]; rfl) (by rw [hpc]; rfl) (by simp [hpc])
        next => cases h
    next =>
      cases h
      exact .goto (by rw [hpc]; rfl) (by rw [hpc]; rfl) (by simp [hpc])
  next => cases h

theorem pendingOpen_eq_none (hheld : s.held.length ≤ 1) {req : Nat}
    (hpc : s.pc.request = some req) : s.pendingOpen = none := by
  cases hpending : s.pendingOpen with
  | none => rfl
  | some other => simp [State.held, hpc, hpending] at hheld

theorem newOutbound_move (hheld : s.held.length ≤ 1) {answer : Poll Outcome}
    (h : newOutbound s answer = some (s', out)) : Move s s' out := by
  unfold newOutbound at h
  split at h
  next req hpc =>
    split at h
    next res =>
      cases h
      exact .result res hpc
    next =>
      cases h
      have hnone := pendingOpen_eq_none hheld (by rw [hpc]; rfl)
      exact .quiet rfl rfl rfl (by simp [State.held, Pc.request, hpc, hnone])
        (by simp [Pc.unsent, hpc]) (by simp [hpc])
  next => cases h

theorem nextInbound_move {answer : Poll (Option (Except Str Nat))}
    (h : nextInbound s answer = some (s', out)) : Move s s' out := by
  unfold nextInbound at h
  split at h
  next hpc =>
    split at h
    next =>
      cases h
      exact .quiet rfl rfl rfl rfl rfl .rfl
    next =>
      cases h
      exact .terminate hpc
    next =>
      cases h
      exact .terminate hpc
    next =>
      cases h
      exact .goto (by rw [hpc]; rfl) (by rw [hpc]; rfl) (by simp [hpc])
  next => cases h

theorem step_move (hheld : s.held.length ≤ 1) {e : Event} (h : step s e = some (s', out)) :
    Move s s' out := by
  cases e with
  | send =>
      simp only [step, send] at h
      split at h
      next hsend =>
        cases h
        exact .send hsend.1 hsend.2.2
      next => cases h
  | dropSenders =>
      cases h
      exact .quiet rfl rfl rfl rfl rfl .rfl
  | giveUp req =>
      simp only [step, giveUp] at h
      split at h
      next hreq =>
        cases h
        exact .giveUp hreq
      next => cases h
  | poll =>
      simp only [step] at h
      split at h
      next hpc =>
        cases h
        exact .goto (by rw [hpc]; rfl) (by rw [hpc]; rfl) (by simp [hpc])
      next => cases h
  | run => exact run_move h
  | recv ready => exact recv_move h
  | newOutbound answer => exact newOutbound_move hheld h
  | nextInbound answer => exact nextInbound_move h

/-! ## Requests over a run -/

def handled (trace : List Observation) : List Nat :=
  trace.filterMap fun
    | .skipped req => some req
    | .answered req _ _ => some req
    | _ => none

def answers (trace : List Observation) : List (Nat × Outcome) :=
  trace.filterMap fun
    | .answered req res _ => some (req, res)
    | _ => none

def results (trace : List Observation) : List (Nat × Outcome) :=
  trace.filterMap fun
    | .result req res => some (req, res)
    | _ => none

def discarded (trace : List Observation) : List Nat :=
  trace.flatMap fun
    | .terminated discarded => discarded
    | _ => []

theorem handled_append (trace out : List Observation) :
    handled (trace ++ out) = handled trace ++ handled out := List.filterMap_append

theorem answers_append (trace out : List Observation) :
    answers (trace ++ out) = answers trace ++ answers out := List.filterMap_append

theorem results_append (trace out : List Observation) :
    results (trace ++ out) = results trace ++ results out := List.filterMap_append

theorem discarded_append (trace out : List Observation) :
    discarded (trace ++ out) = discarded trace ++ discarded out := List.flatMap_append

def GivenUpFirst (before : List Observation) : Observation → Prop
  | .skipped req => .gaveUp req ∈ before
  | .answered req _ delivered => delivered = false → .gaveUp req ∈ before
  | _ => True

structure Served (trace : List Observation) (s : State) : Prop where
  requests : handled trace ++ s.held ++ s.queue ++ discarded trace = List.range s.sent
  single : s.held.length ≤ 1
  results : results trace = answers trace ++ s.pc.unsent.toList
  givenUp : ∀ req ∈ s.givenUp, .gaveUp req ∈ trace
  ordered : Preceded GivenUpFirst trace
  running : s.pc ≠ .terminated → discarded trace = []

theorem Served.initial : Served [] initial where
  requests := rfl
  single := Nat.zero_le _
  results := rfl
  givenUp := by simp [DriveClient.initial]
  ordered := .nil
  running := fun _ => rfl

theorem Served.done {req : Nat} {o : Observation} (h : Served trace s)
    (hpc : s.pc.request = some req) (hhandled : handled [o] = [req])
    (hdiscarded : discarded [o] = []) (hresults : DriveClient.results [o] = [])
    (hanswers : answers [o] = s.pc.unsent.toList) (hfirst : GivenUpFirst trace o) :
    Served (trace ++ [o]) { s with pc := .serving } := by
  have hnone := pendingOpen_eq_none h.single hpc
  have hheld : s.held = [req] := by simp [State.held, hpc, hnone]
  have hafter : ({ s with pc := .serving } : State).held = [] := by
    simp [State.held, Pc.request, hnone]
  have hrunning : s.pc ≠ .terminated := by
    intro hended
    rw [hended] at hpc
    cases hpc
  have hrequests := h.requests
  rw [hheld] at hrequests
  refine ⟨?_, ?_, ?_, ?_, h.ordered.snoc hfirst, ?_⟩
  · rw [handled_append, discarded_append, hhandled, hdiscarded, hafter, List.append_nil,
      List.append_nil]
    exact hrequests
  · rw [hafter]
    exact Nat.zero_le 1
  · rw [results_append, answers_append, hresults, hanswers, List.append_nil, h.results]
    exact (List.append_nil _).symm
  · exact fun other hmem => List.mem_append_left _ (h.givenUp other hmem)
  · intro _
    rw [discarded_append, hdiscarded, h.running hrunning]
    rfl

theorem Served.step (h : Served trace s) (hmove : Move s s' out) :
    Served (trace ++ out) s' := by
  cases hmove with
  | send hpc _ =>
      have hnone := h.running hpc
      have hrequests := h.requests
      rw [hnone, List.append_nil] at hrequests
      rw [List.append_nil]
      refine ⟨?_, h.single, h.results, h.givenUp, h.ordered, h.running⟩
      rw [hnone, List.append_nil, List.range_succ, ← hrequests]
      exact (List.append_assoc _ _ _).symm
  | @giveUp req _ =>
      have hhandled : handled (trace ++ [.gaveUp req]) = handled trace := by
        rw [handled_append]
        exact List.append_nil _
      have hdiscarded : discarded (trace ++ [.gaveUp req]) = discarded trace := by
        rw [discarded_append]
        exact List.append_nil _
      refine ⟨?_, h.single, ?_, ?_, h.ordered.snoc trivial, ?_⟩
      · rw [hhandled, hdiscarded]
        exact h.requests
      · rw [results_append, answers_append, h.results]
        change answers trace ++ s.pc.unsent.toList ++ [] = answers trace ++ [] ++ s.pc.unsent.toList
        rw [List.append_nil, List.append_nil]
      · intro other hmem
        rcases List.mem_cons.mp hmem with rfl | hmem
        · simp
        · exact List.mem_append_left _ (h.givenUp other hmem)
      · rw [hdiscarded]
        exact h.running
  | @recv req queue hpc hpending hqueue =>
      have hrunning : s.pc ≠ .terminated := by
        rw [hpc]
        exact Pc.noConfusion
      have hheld : s.held = [] := by simp [State.held, hpc, hpending, Pc.request]
      have hrequests := h.requests
      rw [hheld, hqueue, List.append_nil] at hrequests
      have hresults := h.results
      rw [hpc] at hresults
      rw [List.append_nil]
      refine ⟨?_, Nat.le_refl 1, hresults, h.givenUp, h.ordered, fun _ => h.running hrunning⟩
      rw [← hrequests]
      simp [State.held, Pc.request]
  | @skip req hpc hgone =>
      exact h.done (by rw [hpc]; rfl) rfl rfl rfl (by rw [hpc]; rfl) (h.givenUp req hgone)
  | @result req res hpc =>
      have hrunning : s.pc ≠ .terminated := by
        rw [hpc]
        exact Pc.noConfusion
      have hheld : ({ s with pc := .sending req res } : State).held = s.held := by
        simp [State.held, hpc, Pc.request]
      have hhandled : handled (trace ++ [.result req res]) = handled trace := by
        rw [handled_append]
        exact List.append_nil _
      have hdiscarded : discarded (trace ++ [.result req res]) = discarded trace := by
        rw [discarded_append]
        exact List.append_nil _
      refine ⟨?_, ?_, ?_, ?_, h.ordered.snoc trivial, ?_⟩
      · rw [hhandled, hdiscarded, hheld]
        exact h.requests
      · rw [hheld]
        exact h.single
      · rw [results_append, answers_append, h.results, hpc]
        rfl
      · exact fun other hmem => List.mem_append_left _ (h.givenUp other hmem)
      · intro _
        rw [hdiscarded]
        exact h.running hrunning
  | @answer req res hpc =>
      refine h.done (by rw [hpc]; rfl) rfl rfl rfl (by rw [hpc]; rfl) fun hgone => ?_
      exact h.givenUp req (by simpa using hgone)
  | terminate hpc =>
      have hnone := h.running (by simp [hpc])
      have hdiscarded : discarded (trace ++ (terminate s).2) = s.held ++ s.queue := by
        rw [discarded_append, hnone]
        exact List.append_nil _
      have hhandled : handled (trace ++ (terminate s).2) = handled trace := by
        rw [handled_append]
        exact List.append_nil _
      have hresults := h.results
      rw [hpc] at hresults
      have hrequests := h.requests
      rw [hnone, List.append_nil] at hrequests
      refine ⟨?_, Nat.zero_le 1, ?_, ?_, h.ordered.snoc trivial,
        fun hrunning => absurd rfl hrunning⟩
      · have hempty : (terminate s).1.held ++ (terminate s).1.queue = [] := rfl
        rw [hdiscarded, hhandled, List.append_assoc (handled trace), hempty, List.append_nil,
          ← List.append_assoc]
        exact hrequests
      · rw [results_append, answers_append, hresults]
        rfl
      · exact fun other hmem => List.mem_append_left _ (h.givenUp other hmem)
  | quiet hqueue hsent hgivenUp hheld hunsent hended =>
      rw [List.append_nil]
      refine ⟨?_, hheld ▸ h.single, hunsent ▸ h.results, hgivenUp ▸ h.givenUp, h.ordered,
        fun hrunning => h.running (mt hended.mpr hrunning)⟩
      rw [hheld, hqueue, hsent]
      exact h.requests

theorem Served.of_exec {events : List Event}
    (hrun : DriveClient.step.exec DriveClient.initial events = some (s, trace)) :
    Served trace s :=
  Step.invariant (fun h hstep => h.step (step_move h.single hstep)) Served.initial hrun

theorem answers_sublist (trace : List Observation) :
    ((answers trace).map Prod.fst).Sublist (handled trace) := by
  induction trace with
  | nil => exact .refl _
  | cons o trace ih =>
      cases o with
      | answered req res delivered => exact ih.cons_cons req
      | skipped req => exact ih.cons req
      | _ => exact ih

theorem mem_handled {req : Nat} (h : req ∈ handled trace) :
    .skipped req ∈ trace ∨ ∃ res delivered, .answered req res delivered ∈ trace := by
  obtain ⟨o, hmem, ho⟩ := List.mem_filterMap.mp h
  cases o with
  | skipped other =>
      cases ho
      exact .inl hmem
  | answered other res delivered =>
      cases ho
      exact .inr ⟨res, delivered, hmem⟩
  | _ => cases ho

/--
The requests are done with in the order in which they were queued, and at most one is
held.  Every result that `poll_new_outbound` gives is sent to the request it was called
for, once and in order.  A request that is not queued, held or answered was skipped after
its requester gave up, or was dropped when the driver terminated.
-/
theorem requests_served_in_order {events : List Event}
    (hrun : DriveClient.step.exec DriveClient.initial events = some (s, trace)) :
    handled trace ++ s.held ++ s.queue ++ discarded trace = List.range s.sent ∧
      s.held.length ≤ 1 ∧
      ((answers trace).map Prod.fst).Pairwise (· < ·) ∧
      results trace = answers trace ++ s.pc.unsent.toList ∧
      Preceded GivenUpFirst trace ∧
      ∀ req < s.sent, req ∈ s.queue ∨ req ∈ s.held ∨
        (∃ res delivered, .answered req res delivered ∈ trace) ∨
          .skipped req ∈ trace ∨ s.pc = .terminated ∧ req ∈ discarded trace := by
  have h := Served.of_exec hrun
  refine ⟨h.requests, h.single, ?_, h.results, h.ordered, fun req hreq => ?_⟩
  · have hsublist : ((answers trace).map Prod.fst).Sublist (List.range s.sent) := by
      rw [← h.requests, List.append_assoc, List.append_assoc]
      exact (answers_sublist trace).trans (List.sublist_append_left _ _)
    exact List.pairwise_lt_range.sublist hsublist
  · have hmem : req ∈ handled trace ++ s.held ++ s.queue ++ discarded trace := by
      rw [h.requests]
      exact List.mem_range.mpr hreq
    simp only [List.mem_append] at hmem
    rcases hmem with ((hhandled | hheld) | hqueue) | hdiscarded
    · rcases mem_handled hhandled with hskipped | hanswered
      · exact .inr (.inr (.inr (.inl hskipped)))
      · exact .inr (.inr (.inl hanswered))
    · exact .inr (.inl hheld)
    · exact .inl hqueue
    · have hended : s.pc = .terminated := by
        by_contra hrunning
        rw [h.running hrunning] at hdiscarded
        cases hdiscarded
      exact .inr (.inr (.inr (.inr ⟨hended, hdiscarded⟩)))

section Example

/--
The first request waits over two polls, the requester of the second gives up meanwhile,
the third is refused and the fourth is left when the connection fails.
-/
private def fourRequests : List Event :=
  [.send, .send, .send, .poll, .recv true, .run, .run, .newOutbound .pending,
    .nextInbound .pending, .giveUp 1, .poll, .run, .run, .run, .newOutbound (.ready (.ok 1)), .run,
    .recv true, .run, .run, .recv true, .run, .run,
    .newOutbound (.ready (.error "too many streams".toList)), .run, .recv false, .run, .send,
    .nextInbound (.ready (some (.error "closed".toList)))]

theorem fourRequests_served :
    ∃ last, DriveClient.step.exec DriveClient.initial fourRequests = some last ∧
      answers last.2 = [(0, .ok 1), (2, .error "too many streams".toList)] ∧
      ((answers last.2).map Prod.fst).Pairwise (· < ·) ∧ discarded last.2 = [3] := by
  have hlast : (DriveClient.step.exec DriveClient.initial fourRequests).any (fun last =>
      answers last.2 = [(0, .ok 1), (2, .error "too many streams".toList)] &&
        discarded last.2 = [3]) = true := by
    decide +kernel
  obtain ⟨last, hrun, hcheck⟩ := (Option.any_eq_true _ _).mp hlast
  simp only [Bool.and_eq_true, decide_eq_true_eq] at hcheck
  exact ⟨last, hrun, hcheck.1, (requests_served_in_order hrun).2.2.1, hcheck.2⟩

end Example

end Interlink.DriveClient
