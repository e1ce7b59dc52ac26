import Interlink.Proxy.DriveClient

/-!
# The polled driver refines the driver of the calls

The calls of `open_stream` see a driver that takes a request in one step and serves it in
another.  Every run of the polled driver is a run of that one: a request that is in `req`
or in `pending_open` is pending, and it is served when it is skipped or its answer is sent.
-/

namespace Interlink.DriveClient

open Interlink.Foundation

/-! ## What the calls see -/

def State.driver (s : State) : OpenStream.Driver :=
  ⟨s.queue, s.held.head?, s.pc = .terminated⟩

def reply (trace : List Observation) (req : Nat) : OpenStream.Answer :=
  match (answers trace).lookup req with
  | none => .awaited
  | some (.ok _) => .opened
  | some (.error error) => .refused error

def requester (trace : List Observation) (givenUp : List Nat) (req : Nat) : OpenStream.Call :=
  ⟨0, if req ∈ givenUp then .ended else .waiting (reply trace req)⟩

structure Simulated (trace : List Observation) (s : State) (t : OpenStream.State) : Prop where
  drivers : t.drivers = [s.driver]
  calls : t.calls = (List.range s.sent).map (requester trace s.givenUp)
  givenUp : ∀ req ∈ s.givenUp, req < s.sent

/-- The requesters that have not given up: each holds a slot, also when it was answered. -/
def State.requesters (s : State) : Nat :=
  (List.range s.sent).countP fun req => req ∉ s.givenUp

/-- A requester clones the `Arc` of the tunnel before it sends. -/
def WithinRefcount (s : State) (e : Event) : Prop :=
  e = .send → s.requesters < OpenStream.maxRefcount

instance (s : State) (e : Event) : Decidable (WithinRefcount s e) :=
  inferInstanceAs (Decidable (e = .send → s.requesters < OpenStream.maxRefcount))

def KeepsUp (trace : List Observation) (s' : State) (t : OpenStream.State) : Prop :=
  ∃ es t' outs, OpenStream.step.exec t es = some (t', outs) ∧ Simulated trace s' t'

variable {s s' : State} {trace out : List Observation} {t : OpenStream.State} {req : Nat}
  {givenUp : List Nat}

/-! ## Requesters -/

theorem lookup_answers (h : req ∉ handled trace) : (answers trace).lookup req = none := by
  refine List.lookup_eq_none_iff.mpr fun answer hmem => ?_
  have hne : req ≠ answer.1 := by
    rintro rfl
    exact h ((answers_sublist trace).subset (List.mem_map_of_mem hmem))
  simpa using hne

theorem reply_eq_awaited (h : req ∉ handled trace) : reply trace req = .awaited := by
  rw [reply, lookup_answers h]

theorem requester_append (h : answers out = []) :
    requester (trace ++ out) givenUp = requester trace givenUp := by
  funext req
  rw [requester, requester, reply, reply, answers_append, h, List.append_nil]

theorem not_mem_handled (h : Served trace s) (hreq : req ∈ s.held ∨ s.sent ≤ req) :
    req ∉ handled trace := by
  intro hmem
  have hrequests := h.requests
  rcases hreq with hheld | hge
  · have hnodup : (handled trace ++ s.held ++ s.queue ++ discarded trace).Nodup := by
      rw [hrequests]
      exact List.nodup_range
    rw [List.append_assoc, List.append_assoc] at hnodup
    exact (List.nodup_append.mp hnodup).2.2 req hmem req (List.mem_append_left _ hheld) rfl
  · have hlt : req ∈ List.range s.sent := by
      rw [← hrequests]
      simp [hmem]
    exact absurd (List.mem_range.mp hlt) (by omega)

theorem lt_sent_of_held (h : Served trace s) (hreq : req ∈ s.held) : req < s.sent := by
  refine List.mem_range.mp ?_
  rw [← h.requests]
  simp [hreq]

theorem answers_answered {res : Outcome} {delivered : Bool} :
    answers (trace ++ [.answered req res delivered]) = answers trace ++ [(req, res)] :=
  answers_append trace _

theorem reply_answered {res : Outcome} {delivered : Bool} (h : req ∉ handled trace) :
    reply (trace ++ [.answered req res delivered]) req =
      OpenStream.answer (res.map fun _ => ()) := by
  have hlookup : (answers trace).lookup req = none := lookup_answers h
  rw [reply, answers_answered, List.lookup_append, hlookup, Option.none_or, List.lookup_cons_self]
  cases res <;> rfl

theorem reply_answered_of_ne {res : Outcome} {delivered : Bool} {other : Nat} (h : other ≠ req) :
    reply (trace ++ [.answered req res delivered]) other = reply trace other := by
  have hlookup : [(req, res)].lookup other = none :=
    List.lookup_eq_none_iff.mpr (by simpa using h)
  rw [reply, answers_answered, List.lookup_append, hlookup, Option.or_none, reply]

theorem set_map_range {α : Type} {f g : Nat → α} {n k : Nat} (h : ∀ j, j ≠ k → g j = f j) :
    ((List.range n).map f).set k (g k) = (List.range n).map g := by
  refine List.ext_getElem (by simp) fun j hj _ => ?_
  rw [List.getElem_set]
  split
  next heq => simp [heq]
  next hne => simp [h j (Ne.symm hne)]

namespace Simulated

theorem call (h : Simulated trace s t) (hreq : req < s.sent) :
    t.calls[req]? = some (requester trace s.givenUp req) := by
  rw [h.calls, List.getElem?_map, List.getElem?_range hreq]
  rfl

theorem driver (h : Simulated trace s t) : t.drivers[0]? = some s.driver := by
  rw [h.drivers]
  rfl

theorem slots_eq (h : Simulated trace s t) :
    t.inProgress 0 + t.streams 0 = s.requesters := by
  rw [← OpenStream.slots_eq, h.calls, List.countP_map]
  refine List.countP_congr fun req _ => ?_
  by_cases hgone : req ∈ s.givenUp <;> simp [requester, OpenStream.Call.slot, hgone]

/-! ## Steps -/

theorem send (h : Simulated trace s t) (hserved : Served trace s)
    (hfew : s.requesters < OpenStream.maxRefcount) (hpc : s.pc ≠ .terminated)
    (hroom : s.queue.length < OpenStream.queueCapacity) :
    KeepsUp trace { s with queue := s.queue ++ [s.sent], sent := s.sent + 1 } t := by
  have hlength : t.calls.length = s.sent := by simp [h.calls]
  have hslots : t.inProgress 0 + t.streams 0 < OpenStream.maxRefcount := by
    rw [h.slots_eq]
    exact hfew
  let opened : OpenStream.State :=
    { t with pool := t.pool.reserve 0, calls := t.calls ++ [⟨0, .sending⟩] }
  have hopen : OpenStream.step t (.openStream 0) = some (opened, []) :=
    if_pos ⟨by simp [h.drivers], hslots⟩
  have hcall : opened.calls[s.sent]? = some ⟨0, .sending⟩ := by
    simp [opened, ← hlength]
  have hsend : OpenStream.step opened (.send s.sent) =
      some ((opened.setDriver 0 { s.driver with queue := s.queue ++ [s.sent] }).goto s.sent
        ⟨0, .sending⟩ (.waiting .awaited), []) := by
    have hdriver : opened.drivers[0]? = some s.driver := h.driver
    simp only [OpenStream.step, hcall, Option.bind_some, OpenStream.send, hdriver]
    simp [State.driver, hpc, hroom]
  refine ⟨[.openStream 0, .send s.sent], _, _, Step.exec_append (Step.exec_single hopen)
    (Step.exec_single hsend), ?_, ?_, ?_⟩
  · simp [OpenStream.State.goto, OpenStream.State.setDriver, opened, h.drivers, State.driver,
      State.held]
  · have hreply : reply trace s.sent = .awaited :=
      reply_eq_awaited (not_mem_handled hserved (.inr (Nat.le_refl _)))
    have hmem : s.sent ∉ s.givenUp := fun hmem => (h.givenUp _ hmem).false
    have hlast : requester trace s.givenUp s.sent = ⟨0, .waiting .awaited⟩ := by
      rw [requester, if_neg hmem, hreply]
    rw [List.range_succ, List.map_append, ← h.calls, List.map_singleton, hlast]
    simp [OpenStream.State.goto, OpenStream.State.setDriver, opened, ← hlength]
  · exact fun req hmem => Nat.lt_succ_of_lt (h.givenUp req hmem)

theorem giveUp (h : Simulated trace s t) (hreq : req < s.sent) :
    KeepsUp (trace ++ [.gaveUp req]) { s with givenUp := req :: s.givenUp } t := by
  have hknown : ∀ other ∈ req :: s.givenUp, other < s.sent := by
    intro other hmem
    rcases List.mem_cons.mp hmem with rfl | hmem
    · exact hreq
    · exact h.givenUp other hmem
  have hothers : ∀ other, other ≠ req →
      requester (trace ++ [.gaveUp req]) (req :: s.givenUp) other =
        requester trace s.givenUp other := by
    intro other hne
    rw [requester_append (by rfl), requester, requester]
    simp only [List.mem_cons, hne, false_or]
  have hself : requester (trace ++ [.gaveUp req]) (req :: s.givenUp) req = ⟨0, .ended⟩ := by
    simp [requester]
  by_cases hgone : req ∈ s.givenUp
  · refine ⟨[], t, [], rfl, h.drivers, ?_, hknown⟩
    rw [h.calls]
    refine List.map_congr_left fun other _ => ?_
    by_cases heq : other = req
    · rw [heq, hself, requester, if_pos hgone]
    · exact (hothers other heq).symm
  · have hcall := h.call hreq
    have hcancel : OpenStream.step t (.cancel req) =
        some (OpenStream.release t req (requester trace s.givenUp req)) := by
      simp [OpenStream.step, hcall, OpenStream.cancel, requester, hgone]
    refine ⟨[.cancel req], _, _, Step.exec_single hcancel, h.drivers, ?_, hknown⟩
    change t.calls.set req ⟨0, .ended⟩ = _
    rw [h.calls, ← hself]
    exact set_map_range hothers

theorem recv {queue : List Nat} (h : Simulated trace s t) (hpc : s.pc = .serving)
    (hpending : s.pendingOpen = none) (hqueue : s.queue = req :: queue) :
    KeepsUp (trace ++ []) { s with queue := queue, pendingOpen := some req, pc := .taking } t := by
  have hdriver : s.driver = ⟨req :: queue, none, false⟩ := by
    simp [State.driver, State.held, Pc.request, hpc, hpending, hqueue]
  have hrecv : OpenStream.step t (.recv 0) =
      some (t.setDriver 0 ⟨queue, some req, false⟩, []) := by
    simp [OpenStream.step, h.driver, hdriver, OpenStream.recv]
  rw [List.append_nil]
  refine ⟨[.recv 0], _, _, Step.exec_single hrecv, ?_, h.calls, h.givenUp⟩
  simp [OpenStream.State.setDriver, h.drivers, State.driver, State.held, Pc.request]

theorem driver_of_request (hserved : Served trace s) (hreq : s.pc.request = some req) :
    s.driver = ⟨s.queue, some req, false⟩ ∧
      ({ s with pc := .serving } : State).driver = ⟨s.queue, none, false⟩ := by
  have hnone := pendingOpen_eq_none hserved.single hreq
  have hpc : s.pc ≠ .terminated := by
    intro hpc
    rw [hpc] at hreq
    cases hreq
  constructor
  · simp [State.driver, State.held, hreq, hpc]
  · simp [State.driver, State.held, hnone, Pc.request]

theorem skip (h : Simulated trace s t) (hserved : Served trace s) (hpc : s.pc = .checking req)
    (hgone : req ∈ s.givenUp) :
    KeepsUp (trace ++ [.skipped req]) { s with pc := .serving } t := by
  obtain ⟨hdriver, hnext⟩ := driver_of_request hserved (by rw [hpc]; rfl)
  have hcall := h.call (h.givenUp req hgone)
  have hserve : OpenStream.step t (.serve 0 (.ok ())) =
      some (t.setDriver 0 ⟨s.queue, none, false⟩, []) := by
    simp [OpenStream.step, h.driver, hdriver, OpenStream.serve, hcall, requester, hgone]
  refine ⟨[.serve 0 (.ok ())], _, _, Step.exec_single hserve, ?_, ?_, h.givenUp⟩
  · simp [OpenStream.State.setDriver, h.drivers, hnext]
  · rw [requester_append (by rfl)]
    exact h.calls

theorem answer {res : Outcome} {delivered : Bool} (h : Simulated trace s t)
    (hserved : Served trace s) (hpc : s.pc = .sending req res) :
    KeepsUp (trace ++ [.answered req res delivered]) { s with pc := .serving } t := by
  have hrequest : s.pc.request = some req := by rw [hpc]; rfl
  obtain ⟨hdriver, hnext⟩ := driver_of_request hserved hrequest
  have hheld : req ∈ s.held := by simp [State.held, hrequest]
  have hnew := not_mem_handled hserved (.inl hheld)
  have hcall := h.call (lt_sent_of_held hserved hheld)
  have hothers : ∀ other, other ≠ req →
      requester (trace ++ [.answered req res delivered]) s.givenUp other =
        requester trace s.givenUp other := by
    intro other hne
    rw [requester, requester, reply_answered_of_ne hne]
  by_cases hgone : req ∈ s.givenUp
  · have hserve : OpenStream.step t (.serve 0 (res.map fun _ => ())) =
        some (t.setDriver 0 ⟨s.queue, none, false⟩, []) := by
      simp [OpenStream.step, h.driver, hdriver, OpenStream.serve, hcall, requester, hgone]
    refine ⟨_, _, _, Step.exec_single hserve, ?_, ?_, h.givenUp⟩
    · simp [OpenStream.State.setDriver, h.drivers, hnext]
    · change t.calls = _
      rw [h.calls]
      refine List.map_congr_left fun other _ => ?_
      by_cases heq : other = req
      · rw [heq, requester, requester, if_pos hgone, if_pos hgone]
      · exact (hothers other heq).symm
  · rw [requester, if_neg hgone, reply_eq_awaited hnew] at hcall
    have hserve : OpenStream.step t (.serve 0 (res.map fun _ => ())) =
        some ((t.setDriver 0 ⟨s.queue, none, false⟩).goto req ⟨0, .waiting .awaited⟩
          (.waiting (OpenStream.answer (res.map fun _ => ()))), []) := by
      simp [OpenStream.step, h.driver, hdriver, OpenStream.serve, hcall]
    have hself : requester (trace ++ [.answered req res delivered]) s.givenUp req =
        ⟨0, .waiting (OpenStream.answer (res.map fun _ => ()))⟩ := by
      rw [requester, if_neg hgone, reply_answered hnew]
    refine ⟨_, _, _, Step.exec_single hserve, ?_, ?_, h.givenUp⟩
    · simp [OpenStream.State.goto, OpenStream.State.setDriver, h.drivers, hnext]
    · change t.calls.set req ⟨0, .waiting (OpenStream.answer (res.map fun _ => ()))⟩ = _
      rw [h.calls, ← hself]
      exact set_map_range hothers

theorem terminate (h : Simulated trace s t) (hpc : s.pc = .pumping) :
    KeepsUp (trace ++ (terminate s).2) (terminate s).1 t := by
  have hexit : OpenStream.step t (.exit 0) = some (t.setDriver 0 ⟨[], none, true⟩, []) := by
    simp [OpenStream.step, h.driver, OpenStream.exit, State.driver, hpc]
  refine ⟨[.exit 0], _, _, Step.exec_single hexit, ?_, ?_, h.givenUp⟩
  · simp [OpenStream.State.setDriver, h.drivers, DriveClient.terminate, State.driver, State.held,
      Pc.request]
  · rw [requester_append (by rfl)]
    exact h.calls

theorem step (h : Simulated trace s t) (hserved : Served trace s)
    (hfew : s.sent < s'.sent → s.requesters < OpenStream.maxRefcount) (hmove : Move s s' out) :
    KeepsUp (trace ++ out) s' t := by
  cases hmove with
  | send hpc hroom =>
      rw [List.append_nil]
      exact h.send hserved (hfew (Nat.lt_succ_self _)) hpc hroom
  | giveUp hreq => exact h.giveUp hreq
  | recv hpc hpending hqueue => exact h.recv hpc hpending hqueue
  | skip hpc hgone => exact h.skip hserved hpc hgone
  | @result req res hpc =>
      refine ⟨[], t, [], rfl, ?_, ?_, h.givenUp⟩
      · rw [h.drivers]
        simp [State.driver, State.held, hpc, Pc.request]
      · rw [requester_append (by rfl)]
        exact h.calls
  | answer hpc => exact h.answer hserved hpc
  | terminate hpc => exact h.terminate hpc
  | quiet hqueue hsent hgivenUp hheld hunsent hended =>
      refine ⟨[], t, [], rfl, ?_, ?_, ?_⟩
      · rw [h.drivers]
        simp [State.driver, hqueue, hheld, hended]
      · rw [List.append_nil, hsent, hgivenUp]
        exact h.calls
      · rw [hsent, hgivenUp]
        exact h.givenUp

end Simulated

/-! ## Runs -/

theorem eq_send_of_sent_lt {e : Event} (hstep : DriveClient.step s e = some (s', out))
    (hlt : s.sent < s'.sent) : e = .send := by
  cases e with
  | send => rfl
  | dropSenders =>
      cases hstep
      exact absurd hlt (Nat.lt_irrefl _)
  | giveUp req => grind [DriveClient.step, DriveClient.giveUp]
  | poll => grind [DriveClient.step]
  | run => grind [DriveClient.step, run]
  | recv ready => grind [DriveClient.step, DriveClient.recv]
  | newOutbound answer => grind [DriveClient.step, newOutbound]
  | nextInbound answer =>
      simp only [DriveClient.step, nextInbound] at hstep
      grind [DriveClient.terminate]

def Follows (trace : List Observation) (s : State) (_ : List OpenStream.Observation)
    (t : OpenStream.State) : Prop :=
  Served trace s ∧ Simulated trace s t

theorem Follows.step {trace' : List OpenStream.Observation} {e : Event}
    (h : Follows trace s trace' t) (hfew : WithinRefcount s e)
    (hstep : DriveClient.step s e = some (s', out)) :
    ∃ es t' outs, OpenStream.step.exec t es = some (t', outs) ∧
      Follows (trace ++ out) s' (trace' ++ outs) t' := by
  obtain ⟨hserved, hsimulated⟩ := h
  have hmove := step_move hserved.single hstep
  obtain ⟨es, t', outs, hexec, hnext⟩ :=
    hsimulated.step hserved (fun hlt => hfew (eq_send_of_sent_lt hstep hlt)) hmove
  exact ⟨es, t', outs, hexec, hserved.step hmove, hnext⟩

/--
Every run of the polled driver is a run of the calls of one tunnel and the driver they
see, unless more requesters come than an `Arc` can be cloned for.
-/
theorem drive_refines {events : List Event}
    (hrun : DriveClient.step.exec DriveClient.initial events = some (s, trace))
    (hfew : DriveClient.step.Always WithinRefcount DriveClient.initial events) :
    ∃ calls t outs, OpenStream.step.exec OpenStream.initial calls = some (t, outs) ∧
      Simulated trace s t := by
  have hregister : OpenStream.step OpenStream.initial .register =
      some (⟨MuxPool.new.takeId, [.new], []⟩, []) := rfl
  have hstart : Follows [] DriveClient.initial [] ⟨MuxPool.new.takeId, [.new], []⟩ :=
    ⟨Served.initial, rfl, rfl, by simp [DriveClient.initial]⟩
  obtain ⟨calls, t, outs, hexec, -, hsimulated⟩ :=
    Step.simulation_of_always (R := Follows) Follows.step hstart hfew hrun
  exact ⟨.register :: calls, t, _, Step.exec_cons.mpr ⟨_, [], outs, hregister, hexec, rfl⟩,
    hsimulated⟩

/-! ## Requesters of a driver that has terminated -/

structure Quiescent (trace : List Observation) (s : State) : Prop where
  served : Served trace s
  empty : s.pc = .terminated → s.queue = [] ∧ s.held = []

theorem Quiescent.step (h : Quiescent trace s) (hmove : Move s s' out) :
    Quiescent (trace ++ out) s' := by
  refine ⟨h.served.step hmove, fun hended => ?_⟩
  cases hmove with
  | send hpc => exact absurd hended hpc
  | giveUp => exact h.empty hended
  | terminate => exact ⟨rfl, rfl⟩
  | quiet hqueue hsent hgivenUp hheld hunsent hpc =>
      rw [hqueue, hheld]
      exact h.empty (hpc.mp hended)
  | _ => cases hended

theorem Quiescent.of_exec {events : List Event}
    (hrun : DriveClient.step.exec DriveClient.initial events = some (s, trace)) :
    Quiescent trace s :=
  Step.invariant (fun h hstep => h.step (step_move h.served.single hstep))
    ⟨Served.initial, by simp [DriveClient.initial]⟩ hrun

def result : OpenStream.Answer → Except IoError Unit
  | .awaited => .error driverExited
  | .opened => .ok ()
  | .refused error => .error ⟨.other, error⟩

/--
When the driver has terminated, no call waits for it in vain: one that was not answered
finds its channel closed.
-/
theorem requester_returns {events : List Event}
    (hrun : DriveClient.step.exec DriveClient.initial events = some (s, trace))
    (hended : s.pc = .terminated) (hsimulated : Simulated trace s t) (hreq : req < s.sent)
    (hwaiting : req ∉ s.givenUp) :
    ∃ t' out, OpenStream.step t (.receive req) = some (t', out) ∧
      .returned req (result (reply trace req)) ∈ out := by
  have hcall := hsimulated.call hreq
  rw [requester, if_neg hwaiting] at hcall
  have hempty := (Quiescent.of_exec hrun).empty hended
  have hholds : s.driver.holds req = false := by
    simp [State.driver, OpenStream.Driver.holds, hempty.1, hempty.2]
  cases hreply : reply trace req with
  | awaited =>
      simp [OpenStream.step, hcall, hreply, OpenStream.receive, hsimulated.driver, hholds,
        OpenStream.fail, result]
  | opened => simp [OpenStream.step, hcall, hreply, OpenStream.receive, result]
  | refused error =>
      simp [OpenStream.step, hcall, hreply, OpenStream.receive, OpenStream.fail, result]

/--
The driver of `drive_client`, however it is polled and whatever the connection answers,
serves the calls of `open_stream` as their model says, and when it has terminated every
call that still waits returns the answer it was given, or that the driver has exited.
-/
theorem driver_serves_calls {events : List Event}
    (hrun : DriveClient.step.exec DriveClient.initial events = some (s, trace))
    (hfew : DriveClient.step.Always WithinRefcount DriveClient.initial events) :
    ∃ calls t outs, OpenStream.step.exec OpenStream.initial calls = some (t, outs) ∧
      Simulated trace s t ∧
      (s.pc = .terminated → ∀ req < s.sent, req ∉ s.givenUp →
        ∃ t' out, OpenStream.step t (.receive req) = some (t', out) ∧
          .returned req (result (reply trace req)) ∈ out) := by
  obtain ⟨calls, t, outs, hexec, hsimulated⟩ := drive_refines hrun hfew
  refine ⟨calls, t, outs, hexec, hsimulated, ?_⟩
  intro hended req hreq hwaiting
  exact requester_returns hrun hended hsimulated hreq hwaiting

section Example

private def lostConnection : List Event :=
  [.send, .send, .poll, .recv true, .run, .run, .newOutbound (.ready (.ok 1)), .run,
    .recv false, .run, .nextInbound (.ready none)]

theorem lostConnection_served :
    ∃ last, DriveClient.step.exec DriveClient.initial lostConnection = some last ∧
      ∃ calls t outs, OpenStream.step.exec OpenStream.initial calls = some (t, outs) ∧
        ∃ t' out, OpenStream.step t (.receive 1) = some (t', out) ∧
          .returned 1 (.error driverExited) ∈ out := by
  have hlast : (DriveClient.step.exec DriveClient.initial lostConnection).any (fun last =>
      last.1.sent = 2 && last.1.givenUp = [] && last.1.pc = .terminated &&
        reply last.2 1 = .awaited) = true := by
    decide +kernel
  obtain ⟨⟨s, trace⟩, hrun, hcheck⟩ := (Option.any_eq_true _ _).mp hlast
  simp only [Bool.and_eq_true, decide_eq_true_eq] at hcheck
  obtain ⟨⟨⟨hsent, hgivenUp⟩, hended⟩, hreply⟩ := hcheck
  have hfew : DriveClient.step.Always WithinRefcount DriveClient.initial lostConnection := by
    decide +kernel
  obtain ⟨calls, t, outs, hexec, -, hreturns⟩ := driver_serves_calls hrun hfew
  obtain ⟨t', out, hstep, hmem⟩ := hreturns hended 1 (by rw [hsent]; decide) (by simp [hgivenUp])
  rw [hreply] at hmem
  exact ⟨_, hrun, calls, t, outs, hexec, t', out, hstep, hmem⟩

end Example

end Interlink.DriveClient
