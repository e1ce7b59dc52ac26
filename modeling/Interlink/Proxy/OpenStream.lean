import Interlink.Foundation.Counters
import Interlink.Foundation.Transition
import Interlink.Proxy.Mux

/-!
# Opening a stream

`open_stream` reserves a slot on the tunnel, hands a request to the driver of the
tunnel and waits for its answer.  The guard of the slot is dropped on every way out of
the call except one: the stream that is returned carries it on.
-/

namespace Interlink

open Interlink.Foundation

inductive IoErrorKind where
  | brokenPipe
  | other
  deriving DecidableEq, Repr

structure IoError where
  kind : IoErrorKind
  message : Str
  deriving DecidableEq, Repr

def tunnelClosed : IoError := ⟨.brokenPipe, "tunnel closed".toList⟩

def driverExited : IoError := ⟨.brokenPipe, "tunnel driver exited".toList⟩

namespace OpenStream

/-! ## Calls and drivers -/

inductive Answer where
  | awaited
  | opened
  | refused (error : Str)
  deriving DecidableEq, Repr

/--
`sending` and `waiting` are the two awaits of `open_stream`.  A call that has returned
its stream is `streaming` until the stream is dropped.
-/
inductive Pc where
  | sending
  | waiting (answer : Answer)
  | streaming
  | ended
  deriving DecidableEq, Repr

structure Call where
  tunnel : Nat
  pc : Pc
  deriving DecidableEq, Repr

/--
`drive_client`: the open requests it has not taken yet, named by the call they are from,
and the one it has taken.
-/
structure Driver where
  queue : List Nat
  pendingOpen : Option Nat
  exited : Bool
  deriving DecidableEq, Repr

def queueCapacity : Nat := 256

def Driver.new : Driver := ⟨[], none, false⟩

def Driver.holds (driver : Driver) (k : Nat) : Bool :=
  driver.queue.contains k || driver.pendingOpen == some k

structure State where
  pool : MuxPool
  drivers : List Driver
  calls : List Call

def initial : State := ⟨.new, [], []⟩

inductive Event where
  | register
  | openStream (tunnel : Nat)
  | send (k : Nat)
  | recv (tunnel : Nat)
  | serve (tunnel : Nat) (result : Except Str Unit)
  | exit (tunnel : Nat)
  | receive (k : Nat)
  | cancel (k : Nat)
  | drop (k : Nat)

/-- A release is observed with the value that `fetch_sub` returns. -/
inductive Observation where
  | returned (k : Nat) (result : Except IoError Unit)
  | released (tunnel : Nat) (previous : Nat)

/-! ## Steps -/

def Call.inProgress (tunnel : Nat) (call : Call) : Bool :=
  call.tunnel = tunnel &&
    match call.pc with
    | .sending | .waiting _ => true
    | .streaming | .ended => false

def Call.isStream (tunnel : Nat) (call : Call) : Bool :=
  call.tunnel = tunnel && call.pc = .streaming

def State.inProgress (s : State) (tunnel : Nat) : Nat :=
  s.calls.countP (Call.inProgress tunnel)

def State.streams (s : State) (tunnel : Nat) : Nat :=
  s.calls.countP (Call.isStream tunnel)

/-- `Arc::clone` aborts the process when there are more references than this. -/
def maxRefcount : Nat := 2 ^ 63 - 1

section Steps

variable (s : State)

def State.goto (k : Nat) (call : Call) (pc : Pc) : State :=
  { s with calls := s.calls.set k { call with pc := pc } }

def State.setDriver (tunnel : Nat) (driver : Driver) : State :=
  { s with drivers := s.drivers.set tunnel driver }

def State.release (k : Nat) (call : Call) : State :=
  { s.goto k call .ended with pool := s.pool.unreserve call.tunnel }

def release (k : Nat) (call : Call) : State × List Observation :=
  (s.release k call, [.released call.tunnel (s.pool.live call.tunnel)])

def fail (k : Nat) (call : Call) (error : IoError) : State × List Observation :=
  (s.release k call,
    [.released call.tunnel (s.pool.live call.tunnel), .returned k (.error error)])

/-- The slot is reserved, the guard made and the channel created without an await. -/
def openStream (tunnel : Nat) : Option (State × List Observation) :=
  if tunnel < s.drivers.length ∧ s.inProgress tunnel + s.streams tunnel < maxRefcount then
    some ({ s with
      pool := s.pool.reserve tunnel
      calls := s.calls ++ [⟨tunnel, .sending⟩] }, [])
  else none

def send (k : Nat) (call : Call) : Option (State × List Observation) :=
  match call.pc, s.drivers[call.tunnel]? with
  | .sending, some driver =>
      if driver.exited then some (fail s k call tunnelClosed)
      else if driver.queue.length < queueCapacity then
        some ((s.setDriver call.tunnel { driver with queue := driver.queue ++ [k] }).goto k call
          (.waiting .awaited), [])
      else none
  | _, _ => none

def recv (tunnel : Nat) (driver : Driver) : Option (State × List Observation) :=
  match driver.exited, driver.pendingOpen, driver.queue with
  | false, none, k :: queue =>
      some (s.setDriver tunnel { driver with queue := queue, pendingOpen := some k }, [])
  | _, _, _ => none

def answer : Except Str Unit → Answer
  | .ok () => .opened
  | .error error => .refused error

/--
The pending request is skipped if its call has given up; otherwise `poll_new_outbound`
is ready and the result is sent.
-/
def serve (tunnel : Nat) (result : Except Str Unit) (driver : Driver) :
    Option (State × List Observation) :=
  match driver.exited, driver.pendingOpen with
  | false, some k =>
      let next := s.setDriver tunnel { driver with pendingOpen := none }
      match s.calls[k]? with
      | some ⟨other, .waiting .awaited⟩ =>
          some (next.goto k ⟨other, .waiting .awaited⟩ (.waiting (answer result)), [])
      | _ => some (next, [])
  | _, _ => none

def exit (tunnel : Nat) (driver : Driver) : Option (State × List Observation) :=
  if driver.exited then none else some (s.setDriver tunnel ⟨[], none, true⟩, [])

def receive (k : Nat) (call : Call) : Option (State × List Observation) :=
  match call.pc with
  | .waiting .opened => some (s.goto k call .streaming, [.returned k (.ok ())])
  | .waiting (.refused error) => some (fail s k call ⟨.other, error⟩)
  | .waiting .awaited =>
      if s.drivers[call.tunnel]?.any (·.holds k) then none
      else some (fail s k call driverExited)
  | _ => none

/-- The future of the call is dropped at one of its awaits. -/
def cancel (k : Nat) (call : Call) : Option (State × List Observation) :=
  match call.pc with
  | .sending | .waiting _ => some (release s k call)
  | _ => none

def dropStream (k : Nat) (call : Call) : Option (State × List Observation) :=
  match call.pc with
  | .streaming => some (release s k call)
  | _ => none

end Steps

def step : Step State Event Observation
  | s, .register =>
      some ({ s with pool := s.pool.takeId, drivers := s.drivers ++ [.new] }, [])
  | s, .openStream tunnel => openStream s tunnel
  | s, .send k => s.calls[k]?.bind (send s k)
  | s, .recv tunnel => s.drivers[tunnel]?.bind (recv s tunnel)
  | s, .serve tunnel result => s.drivers[tunnel]?.bind (serve s tunnel result)
  | s, .exit tunnel => s.drivers[tunnel]?.bind (exit s tunnel)
  | s, .receive k => s.calls[k]?.bind (receive s k)
  | s, .cancel k => s.calls[k]?.bind (cancel s k)
  | s, .drop k => s.calls[k]?.bind (dropStream s k)

/-! ## What a step does to the slots -/

def Call.slot (call : Call) : Option Nat :=
  match call.pc with
  | .ended => none
  | _ => some call.tunnel

inductive Change (s : State) : State → List Observation → Prop
  | register {s' : State} (hpool : s'.pool = s.pool.takeId)
      (hdrivers : s'.drivers.length = s.drivers.length + 1) (hcalls : s'.calls = s.calls) :
      Change s s' []
  | reserve {s' : State} {tunnel : Nat} (htunnel : tunnel < s.drivers.length)
      (hfew : s.inProgress tunnel + s.streams tunnel < maxRefcount)
      (hpool : s'.pool = s.pool.reserve tunnel)
      (hdrivers : s'.drivers.length = s.drivers.length)
      (hcalls : s'.calls = s.calls ++ [⟨tunnel, .sending⟩]) : Change s s' []
  | release {k : Nat} {call : Call} {out : List Observation} (hk : s.calls[k]? = some call)
      (hcall : call.pc ≠ .ended)
      (hout : ∀ tunnel previous, .released tunnel previous ∈ out →
        tunnel = call.tunnel ∧ previous = s.pool.live call.tunnel) :
      Change s (s.release k call) out
  | quiet {s' : State} {out : List Observation} (hpool : s'.pool = s.pool)
      (hdrivers : s'.drivers.length = s.drivers.length)
      (hslots : s'.calls.map Call.slot = s.calls.map Call.slot)
      (hout : ∀ tunnel previous, .released tunnel previous ∉ out) : Change s s' out

section Change

variable {s s' : State} {k tunnel : Nat} {call : Call} {driver : Driver} {pc : Pc}
  {out : List Observation}

theorem slot_of_ne_ended (h : call.pc ≠ .ended) : call.slot = some call.tunnel := by
  obtain ⟨tunnel, pc⟩ := call
  cases pc with
  | ended => exact absurd rfl h
  | _ => rfl

theorem Change.goto (hk : s.calls[k]? = some call) (hcall : call.pc ≠ .ended) (hpc : pc ≠ .ended)
    (hpool : s'.pool = s.pool) (hdrivers : s'.drivers.length = s.drivers.length)
    (hcalls : s'.calls = s.calls.set k { call with pc := pc })
    (hout : ∀ tunnel previous, .released tunnel previous ∉ out) : Change s s' out := by
  refine .quiet hpool hdrivers ?_ hout
  have hslot : ({ call with pc := pc } : Call).slot = call.slot :=
    (slot_of_ne_ended hpc).trans (slot_of_ne_ended hcall).symm
  obtain ⟨hlt, rfl⟩ := List.getElem?_eq_some_iff.mp hk
  rw [hcalls, List.map_set, hslot, ← List.map_set, List.set_getElem_self]

theorem Change.setDriver (hpool : s'.pool = s.pool) (hcalls : s'.calls = s.calls)
    (hdrivers : s'.drivers = s.drivers.set tunnel driver) : Change s s' [] :=
  .quiet hpool (by rw [hdrivers, List.length_set]) (by rw [hcalls]) (by simp)

theorem fail_change (hk : s.calls[k]? = some call) (hcall : call.pc ≠ .ended) {error : IoError}
    (h : some (fail s k call error) = some (s', out)) : Change s s' out := by
  cases h
  refine .release hk hcall fun tunnel previous hmem => ?_
  simpa using hmem

theorem release_change (hk : s.calls[k]? = some call) (hcall : call.pc ≠ .ended)
    (h : some (release s k call) = some (s', out)) : Change s s' out := by
  cases h
  refine .release hk hcall fun tunnel previous hmem => ?_
  simpa using hmem

theorem send_change (hk : s.calls[k]? = some call) (h : send s k call = some (s', out)) :
    Change s s' out := by
  unfold send at h
  split at h
  next driver hpc hdriver =>
    have hcall : call.pc ≠ .ended := by simp [hpc]
    split at h
    next => exact fail_change hk hcall h
    next =>
      split at h
      next =>
        cases h
        exact .goto hk hcall (by simp) rfl (List.length_set ..) rfl (by simp)
      next => cases h
  next => cases h

theorem recv_change (h : recv s tunnel driver = some (s', out)) : Change s s' out := by
  unfold recv at h
  split at h
  next =>
    cases h
    exact .setDriver rfl rfl rfl
  next => cases h

theorem serve_change {result : Except Str Unit}
    (h : serve s tunnel result driver = some (s', out)) : Change s s' out := by
  unfold serve at h
  split at h
  next k =>
    simp only at h
    split at h
    next other hk =>
      cases h
      refine .goto hk (by simp) ?_ rfl (List.length_set ..) rfl (by simp)
      cases result <;> simp [answer]
    next =>
      cases h
      exact .setDriver rfl rfl rfl
  next => cases h

theorem exit_change (h : exit s tunnel driver = some (s', out)) : Change s s' out := by
  unfold exit at h
  split at h
  next => cases h
  next =>
    cases h
    exact .setDriver rfl rfl rfl

theorem receive_change (hk : s.calls[k]? = some call) (h : receive s k call = some (s', out)) :
    Change s s' out := by
  unfold receive at h
  split at h
  next hpc =>
    cases h
    exact .goto hk (by simp [hpc]) (by simp) rfl rfl rfl (by simp)
  next error hpc => exact fail_change hk (by simp [hpc]) h
  next hpc =>
    split at h
    next => cases h
    next => exact fail_change hk (by simp [hpc]) h
  next => cases h

theorem cancel_change (hk : s.calls[k]? = some call) (h : cancel s k call = some (s', out)) :
    Change s s' out := by
  unfold cancel at h
  split at h
  next hpc => exact release_change hk (by simp [hpc]) h
  next answer hpc => exact release_change hk (by simp [hpc]) h
  next => cases h

theorem dropStream_change (hk : s.calls[k]? = some call)
    (h : dropStream s k call = some (s', out)) : Change s s' out := by
  unfold dropStream at h
  split at h
  next hpc => exact release_change hk (by simp [hpc]) h
  next => cases h

theorem step_change {e : Event} (h : step s e = some (s', out)) : Change s s' out := by
  cases e with
  | register =>
      cases h
      exact .register rfl (by simp) rfl
  | openStream tunnel =>
      simp only [step, openStream] at h
      split at h
      next hopen =>
        cases h
        exact .reserve hopen.1 hopen.2 rfl rfl rfl
      next => cases h
  | send k =>
      obtain ⟨call, hk, hsend⟩ := Option.bind_eq_some_iff.mp h
      exact send_change hk hsend
  | recv tunnel =>
      obtain ⟨driver, -, hrecv⟩ := Option.bind_eq_some_iff.mp h
      exact recv_change hrecv
  | serve tunnel result =>
      obtain ⟨driver, -, hserve⟩ := Option.bind_eq_some_iff.mp h
      exact serve_change hserve
  | exit tunnel =>
      obtain ⟨driver, -, hexit⟩ := Option.bind_eq_some_iff.mp h
      exact exit_change hexit
  | receive k =>
      obtain ⟨call, hk, hreceive⟩ := Option.bind_eq_some_iff.mp h
      exact receive_change hk hreceive
  | cancel k =>
      obtain ⟨call, hk, hcancel⟩ := Option.bind_eq_some_iff.mp h
      exact cancel_change hk hcancel
  | drop k =>
      obtain ⟨call, hk, hdrop⟩ := Option.bind_eq_some_iff.mp h
      exact dropStream_change hk hdrop

end Change

/-! ## Accounting -/

section Accounting

variable {s s' : State} {tunnel : Nat} {trace out : List Observation}

theorem slots_eq (s : State) (tunnel : Nat) :
    (s.calls.countP fun call => call.slot = some tunnel) =
      s.inProgress tunnel + s.streams tunnel := by
  unfold State.inProgress State.streams
  induction s.calls with
  | nil => rfl
  | cons call calls ih =>
      rw [List.countP_cons, List.countP_cons, List.countP_cons, ih]
      obtain ⟨other, pc⟩ := call
      cases pc <;> simp [Call.slot, Call.inProgress, Call.isStream] <;> omega

/-- The counters of all tunnels show the slots in use, and none has wrapped around. -/
structure Accounted (trace : List Observation) (s : State) : Prop where
  counts : Counts wordSize Call.slot s.calls s.pool.live
  few : ∀ tunnel, (s.calls.countP fun call => call.slot = some tunnel) ≤ maxRefcount
  drivers : s.drivers.length = s.pool.nextId
  numbered : ∀ slot ∈ s.calls.map Call.slot, ∀ tunnel, slot = some tunnel →
    tunnel < s.pool.nextId
  released : ∀ tunnel previous, .released tunnel previous ∈ trace → 0 < previous

theorem Accounted.initial : Accounted [] initial where
  counts := Counts.nil
  few tunnel := Nat.zero_le _
  drivers := rfl
  numbered := List.forall_mem_nil _
  released tunnel previous hmem := by simp at hmem

theorem lt_wordSize_of_le {n : Nat} (h : n ≤ maxRefcount) : n < wordSize :=
  h.trans_lt (by decide)

theorem tunnel_of_slot {call : Call} (h : call.slot = some tunnel) : call.tunnel = tunnel := by
  unfold Call.slot at h
  split at h
  next => cases h
  next => exact Option.some.inj h

theorem Accounted.step (h : Accounted trace s) (hchange : Change s s' out) :
    Accounted (trace ++ out) s' := by
  cases hchange with
  | register hpool hdrivers hcalls =>
      refine ⟨?_, ?_, ?_, ?_, by simpa using h.released⟩
      · rw [hpool, hcalls]
        refine h.counts.reset fun call hmem hslot => ?_
        exact (h.numbered _ (List.mem_map_of_mem hmem) _ hslot).false
      · rw [hcalls]
        exact h.few
      · rw [hpool, hdrivers, h.drivers]
        rfl
      · rw [hpool, hcalls]
        exact fun slot hmem tunnel hslot => Nat.lt_succ_of_lt (h.numbered slot hmem tunnel hslot)
  | @reserve _ opened htunnel hfew hpool hdrivers hcalls =>
      refine ⟨?_, ?_, ?_, ?_, by simpa using h.released⟩
      · rw [hpool, hcalls]
        exact h.counts.take_append rfl
      · intro tunnel
        have hold := h.few tunnel
        rw [hcalls, List.countP_append, List.countP_singleton]
        split
        next heq =>
          obtain rfl : opened = tunnel := tunnel_of_slot (of_decide_eq_true heq)
          rw [slots_eq]
          omega
        next => exact hold
      · rw [hpool, hdrivers, h.drivers]
        rfl
      · rw [hpool, hcalls]
        rw [List.map_append]
        refine Tasks.forall_mem_append h.numbered ?_
        rintro tunnel ⟨⟩
        exact h.drivers ▸ htunnel
  | @release k call _ hk hcall hout =>
      have hslot := slot_of_ne_ended hcall
      refine ⟨h.counts.give (by decide) hk hslot rfl, ?_, h.drivers, ?_, ?_⟩
      · intro tunnel
        have hset := Tasks.countP_set hk { call with pc := .ended }
          fun call => call.slot = some tunnel
        have hold := h.few tunnel
        simp only [State.release, State.goto]
        have hended : ({ call with pc := .ended } : Call).slot = none := rfl
        simp only [hended, reduceCtorEq, decide_false, Bool.toNat_false] at hset
        omega
      · simp only [State.release, State.goto, List.map_set]
        refine Tasks.forall_mem_set h.numbered ?_
        rintro tunnel ⟨⟩
      · intro tunnel previous hmem
        rcases List.mem_append.mp hmem with hmem | hmem
        · exact h.released tunnel previous hmem
        · obtain ⟨rfl, rfl⟩ := hout tunnel previous hmem
          exact h.counts.pos_of_lt hk hslot (lt_wordSize_of_le (h.few _))
  | quiet hpool hdrivers hslots hout =>
      refine ⟨?_, ?_, ?_, ?_, ?_⟩
      · rw [hpool]
        exact h.counts.of_map_eq hslots
      · intro tunnel
        have hcount := congrArg (List.countP fun slot => slot = some tunnel) hslots
        rw [List.countP_map, List.countP_map] at hcount
        exact hcount.le.trans (h.few tunnel)
      · rw [hpool, hdrivers, h.drivers]
      · rw [hpool, hslots]
        exact h.numbered
      · intro tunnel previous hmem
        rcases List.mem_append.mp hmem with hmem | hmem
        · exact h.released tunnel previous hmem
        · exact absurd hmem (hout tunnel previous)

/--
In every reachable state the `live` counter of a tunnel is the number of its
`open_stream` calls in progress plus the number of its streams.  No decrement found it
at zero, and when the last of them has ended it is zero.
-/
theorem live_eq_inProgress_add_streams {events : List Event}
    (hrun : OpenStream.step.exec OpenStream.initial events = some (s, trace)) (tunnel : Nat) :
    s.pool.live tunnel = s.inProgress tunnel + s.streams tunnel ∧
      (∀ previous, .released tunnel previous ∈ trace → 0 < previous) ∧
      ((∀ call ∈ s.calls, call.tunnel = tunnel → call.pc = .ended) →
        s.pool.live tunnel = 0) := by
  have h : Accounted trace s :=
    Step.invariant (fun h hstep => h.step (step_change hstep)) Accounted.initial hrun
  have hlive := h.counts.eq_of_lt (lt_wordSize_of_le (h.few tunnel))
  refine ⟨by rw [hlive, slots_eq], h.released tunnel, fun hended => ?_⟩
  rw [hlive]
  refine List.countP_eq_zero.mpr fun call hmem hslot => ?_
  have hslot := of_decide_eq_true hslot
  have hpc := hended call hmem (tunnel_of_slot hslot)
  rw [Call.slot, hpc] at hslot
  cases hslot

private def fourCalls : List Event :=
  [.register, .openStream 0, .send 0, .recv 0, .serve 0 (.ok ()), .receive 0,
    .openStream 0, .send 1, .openStream 0, .cancel 2, .openStream 0, .send 3,
    .recv 0, .cancel 1, .serve 0 (.ok ()), .recv 0, .serve 0 (.error "refused".toList),
    .receive 3, .openStream 0, .send 4]

theorem fourCalls_live :
    ∃ last, OpenStream.step.exec OpenStream.initial fourCalls = some last ∧
      last.1.inProgress 0 = 1 ∧ last.1.streams 0 = 1 ∧ last.1.pool.live 0 = 2 := by
  have hlast : (OpenStream.step.exec OpenStream.initial fourCalls).any (fun last =>
      last.1.inProgress 0 = 1 && last.1.streams 0 = 1) = true := by
    decide +kernel
  obtain ⟨last, hrun, hcheck⟩ := (Option.any_eq_true _ _).mp hlast
  simp only [Bool.and_eq_true, decide_eq_true_eq] at hcheck
  refine ⟨last, hrun, hcheck.1, hcheck.2, ?_⟩
  rw [(live_eq_inProgress_add_streams hrun 0).1, hcheck.1, hcheck.2]

end Accounting

end OpenStream

end Interlink
