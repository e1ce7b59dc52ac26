import Interlink.Admin.Server

/-!
# What the admin server answers

A response says what has happened: `reload complete` that the call of this request has
installed a generation from files that were read after the request, `reload failed` that
it has installed nothing.  No request is answered twice.
-/

namespace Interlink

open Interlink.Foundation

/-! ## What a caller of `reload` learns -/

namespace TlsCredentialReloader

/-- What the calls of a reloader have left in the trace. -/
structure Reported (trace : List Observation) (s : State) : Prop where
  about : ∀ o ∈ trace, ∀ k, o.about k → k < s.calls.length
  stored : ∀ (k : Nat) (call : Call), s.calls[k]? = some call → call.stored = true →
    ∃ w generation, .installed (some k) w generation ∈ trace
  returned : ∀ (k : Nat) (result : Except InterlinkError Unit),
    s.calls[k]? = some (.returned result) → .returned k result ∈ trace

variable {lib : TlsLibrary} {reloader : TlsCredentialReloader} {s s' : State} {e : Event}
  {trace out : List Observation} {i w : Nat} {call next : Call} {generation : TlsGeneration}

theorem Reported.initial (files : FileSystem) : Reported [] (initial files) where
  about o ho := by cases ho
  stored k call hk := by cases hk
  returned k result hk := by cases hk

theorem Reported.setCall (h : Reported trace s) (hi : s.calls[i]? = some call)
    (hcalls : s'.calls = s.calls.set i next)
    (habout : ∀ o ∈ out, ∀ k, o.about k → k = i)
    (hstored : next.stored = true →
      ∃ w generation, .installed (some i) w generation ∈ trace ++ out)
    (hreturned : ∀ result, next = .returned result → .returned i result ∈ trace ++ out) :
    Reported (trace ++ out) s' where
  about o ho k hk := by
    rw [hcalls, List.length_set]
    rcases List.mem_append.mp ho with ho | ho
    · exact h.about o ho k hk
    · rw [habout o ho k hk]
      exact (List.getElem?_eq_some_iff.mp hi).1
  stored k old hk hold := by
    rw [hcalls] at hk
    rcases Tasks.getElem?_set_cases hk with ⟨rfl, rfl⟩ | ⟨-, hk⟩
    · exact hstored hold
    · obtain ⟨w, generation, hmem⟩ := h.stored k old hk hold
      exact ⟨w, generation, List.mem_append_left _ hmem⟩
  returned k result hk := by
    rw [hcalls] at hk
    rcases Tasks.getElem?_set_cases hk with ⟨rfl, heq⟩ | ⟨-, hk⟩
    · exact hreturned result heq
    · exact List.mem_append_left _ (h.returned k result hk)

theorem Reported.append (h : Reported trace s) (hcalls : s'.calls = s.calls)
    (habout : ∀ o ∈ out, ∀ k, ¬ o.about k) : Reported (trace ++ out) s' where
  about o ho k hk := by
    rw [hcalls]
    rcases List.mem_append.mp ho with ho | ho
    · exact h.about o ho k hk
    · exact absurd hk (habout o ho k)
  stored k call hk hstored := by
    rw [hcalls] at hk
    obtain ⟨w, generation, hmem⟩ := h.stored k call hk hstored
    exact ⟨w, generation, List.mem_append_left _ hmem⟩
  returned k result hk := by
    rw [hcalls] at hk
    exact List.mem_append_left _ (h.returned k result hk)

theorem Reported.step (h : Reported trace s) (hchange : Change lib reloader s e s' out) :
    Reported (trace ++ out) s' := by
  cases hchange with
  | reload =>
      refine ⟨fun o ho k hk => ?_, fun k call hk hstored => ?_, fun k result hk => ?_⟩
      · rw [List.length_append, List.length_singleton]
        rcases List.mem_append.mp ho with ho | ho
        · exact Nat.lt_succ_of_lt (h.about o ho k hk)
        · obtain rfl := List.mem_singleton.mp ho
          rw [show s.calls.length = k from hk]
          exact Nat.lt_succ_self _
      · rcases Tasks.getElem?_append_cases hk with ⟨-, rfl⟩ | hk
        · cases hstored
        · obtain ⟨w, generation, hmem⟩ := h.stored k call hk hstored
          exact ⟨w, generation, List.mem_append_left _ hmem⟩
      · rcases Tasks.getElem?_append_cases hk with ⟨-, heq⟩ | hk
        · cases heq
        · exact List.mem_append_left _ (h.returned k result hk)
  | lock hi => exact h.setCall hi rfl (by simp [Observation.about]) (by rintro ⟨⟩) (by rintro _ ⟨⟩)
  | joinOk hi => exact h.setCall hi rfl (by simp) (by rintro ⟨⟩) (by rintro _ ⟨⟩)
  | joinError error hi => exact h.setCall hi rfl (by simp) (by rintro ⟨⟩) (by rintro _ ⟨⟩)
  | @store i w generation hi =>
      exact h.setCall hi rfl (by simp [Observation.about])
        (fun _ => ⟨w, generation, by simp⟩) (by rintro _ ⟨⟩)
  | @unlock i result hi =>
      refine h.setCall hi rfl (by simp [Observation.about]) (fun hstored => ?_) ?_
      · have hunlocking : (Call.unlocking result).stored = true := by
          cases result with
          | ok value => rfl
          | error error => cases hstored
        obtain ⟨w, generation, hmem⟩ := h.stored i _ hi hunlocking
        exact ⟨w, generation, List.mem_append_left _ hmem⟩
      · rintro _ ⟨⟩
        simp
  | cancelWaiting hi => exact h.setCall hi rfl (by simp) (by rintro ⟨⟩) (by rintro _ ⟨⟩)
  | cancelBuilding hi => exact h.setCall hi rfl (by simp) (by rintro ⟨⟩) (by rintro _ ⟨⟩)
  | _ => exact h.append rfl (by simp [Observation.about])

end TlsCredentialReloader

namespace AdminServer

/-! ## What a response is worth -/

def Observation.reloader? : Observation → Option TlsCredentialReloader.Observation
  | .reloader observation => some observation
  | _ => none

def reloaderTrace (trace : List Observation) : List TlsCredentialReloader.Observation :=
  trace.filterMap Observation.reloader?

def Observation.ready? : Observation → Option Bool
  | .setReady ready => some ready
  | _ => none

def lastReady (trace : List Observation) : Bool :=
  (trace.filterMap Observation.ready?).getLast?.getD true

/--
The response to `data`, with what was observed before it was read and since.  A request
for a reload makes its call in the step that reads it.
-/
inductive Warranted (server : AdminServer) (lib : TlsLibrary) (before : List Observation)
    (data : List UInt8) (since : List Observation) : Response → Prop
  | health (hendpoint : endpoint data = .healthz) :
      Warranted server lib before data since .health
  | readiness (hendpoint : endpoint data = .readyz) :
      Warranted server lib before data since (if lastReady before then .ready else .notReady)
  | reload {call w generation} (hendpoint : endpoint data = .reload)
      (hhandler : server.hasReloadHandler = true)
      (hcalled : since.head? = some (.reloader (.called call)))
      (hreturned : .returned call (.ok ()) ∈ reloaderTrace since)
      (hinstalled : .installed (some call) w generation ∈ reloaderTrace since)
      (hbuilt : TlsCredentialReloader.BuiltFrom lib server.reloader (reloaderTrace since) w
        generation) :
      Warranted server lib before data since .reload
  | reloadFailed {call error} (hendpoint : endpoint data = .reload)
      (hhandler : server.hasReloadHandler = true)
      (hcalled : since.head? = some (.reloader (.called call)))
      (hreturned : .returned call (.error error) ∈ reloaderTrace since) :
      Warranted server lib before data since .reloadFailed
  | reloadUnavailable (hendpoint : endpoint data = .reload)
      (hhandler : server.hasReloadHandler = false) :
      Warranted server lib before data since .reloadUnavailable
  | notFound (hendpoint : endpoint data = .unknown) :
      Warranted server lib before data since .notFound

section Invariant

variable {server : AdminServer} {lib : TlsLibrary} {s s' : State} {i : Nat} {e : Event}
  {trace out before since : List Observation} {data : List UInt8} {response : Response}
  {request : Request}

@[simp]
theorem reloaderTrace_append (l r : List Observation) :
    reloaderTrace (l ++ r) = reloaderTrace l ++ reloaderTrace r :=
  List.filterMap_append

@[simp]
theorem reloaderTrace_map (l : List TlsCredentialReloader.Observation) :
    reloaderTrace (l.map .reloader) = l := by
  simp [reloaderTrace, List.filterMap_map, Function.comp_def, Observation.reloader?]

theorem lastReady_append (h : ∀ o ∈ out, o.ready? = none) :
    lastReady (trace ++ out) = lastReady trace := by
  rw [lastReady, List.filterMap_append, List.filterMap_eq_nil_iff.mpr h, List.append_nil, lastReady]

theorem Warranted.append (h : Warranted server lib before data since response)
    (out : List Observation) : Warranted server lib before data (since ++ out) response := by
  have hmem : ∀ {o}, o ∈ reloaderTrace since → o ∈ reloaderTrace (since ++ out) := by
    intro o ho
    rw [reloaderTrace_append]
    exact List.mem_append_left _ ho
  have hhead : ∀ {o}, since.head? = some o → (since ++ out).head? = some o := by
    intro o ho
    rw [List.head?_append, ho, Option.some_or]
  cases h with
  | health hendpoint => exact .health hendpoint
  | readiness hendpoint => exact .readiness hendpoint
  | reload hendpoint hhandler hcalled hreturned hinstalled hbuilt =>
      refine .reload hendpoint hhandler (hhead hcalled) (hmem hreturned) (hmem hinstalled) ?_
      rw [reloaderTrace_append]
      exact hbuilt.append
  | reloadFailed hendpoint hhandler hcalled hreturned =>
      exact .reloadFailed hendpoint hhandler (hhead hcalled) (hmem hreturned)
  | reloadUnavailable hendpoint hhandler => exact .reloadUnavailable hendpoint hhandler
  | notFound hendpoint => exact .notFound hendpoint

def Request.Story (server : AdminServer) (lib : TlsLibrary) (trace : List Observation) (i : Nat) :
    Request → Prop
  | .reading | .finished => True
  | .reloading call => ∃ before data since, trace = before ++ .read i data :: since ∧
      endpoint data = .reload ∧ server.hasReloadHandler = true ∧
      since.head? = some (.reloader (.called call)) ∧
      ∀ o ∈ reloaderTrace before, ¬ o.about call
  | .responding response => ∃ before data since, trace = before ++ .read i data :: since ∧
      Warranted server lib before data since response

theorem Request.Story.append (h : request.Story server lib trace i) (out : List Observation) :
    request.Story server lib (trace ++ out) i := by
  cases request with
  | reading => trivial
  | finished => trivial
  | reloading call =>
      obtain ⟨before, data, since, rfl, hendpoint, hhandler, hcalled, habout⟩ := h
      refine ⟨before, data, since ++ out, by simp, hendpoint, hhandler, ?_, habout⟩
      rw [List.head?_append, hcalled, Option.some_or]
  | responding response =>
      obtain ⟨before, data, since, rfl, hwarranted⟩ := h
      exact ⟨before, data, since ++ out, by simp, hwarranted.append out⟩

def Answered (server : AdminServer) (lib : TlsLibrary) (before : List Observation) :
    Observation → Prop
  | .responded i response => (∀ other, .responded i other ∉ before) ∧
      ∃ start data since, before = start ++ .read i data :: since ∧
        Warranted server lib start data since response
  | _ => True

structure Inv (server : AdminServer) (lib : TlsLibrary) (trace : List Observation) (s : State) :
    Prop where
  reloader : TlsCredentialReloader.Invariant lib server.reloader (reloaderTrace trace) s.reloader
  reported : TlsCredentialReloader.Reported (reloaderTrace trace) s.reloader
  ready : s.ready = lastReady trace
  story : ∀ (i : Nat) (request : Request), s.requests[i]? = some request →
    request.Story server lib trace i
  responded : ∀ i response, .responded i response ∈ trace → s.requests[i]? = some .finished
  answered : Preceded (Answered server lib) trace

theorem Inv.initial (server : AdminServer) (lib : TlsLibrary) (files : FileSystem) :
    Inv server lib [] (initial files) where
  reloader := .initial files
  reported := .initial files
  ready := rfl
  story i request hi := by cases hi
  responded i response hmem := by cases hmem
  answered := .nil

def Observation.responds : Observation → Bool
  | .responded _ _ => true
  | _ => false

private theorem answered_append (h : Preceded (Answered server lib) trace)
    (hout : ∀ o ∈ out, o.responds = false) : Preceded (Answered server lib) (trace ++ out) := by
  refine h.append fun before o after heq => ?_
  have hquiet := hout o (by simp [heq])
  cases o with
  | responded i response => cases hquiet
  | _ => trivial

private theorem responded_of_append (h : .responded i response ∈ trace ++ out)
    (hout : ∀ o ∈ out, o.responds = false) : .responded i response ∈ trace := by
  rcases List.mem_append.mp h with h | h
  · exact h
  · cases hout _ h

private theorem Inv.pass (h : Inv server lib trace s) (hout : ∀ o ∈ out, o.responds = false)
    (hreloader : TlsCredentialReloader.Invariant lib server.reloader (reloaderTrace (trace ++ out))
      s'.reloader)
    (hreported : TlsCredentialReloader.Reported (reloaderTrace (trace ++ out)) s'.reloader)
    (hready : s'.ready = lastReady (trace ++ out)) (hrequests : s'.requests = s.requests) :
    Inv server lib (trace ++ out) s' where
  reloader := hreloader
  reported := hreported
  ready := hready
  story i request hi := by
    rw [hrequests] at hi
    exact (h.story i request hi).append out
  responded i response hmem := by
    rw [hrequests]
    exact h.responded i response (responded_of_append hmem hout)
  answered := answered_append h.answered hout

private theorem Inv.setRequest (h : Inv server lib trace s) {old new : Request}
    (hi : s.requests[i]? = some old) (hold : old ≠ .finished)
    (hrequests : s'.requests = s.requests.set i new)
    (hstory : new.Story server lib (trace ++ out) i) (hout : ∀ o ∈ out, o.responds = false)
    (hreloader : TlsCredentialReloader.Invariant lib server.reloader (reloaderTrace (trace ++ out))
      s'.reloader)
    (hreported : TlsCredentialReloader.Reported (reloaderTrace (trace ++ out)) s'.reloader)
    (hready : s'.ready = lastReady (trace ++ out)) : Inv server lib (trace ++ out) s' where
  reloader := hreloader
  reported := hreported
  ready := hready
  story j request hj := by
    rw [hrequests] at hj
    rcases Tasks.getElem?_set_cases hj with ⟨rfl, rfl⟩ | ⟨-, hj⟩
    · exact hstory
    · exact (h.story j request hj).append out
  responded j response hmem := by
    rw [hrequests]
    exact Tasks.getElem?_set_of_ne hi (h.responded j response (responded_of_append hmem hout))
      hold new
  answered := answered_append h.answered hout

def Observation.isRequest : Observation → Bool
  | .read _ _ | .responded _ _ => true
  | _ => false

private theorem reloaderTrace_of_isRequest (h : ∀ o ∈ out, o.isRequest = true) :
    reloaderTrace (trace ++ out) = reloaderTrace trace := by
  have hnil : reloaderTrace out = [] := by
    refine List.filterMap_eq_nil_iff.mpr fun o ho => ?_
    have hrequest := h o ho
    cases o with
    | setReady ready => cases hrequest
    | reloader observation => cases hrequest
    | _ => rfl
  rw [reloaderTrace_append, hnil, List.append_nil]

private theorem lastReady_of_isRequest (h : ∀ o ∈ out, o.isRequest = true) :
    lastReady (trace ++ out) = lastReady trace := by
  refine lastReady_append fun o ho => ?_
  have hrequest := h o ho
  cases o with
  | setReady ready => cases hrequest
  | reloader observation => cases hrequest
  | _ => rfl

private theorem Inv.moveRequest (h : Inv server lib trace s) {old new : Request}
    (hi : s.requests[i]? = some old) (hold : old ≠ .finished)
    (hstory : new.Story server lib (trace ++ out) i) (hout : ∀ o ∈ out, o.responds = false)
    (hrequest : ∀ o ∈ out, o.isRequest = true) :
    Inv server lib (trace ++ out) (s.setRequest i new) := by
  refine h.setRequest hi hold rfl hstory hout ?_ ?_ ?_
  · rw [reloaderTrace_of_isRequest hrequest]
    exact h.reloader
  · rw [reloaderTrace_of_isRequest hrequest]
    exact h.reported
  · rw [lastReady_of_isRequest hrequest]
    exact h.ready

private theorem Inv.answer (h : Inv server lib trace s) (hi : s.requests[i]? = some .reading)
    (hwarranted : Warranted server lib trace data [] response) :
    Inv server lib (trace ++ [.read i data]) (s.setRequest i (.responding response)) :=
  h.moveRequest hi nofun ⟨trace, data, [], rfl, hwarranted⟩ (by simp [Observation.responds])
    (by simp [Observation.isRequest])

section Reload

variable {call w : Nat} {generation : TlsGeneration}

/-- What is about a call that was made since the request was read has been observed since. -/
private theorem mem_since (habout : ∀ o ∈ reloaderTrace before, ¬ o.about call)
    {o : TlsCredentialReloader.Observation}
    (ho : o ∈ reloaderTrace (before ++ .read i data :: since)) (hcall : o.about call) :
    o ∈ reloaderTrace since := by
  rw [reloaderTrace_append] at ho
  rcases List.mem_append.mp ho with ho | ho
  · exact absurd hcall (habout o ho)
  · exact ho

private theorem builtFrom_since
    (h : TlsCredentialReloader.Invariant lib server.reloader
      (reloaderTrace (before ++ .read i data :: since)) s.reloader)
    (habout : ∀ o ∈ reloaderTrace before, ¬ o.about call)
    (hinstalled : .installed (some call) w generation ∈
      reloaderTrace (before ++ .read i data :: since)) :
    TlsCredentialReloader.BuiltFrom lib server.reloader (reloaderTrace since) w generation := by
  obtain ⟨reads, now, hreads, hgeneration⟩ :=
    h.builds.builtFrom (h.builds.finished (some call) w generation hinstalled)
  have hlocked := mem_since habout ((h.history call).installed w generation hinstalled).2 rfl
  have hfirst := h.builds.spawnedFirst w
  have hsplit : reloaderTrace (before ++ .read i data :: since) =
      reloaderTrace before ++ reloaderTrace since := reloaderTrace_append _ _
  rw [hsplit] at hfirst hreads
  refine ⟨reads, now, fun file => ?_, hgeneration⟩
  rcases List.mem_append.mp (hreads file) with hread | hread
  · exact absurd rfl (hfirst.not_mem_left ⟨_, hlocked, rfl⟩ _ hread)
  · exact hread

end Reload

theorem Inv.step (h : Inv server lib trace s) (hstep : server.step lib s e = some (s', out)) :
    Inv server lib (trace ++ out) s' := by
  cases AdminServer.step_change hstep with
  | setReady ready =>
      refine h.pass (by simp [Observation.responds]) ?_ ?_ ?_ rfl
      · rw [reloaderTrace_append]
        exact (List.append_nil (reloaderTrace trace)).symm ▸ h.reloader
      · rw [reloaderTrace_append]
        exact (List.append_nil (reloaderTrace trace)).symm ▸ h.reported
      · simp [lastReady, Observation.ready?]
  | accept =>
      rw [List.append_nil]
      refine ⟨h.reloader, h.reported, h.ready, fun i request hi => ?_, fun i response hmem => ?_,
        h.answered⟩
      · rcases Tasks.getElem?_append_cases hi with ⟨-, rfl⟩ | hi
        · trivial
        · exact h.story i request hi
      · exact Tasks.getElem?_append_of (h.responded i response hmem) _
  | hangup hi =>
      exact h.moveRequest hi nofun trivial (by simp) (by simp)
  | health hi hendpoint => exact h.answer hi (.health hendpoint)
  | readiness hi hendpoint =>
      rw [h.ready]
      exact h.answer hi (.readiness hendpoint)
  | @reload i data reloader hi hendpoint hhandler hreloader =>
      have hchange := TlsCredentialReloader.step_change hreloader
      have htrace : reloaderTrace (trace ++ [.read i data,
          .reloader (.called s.reloader.calls.length)]) =
          reloaderTrace trace ++ [.called s.reloader.calls.length] :=
        reloaderTrace_append _ _
      refine h.setRequest hi nofun rfl ⟨trace, data, _, rfl, hendpoint, hhandler, ?_, ?_⟩
        (by simp [Observation.responds]) ?_ ?_ ?_
      · rfl
      · exact fun o ho habout => Nat.lt_irrefl _ (h.reported.about o ho _ habout)
      · rw [htrace]
        exact h.reloader.step hchange
      · rw [htrace]
        exact h.reported.step hchange
      · rw [lastReady_append (by simp [Observation.ready?])]
        exact h.ready
  | unavailable hi hendpoint hhandler => exact h.answer hi (.reloadUnavailable hendpoint hhandler)
  | unknown hi hendpoint => exact h.answer hi (.notFound hendpoint)
  | @reloaded i call hi hcall =>
      obtain ⟨before, data, since, rfl, hendpoint, hhandler, hcalled, habout⟩ := h.story i _ hi
      have hreturned := mem_since habout (h.reported.returned call _ hcall) rfl
      obtain ⟨w, generation, hinstalled⟩ := h.reported.stored call _ hcall rfl
      have hwarranted : Warranted server lib before data since .reload :=
        .reload hendpoint hhandler hcalled hreturned (mem_since habout hinstalled rfl)
          (builtFrom_since h.reloader habout hinstalled)
      exact h.moveRequest hi nofun ⟨before, data, since, by simp, hwarranted⟩ (by simp) (by simp)
  | @reloadFailed i call error hi hcall =>
      obtain ⟨before, data, since, rfl, hendpoint, hhandler, hcalled, habout⟩ := h.story i _ hi
      have hreturned := mem_since habout (h.reported.returned call _ hcall) rfl
      have hwarranted : Warranted server lib before data since .reloadFailed :=
        .reloadFailed hendpoint hhandler hcalled hreturned
      exact h.moveRequest hi nofun ⟨before, data, since, by simp, hwarranted⟩ (by simp) (by simp)
  | @respond i response hi =>
      have hstory := h.story i _ hi
      have hrequest : ∀ o ∈ [Observation.responded i response], o.isRequest = true := by
        simp [Observation.isRequest]
      refine ⟨?_, ?_, ?_, fun j request hj => ?_, fun j other hmem => ?_,
        h.answered.snoc ⟨?_, hstory⟩⟩
      · rw [reloaderTrace_of_isRequest hrequest]
        exact h.reloader
      · rw [reloaderTrace_of_isRequest hrequest]
        exact h.reported
      · rw [lastReady_of_isRequest hrequest]
        exact h.ready
      · rcases Tasks.getElem?_set_cases hj with ⟨-, rfl⟩ | ⟨-, hj⟩
        · trivial
        · exact (h.story j request hj).append _
      · by_cases hij : j = i
        · subst hij
          exact Tasks.getElem?_set_of hi _
        · rcases List.mem_append.mp hmem with hmem | hmem
          · exact (List.getElem?_set_ne (Ne.symm hij)).trans (h.responded j other hmem)
          · cases List.mem_singleton.mp hmem
            exact absurd rfl hij
      · intro other hmem
        cases hi.symm.trans (h.responded i other hmem)
  | reloader _ hreloader =>
      have hchange := TlsCredentialReloader.step_change hreloader
      refine h.pass (by simp [Observation.responds]) ?_ ?_ ?_ rfl
      · simpa using h.reloader.step hchange
      · simpa using h.reported.step hchange
      · rw [lastReady_append (by simp [Observation.ready?])]
        exact h.ready

end Invariant

/-! ## Runs -/

variable {server : AdminServer} {lib : TlsLibrary} {s s' : State} {e : Event}
  {trace out : List Observation}

theorem inv_of_run {files : FileSystem} {events : List Event}
    (hrun : (server.step lib).exec (initial files) events = some (s, trace)) :
    Inv server lib trace s :=
  Step.invariant (I := fun trace s => Inv server lib trace s) (fun h hstep => h.step hstep)
    (.initial server lib files) hrun

theorem reloader_step (hstep : server.step lib s e = some (s', out)) :
    (s'.reloader = s.reloader ∧ reloaderTrace out = []) ∨
      ∃ event,
        server.reloader.step lib s.reloader event = some (s'.reloader, reloaderTrace out) := by
  cases step_change hstep with
  | reload _ _ _ hreloader => exact .inr ⟨_, hreloader⟩
  | reloader _ hreloader => exact .inr ⟨_, by rw [reloaderTrace_map]; exact hreloader⟩
  | _ => exact .inl ⟨rfl, rfl⟩

/-- The admin server with its reloader refines the reloader. -/
theorem reloader_run {files : FileSystem} {events : List Event}
    (hrun : (server.step lib).exec (initial files) events = some (s, trace)) :
    ∃ moves, (server.reloader.step lib).exec (TlsCredentialReloader.initial files) moves =
      some (s.reloader, reloaderTrace trace) := by
  refine Step.invariant (I := fun trace s => ∃ moves,
    (server.reloader.step lib).exec (TlsCredentialReloader.initial files) moves =
      some (s.reloader, reloaderTrace trace)) ?_ ⟨[], rfl⟩ hrun
  rintro trace s e s' out ⟨moves, hmoves⟩ hstep
  rw [reloaderTrace_append]
  rcases reloader_step hstep with ⟨hreloader, hnil⟩ | ⟨event, hreloader⟩
  · exact ⟨moves, by rw [hreloader, hnil, List.append_nil]; exact hmoves⟩
  · exact ⟨moves ++ [event], Step.exec_append hmoves (Step.exec_single hreloader)⟩

/--
Whatever is interleaved with the requests, each is answered at most once, with the
response to the bytes that were read: `reload complete` only when the call that it made
itself has returned and has installed a generation from files read after the request,
`reload failed` only when that call has returned an error, and such a call never installs
anything.
-/
theorem responses_warranted {files : FileSystem} {events : List Event}
    (hrun : (server.step lib).exec (initial files) events = some (s, trace)) :
    (∃ moves, (server.reloader.step lib).exec (TlsCredentialReloader.initial files) moves =
        some (s.reloader, reloaderTrace trace)) ∧
      (∀ before i response after, trace = before ++ .responded i response :: after →
        (∀ other, .responded i other ∉ before ++ after) ∧
        ∃ start data since, before = start ++ .read i data :: since ∧
          Warranted server lib start data since response) ∧
      ∀ call error w generation, .returned call (.error error) ∈ reloaderTrace trace →
        .installed (some call) w generation ∉ reloaderTrace trace := by
  have hinv := inv_of_run hrun
  refine ⟨reloader_run hrun, fun before i response after htrace => ?_,
    hinv.reloader.consistent.failedCall⟩
  obtain ⟨hfirst, hwarranted⟩ := hinv.answered before _ after htrace
  refine ⟨fun other hmem => ?_, hwarranted⟩
  rcases List.mem_append.mp hmem with hmem | hmem
  · exact hfirst other hmem
  · -- The other response would have this one before it.
    obtain ⟨middle, last, rfl⟩ := List.append_of_mem hmem
    have hsplit : trace = (before ++ .responded i response :: middle) ++
        .responded i other :: last := by simp [htrace]
    exact (hinv.answered _ _ last hsplit).1 response (by simp)

section Example

open TlsCredentialReloader.Example

private def withHandler : AdminServer := ⟨sidecar, true⟩

private def loading : List TlsCredentialReloader.Event :=
  built 0 ++ [.load]

private def reloading : List TlsCredentialReloader.Event :=
  [.rewrite sidecar.paths.certificate (.ok (pemHeader ++ [4, 1])), .call 0 .lock] ++ built 1 ++
    [.call 0 .join, .call 0 .store, .call 0 .unlock]

/-- A reload is requested and the certificate is rewritten before it is read. -/
private def rotated : List Event :=
  loading.map .reloader ++
    [.accept, .read 0 (some (bytes "POST /reload HTTP/1.1".toList))] ++
    reloading.map .reloader ++ [.reloaded 0, .respond 0]

private def complete : Observation → Bool
  | .responded 0 .reload => true
  | _ => false

theorem rotated_warranted :
    ∃ last, (withHandler.step TlsGeneration.Example.library).exec (initial (issued 3)) rotated =
        some last ∧
      last.1.reloader.generation.any (presents 4) = true ∧
      ∃ before after start data since, last.2 = before ++ .responded 0 .reload :: after ∧
        before = start ++ .read 0 data :: since ∧
        Warranted withHandler TlsGeneration.Example.library start data since .reload := by
  have hany : ((withHandler.step TlsGeneration.Example.library).exec (initial (issued 3))
      rotated).any (fun last => last.1.reloader.generation.any (presents 4) &&
        last.2.any complete) = true := by
    decide +kernel
  obtain ⟨⟨s, trace⟩, hrun, hcheck⟩ := (Option.any_eq_true _ _).mp hany
  simp only [Bool.and_eq_true] at hcheck
  obtain ⟨o, ho, hcomplete⟩ := List.any_eq_true.mp hcheck.2
  obtain rfl : o = .responded 0 .reload := by
    unfold complete at hcomplete
    split at hcomplete
    next => rfl
    next => cases hcomplete
  obtain ⟨before, after, htrace⟩ := List.append_of_mem ho
  obtain ⟨-, start, data, since, hbefore, hwarranted⟩ :=
    (responses_warranted hrun).2.1 before 0 .reload after htrace
  exact ⟨_, hrun, hcheck.1, before, after, start, data, since, htrace, hbefore, hwarranted⟩

end Example

/-! ## Which requests reach an endpoint -/

def RequestLine (method path line : List UInt8) : Prop :=
  ∃ lead gap rest, line = lead ++ (method ++ (gap ++ (path ++ rest))) ∧
    (∀ b ∈ lead, isAsciiWhitespace b = true) ∧ gap ≠ [] ∧
    (∀ b ∈ gap, isAsciiWhitespace b = true) ∧ ∀ b ∈ rest.head?, isAsciiWhitespace b = true

def IsWord (w : List UInt8) : Prop :=
  w ≠ [] ∧ ∀ b ∈ w, isAsciiWhitespace b = false

instance (w : List UInt8) : Decidable (IsWord w) :=
  decidable_of_iff (w ≠ [] ∧ w.all (!isAsciiWhitespace ·) = true) (by simp [IsWord])

theorem requestLine_iff {method path line : List UInt8} (hmethod : IsWord method)
    (hpath : IsWord path) :
    RequestLine method path line ↔
      ∃ rest, words isAsciiWhitespace line = method :: path :: rest := by
  constructor
  · rintro ⟨lead, gap, rest, rfl, hlead, hne, hgap, hrest⟩
    refine ⟨words isAsciiWhitespace rest, words_eq_cons.mpr ⟨lead, gap ++ (path ++ rest), rfl,
      hlead, hmethod.1, hmethod.2, fun b hb => ?_, ?_⟩⟩
    · refine hgap b (List.mem_of_mem_head? ?_)
      rwa [List.head?_append_of_ne_nil _ hne] at hb
    · rw [words_lead_append hgap, words_append hpath.1 hpath.2 hrest]
  · rintro ⟨rest, hwords⟩
    obtain ⟨lead, tail, rfl, hlead, -, -, htail, hnext⟩ := words_eq_cons.mp hwords
    obtain ⟨gap, last, rfl, hgap, -, -, hlast, -⟩ := words_eq_cons.mp hnext
    refine ⟨lead, gap, last, rfl, hlead, ?_, hgap, hlast⟩
    rintro rfl
    obtain ⟨b, path, rfl⟩ := List.exists_cons_of_ne_nil hpath.1
    have hsep := htail b rfl
    rw [hpath.2 b (by simp)] at hsep
    cases hsep

private theorem words_getD_iff {method path line : List UInt8} (hmethod : IsWord method)
    (hpath : IsWord path) :
    ((words isAsciiWhitespace line)[0]?.getD [] = method ∧
        (words isAsciiWhitespace line)[1]?.getD [] = path) ↔ RequestLine method path line := by
  rw [requestLine_iff hmethod hpath]
  rcases words isAsciiWhitespace line with - | ⟨first, - | ⟨second, rest⟩⟩
  · simp [Ne.symm hmethod.1]
  · simp [Ne.symm hpath.1]
  · simp

private theorem select_iff (method path : List UInt8) :
    (select method path = .healthz ↔ method = get ∧ path = healthzPath) ∧
      (select method path = .readyz ↔ method = get ∧ path = readyzPath) ∧
      (select method path = .reload ↔ method = post ∧ path = reloadPath) := by
  have hmethods : get ≠ post := by decide
  have hpaths : healthzPath ≠ readyzPath := by decide
  unfold select
  split
  next h => simp [h.1, h.2, hmethods, hpaths]
  next hhealthz =>
    split
    next h => simp [h.1, h.2, hmethods, hpaths.symm]
    next hreadyz =>
      split
      next h => simp [h.1, h.2, hmethods.symm]
      next hreload => simp [hhealthz, hreadyz, hreload]

/--
An endpoint is reached just by the requests whose first line has its method and its path
as its first words, whatever stands around them.
-/
theorem endpoint_iff_requestLine (data : List UInt8) :
    (endpoint data = .healthz ↔ RequestLine get healthzPath (firstLine data)) ∧
      (endpoint data = .readyz ↔ RequestLine get readyzPath (firstLine data)) ∧
      (endpoint data = .reload ↔ RequestLine post reloadPath (firstLine data)) := by
  have hget : IsWord get := by decide
  have hpost : IsWord post := by decide
  rw [← words_getD_iff hget (by decide), ← words_getD_iff hget (by decide),
    ← words_getD_iff hpost (by decide)]
  exact select_iff _ _

end AdminServer

end Interlink
