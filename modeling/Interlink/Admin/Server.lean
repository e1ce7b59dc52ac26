import Interlink.Foundation.Utf8
import Interlink.Foundation.Words
import Interlink.Proxy.ReloadSafety

/-!
# The admin server

`handle_request` answers what one read returns: the first two words of the first line
select the endpoint.  A `POST /reload` waits for its call of `reload`, so the requests
are interleaved with the reloader, with the rewrites of its files and with handshakes.
The admin server is started after the first credentials are loaded, it is the only
caller of `reload`, and its handlers are not cancelled.
-/

namespace Interlink

open Interlink.Foundation

namespace AdminServer

/-! ## Requests -/

def isAsciiWhitespace (b : UInt8) : Bool :=
  b == 32 || b == 9 || b == 10 || b == 12 || b == 13

inductive Endpoint where
  | healthz
  | readyz
  | reload
  | unknown
  deriving DecidableEq, Repr

def firstLine (data : List UInt8) : List UInt8 :=
  data.takeWhile (· != 10)

def get : List UInt8 := bytes "GET".toList

def post : List UInt8 := bytes "POST".toList

def healthzPath : List UInt8 := bytes "/healthz".toList

def readyzPath : List UInt8 := bytes "/readyz".toList

def reloadPath : List UInt8 := bytes "/reload".toList

def select (method path : List UInt8) : Endpoint :=
  if method = get ∧ path = healthzPath then .healthz
  else if method = get ∧ path = readyzPath then .readyz
  else if method = post ∧ path = reloadPath then .reload
  else .unknown

def endpoint (data : List UInt8) : Endpoint :=
  let parts := words isAsciiWhitespace (firstLine data)
  select (parts[0]?.getD []) (parts[1]?.getD [])

/-! ## Responses -/

inductive Response where
  | health
  | ready
  | notReady
  | reload
  | reloadFailed
  | reloadUnavailable
  | notFound
  deriving DecidableEq, Repr

structure Text where
  status : Str
  contentLength : Nat
  body : Str

def Response.text : Response → Text
  | .health => ⟨"200 OK".toList, 2, "ok".toList⟩
  | .ready => ⟨"200 OK".toList, 5, "ready".toList⟩
  | .notReady => ⟨"503 Service Unavailable".toList, 9, "not ready".toList⟩
  | .reload => ⟨"200 OK".toList, 15, "reload complete".toList⟩
  | .reloadFailed => ⟨"500 Internal Server Error".toList, 13, "reload failed".toList⟩
  | .reloadUnavailable =>
      ⟨"503 Service Unavailable".toList, 18, "reload unavailable".toList⟩
  | .notFound => ⟨"404 Not Found".toList, 9, "not found".toList⟩

def Response.bytes (response : Response) : List UInt8 :=
  Foundation.bytes ("HTTP/1.1 ".toList ++ response.text.status ++
    "\r\nContent-Type: text/plain\r\nContent-Length: ".toList ++
    Nat.toDigits 10 response.text.contentLength ++ "\r\nConnection: close\r\n\r\n".toList ++
    response.text.body)

theorem Response.contentLength_eq (response : Response) :
    response.text.contentLength = (Foundation.bytes response.text.body).length := by
  cases response <;> decide

end AdminServer

/-! ## The server -/

structure AdminServer where
  reloader : TlsCredentialReloader
  hasReloadHandler : Bool

namespace AdminServer

/-- `handle_request`: before its read, at the await of `reload`, before its write, or over. -/
inductive Request where
  | reading
  | reloading (call : Nat)
  | responding (response : Response)
  | finished
  deriving DecidableEq, Repr

structure State where
  reloader : TlsCredentialReloader.State
  ready : Bool
  requests : List Request

def initial (files : FileSystem) : State :=
  ⟨TlsCredentialReloader.initial files, true, []⟩

inductive Event where
  | setReady (ready : Bool)
  | accept
  | read (request : Nat) (result : Option (List UInt8))
  | reloaded (request : Nat)
  | respond (request : Nat)
  | reloader (event : TlsCredentialReloader.Event)

inductive Observation where
  | setReady (ready : Bool)
  | read (request : Nat) (data : List UInt8)
  | responded (request : Nat) (response : Response)
  | reloader (observation : TlsCredentialReloader.Observation)

/-- What only a request does, and what would cancel one. -/
def reserved : TlsCredentialReloader.Event → Bool
  | .reload | .call _ .cancel => true
  | _ => false

def State.setRequest (s : State) (i : Nat) (request : Request) : State :=
  { s with requests := s.requests.set i request }

section Steps

variable (server : AdminServer) (lib : TlsLibrary) (s : State) (i : Nat)

def dispatch (data : List UInt8) : Endpoint → Option (State × List Observation)
  | .healthz => some (s.setRequest i (.responding .health), [.read i data])
  | .readyz =>
      some (s.setRequest i (.responding (if s.ready then .ready else .notReady)), [.read i data])
  | .reload =>
      if server.hasReloadHandler then
        (server.reloader.step lib s.reloader .reload).map fun (reloader, out) =>
          ({ s.setRequest i (.reloading s.reloader.calls.length) with reloader := reloader },
            .read i data :: out.map .reloader)
      else some (s.setRequest i (.responding .reloadUnavailable), [.read i data])
  | .unknown => some (s.setRequest i (.responding .notFound), [.read i data])

/-- The buffer has 1024 bytes; an end of the stream or an error is not answered. -/
def read : Option (List UInt8) → Request → Option (State × List Observation)
  | none, .reading | some [], .reading => some (s.setRequest i .finished, [])
  | some (b :: data), .reading =>
      if (b :: data).length ≤ 1024 then
        dispatch server lib s i (b :: data) (endpoint (b :: data))
      else none
  | _, _ => none

def reloaded : Request → Option (State × List Observation)
  | .reloading call =>
      match s.reloader.calls[call]? with
      | some (.returned (.ok ())) => some (s.setRequest i (.responding .reload), [])
      | some (.returned (.error _)) => some (s.setRequest i (.responding .reloadFailed), [])
      | _ => none
  | _ => none

def respond : Request → Option (State × List Observation)
  | .responding response => some (s.setRequest i .finished, [.responded i response])
  | _ => none

end Steps

def step (server : AdminServer) (lib : TlsLibrary) : Step State Event Observation
  | s, .setReady ready => some ({ s with ready := ready }, [.setReady ready])
  | s, .accept =>
      if s.reloader.generation = none then none
      else some ({ s with requests := s.requests ++ [.reading] }, [])
  | s, .read i result => s.requests[i]?.bind (read server lib s i result)
  | s, .reloaded i => s.requests[i]?.bind (reloaded s i)
  | s, .respond i => s.requests[i]?.bind (respond s i)
  | s, .reloader event =>
      if reserved event then none
      else (server.reloader.step lib s.reloader event).map fun (reloader, out) =>
        ({ s with reloader := reloader }, out.map .reloader)

/-! ## The branches of a step -/

inductive Change (server : AdminServer) (lib : TlsLibrary) (s : State) :
    State → List Observation → Prop
  | setReady (ready : Bool) : Change server lib s { s with ready := ready } [.setReady ready]
  | accept : Change server lib s { s with requests := s.requests ++ [.reading] } []
  | hangup {i} (hi : s.requests[i]? = some .reading) :
      Change server lib s (s.setRequest i .finished) []
  | health {i data} (hi : s.requests[i]? = some .reading) (hendpoint : endpoint data = .healthz) :
      Change server lib s (s.setRequest i (.responding .health)) [.read i data]
  | readiness {i data} (hi : s.requests[i]? = some .reading)
      (hendpoint : endpoint data = .readyz) :
      Change server lib s (s.setRequest i (.responding (if s.ready then .ready else .notReady)))
        [.read i data]
  | reload {i data reloader} (hi : s.requests[i]? = some .reading)
      (hendpoint : endpoint data = .reload) (hhandler : server.hasReloadHandler = true)
      (hreloader : server.reloader.step lib s.reloader .reload =
        some (reloader, [.called s.reloader.calls.length])) :
      Change server lib s
        { s.setRequest i (.reloading s.reloader.calls.length) with reloader := reloader }
        [.read i data, .reloader (.called s.reloader.calls.length)]
  | unavailable {i data} (hi : s.requests[i]? = some .reading)
      (hendpoint : endpoint data = .reload) (hhandler : server.hasReloadHandler = false) :
      Change server lib s (s.setRequest i (.responding .reloadUnavailable)) [.read i data]
  | unknown {i data} (hi : s.requests[i]? = some .reading)
      (hendpoint : endpoint data = .unknown) :
      Change server lib s (s.setRequest i (.responding .notFound)) [.read i data]
  | reloaded {i call} (hi : s.requests[i]? = some (.reloading call))
      (hcall : s.reloader.calls[call]? = some (.returned (.ok ()))) :
      Change server lib s (s.setRequest i (.responding .reload)) []
  | reloadFailed {i call error} (hi : s.requests[i]? = some (.reloading call))
      (hcall : s.reloader.calls[call]? = some (.returned (.error error))) :
      Change server lib s (s.setRequest i (.responding .reloadFailed)) []
  | respond {i response} (hi : s.requests[i]? = some (.responding response)) :
      Change server lib s (s.setRequest i .finished) [.responded i response]
  | reloader {event reloader out} (hevent : reserved event = false)
      (hreloader : server.reloader.step lib s.reloader event = some (reloader, out)) :
      Change server lib s { s with reloader := reloader } (out.map .reloader)

section Inversion

variable {server : AdminServer} {lib : TlsLibrary} {s s' : State} {i : Nat} {e : Event}
  {request : Request} {out : List Observation}

private theorem dispatch_change {data : List UInt8} (hi : s.requests[i]? = some .reading)
    (h : dispatch server lib s i data (endpoint data) = some (s', out)) :
    Change server lib s s' out := by
  cases hendpoint : endpoint data with
  | healthz =>
      rw [hendpoint] at h
      cases h
      exact .health hi hendpoint
  | readyz =>
      rw [hendpoint] at h
      cases h
      exact .readiness hi hendpoint
  | reload =>
      rw [hendpoint] at h
      cases hhandler : server.hasReloadHandler with
      | true =>
          simp only [dispatch, hhandler, if_true] at h
          obtain ⟨⟨reloader, observed⟩, hreloader, heq⟩ := Option.map_eq_some_iff.mp h
          cases heq
          cases TlsCredentialReloader.step_change hreloader
          exact .reload hi hendpoint hhandler hreloader
      | false =>
          simp only [dispatch, hhandler, Bool.false_eq_true, if_false] at h
          cases h
          exact .unavailable hi hendpoint hhandler
  | unknown =>
      rw [hendpoint] at h
      cases h
      exact .unknown hi hendpoint

private theorem read_change {result : Option (List UInt8)} (hi : s.requests[i]? = some request)
    (h : read server lib s i result request = some (s', out)) : Change server lib s s' out := by
  cases request with
  | reading =>
      rcases result with - | - | ⟨b, data⟩
      · cases h
        exact .hangup hi
      · cases h
        exact .hangup hi
      · simp only [read] at h
        split at h
        next => exact dispatch_change hi h
        next => cases h
  | _ => rcases result with - | - | ⟨b, data⟩ <;> cases h

private theorem reloaded_change (hi : s.requests[i]? = some request)
    (h : reloaded s i request = some (s', out)) : Change server lib s s' out := by
  cases request with
  | reloading call =>
      simp only [reloaded] at h
      split at h
      next hcall =>
        cases h
        exact .reloaded hi hcall
      next error hcall =>
        cases h
        exact .reloadFailed hi hcall
      next => cases h
  | _ => cases h

theorem step_change (h : server.step lib s e = some (s', out)) : Change server lib s s' out := by
  cases e with
  | setReady ready =>
      cases h
      exact .setReady ready
  | accept =>
      by_cases hloaded : s.reloader.generation = none
      · simp [step, hloaded] at h
      · simp only [step, hloaded, if_false] at h
        cases h
        exact .accept
  | read i result =>
      obtain ⟨request, hi, hread⟩ := Option.bind_eq_some_iff.mp h
      exact read_change hi hread
  | reloaded i =>
      obtain ⟨request, hi, hreloaded⟩ := Option.bind_eq_some_iff.mp h
      exact reloaded_change hi hreloaded
  | respond i =>
      obtain ⟨request, hi, hrespond⟩ := Option.bind_eq_some_iff.mp h
      cases request with
      | responding response =>
          cases hrespond
          exact .respond hi
      | _ => cases hrespond
  | reloader event =>
      cases hevent : reserved event with
      | true => simp [step, hevent] at h
      | false =>
          simp only [step, hevent, Bool.false_eq_true, if_false] at h
          obtain ⟨⟨reloader, observed⟩, hreloader, heq⟩ := Option.map_eq_some_iff.mp h
          cases heq
          exact .reloader hevent hreloader

end Inversion

end AdminServer

end Interlink
