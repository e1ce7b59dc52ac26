import Interlink.Foundation.Tasks
import Interlink.Foundation.Trace
import Interlink.Foundation.Transition
import Interlink.Proxy.Credentials

/-!
# Reloading credentials

The system around `TlsCredentialReloader`: the credential files and whoever
rewrites them, the blocking tasks that run `build_generation` with its three
reads, the calls of `reload`, each of which may be cancelled at an await, and the
handshakes, each of which loads the installed generation once.

Build `0` is the one of `load`; no other call is possible before it has returned a
reloader.  A cancelled call drops the lock and detaches its blocking task, which
goes on reading but whose result nobody takes.  A file is read in one step.
-/

namespace Interlink

open Interlink.Foundation

abbrev FileSystem := Str → Except Str (List UInt8)

inductive CredentialFile where
  | caBundle
  | certificate
  | privateKey
  deriving DecidableEq, Repr

def TlsCredentialPaths.path (paths : TlsCredentialPaths) : CredentialFile → Str
  | .caBundle => paths.caBundle
  | .certificate => paths.certificate
  | .privateKey => paths.privateKey

def CredentialReads.contents (reads : CredentialReads) :
    CredentialFile → Except Str (List UInt8)
  | .caBundle => reads.caBundle
  | .certificate => reads.certificate
  | .privateKey => reads.privateKey

structure TlsCredentialReloader where
  paths : TlsCredentialPaths
  expectedIdentity : SpiffeId
  muxEnabled : Bool
  deriving DecidableEq

namespace TlsCredentialReloader

/-! ## The blocking task -/

/-- Where `build_generation` stands: before one of its reads, before its checks, or at its end. -/
inductive Build where
  | readingRoots
  | readingCertificate (roots : List Der)
  | readingPrivateKey (roots : List Der) (certificate : Der) (intermediates : List Der)
  | checking (credentials : Credentials)
  | finished (result : Except InterlinkError TlsGeneration)
  | panicked (error : Str)
  deriving DecidableEq

namespace Build

def isOver : Build → Bool
  | .finished _ | .panicked _ => true
  | _ => false

def orFail {α : Type} (result : Except InterlinkError α) (next : α → Build) : Build :=
  match result with
  | .ok value => next value
  | .error error => .finished (.error error)

def file? : Build → Option CredentialFile
  | .readingRoots => some .caBundle
  | .readingCertificate _ => some .certificate
  | .readingPrivateKey _ _ _ => some .privateKey
  | _ => none

/-- `contents` is what a read returns now, if there is one. -/
def advance (lib : TlsLibrary) (reloader : TlsCredentialReloader)
    (contents : Except Str (List UInt8)) (now : UnixTime) : Build → Option Build
  | .readingRoots =>
      some (orFail (loadRoots lib reloader.paths contents) .readingCertificate)
  | .readingCertificate roots =>
      some (orFail (loadCertificates lib reloader.paths contents) fun (certificate,
        intermediates) => .readingPrivateKey roots certificate intermediates)
  | .readingPrivateKey roots certificate intermediates =>
      some (orFail (loadPrivateKey lib reloader.paths contents) fun privateKey =>
        .checking ⟨roots, certificate, intermediates, privateKey⟩)
  | .checking credentials =>
      some (.finished (credentials.generation lib reloader.expectedIdentity
        reloader.muxEnabled now))
  | .finished _ | .panicked _ => none

def result? : Build → Option (Except InterlinkError TlsGeneration)
  | .finished result => some result
  | .panicked error =>
      some (.error (.config ("TLS credential loader task failed: ".toList ++ error)))
  | _ => none

end Build

/-! ## Calls and handshakes -/

inductive Call where
  | waiting
  | building (worker : Nat)
  | storing (worker : Nat) (generation : TlsGeneration)
  | unlocking (result : Except InterlinkError Unit)
  | returned (result : Except InterlinkError Unit)
  | cancelled
  deriving DecidableEq

inductive Endpoint where
  | client (client : TlsClient)
  | server (server : TlsServer)
  deriving DecidableEq

inductive Role where
  | connect
  | accept
  deriving DecidableEq, Repr

structure Handshake where
  role : Role
  generation : TlsGeneration
  deriving DecidableEq

def Handshake.endpoint (handshake : Handshake) : Endpoint :=
  match handshake.role with
  | .connect => .client handshake.generation.client
  | .accept => .server handshake.generation.server

/-! ## The system -/

structure State where
  files : FileSystem
  builds : List Build
  generation : Option TlsGeneration
  reloadLock : Option Nat
  calls : List Call
  handshakes : List Handshake

def initial (files : FileSystem) : State :=
  ⟨files, [.readingRoots], none, none, [], []⟩

/--
`called`, `locked` and `returned` are about a call of `reload`, `installed` names
the call, or `none` for `load`, and the build whose result it is.
-/
inductive Observation where
  | read (worker : Nat) (file : CredentialFile) (contents : Except Str (List UInt8))
  | called (call : Nat)
  | locked (call worker : Nat)
  | installed (call : Option Nat) (worker : Nat) (generation : TlsGeneration)
  | returned (call : Nat) (result : Except InterlinkError Unit)
  | used (handshake : Nat) (endpoint : Endpoint)
  deriving DecidableEq

/--
What a call of `reload` does next: the lock is granted, its blocking task is over,
the new generation is stored, the guard is dropped, or the future is.
-/
inductive Action where
  | lock
  | join
  | store
  | unlock
  | cancel
  deriving DecidableEq, Repr

inductive Event where
  | rewrite (path : Str) (contents : Except Str (List UInt8))
  | build (worker : Nat) (now : UnixTime)
  | panic (worker : Nat) (error : Str)
  | load
  | reload
  | call (call : Nat) (action : Action)
  | begin (role : Role)
  | proceed (handshake : Nat)

namespace State

def setCall (s : State) (i : Nat) (call : Call) : State :=
  { s with calls := s.calls.set i call }

def setBuild (s : State) (w : Nat) (build : Build) : State :=
  { s with builds := s.builds.set w build }

end State

def runBuild (lib : TlsLibrary) (reloader : TlsCredentialReloader) (s : State) (w : Nat)
    (now : UnixTime) : Option (State × List Observation) := do
  let build ← s.builds[w]?
  match build.file? with
  | some file =>
      let contents := s.files (reloader.paths.path file)
      let next ← build.advance lib reloader contents now
      some (s.setBuild w next, [.read w file contents])
  | none =>
      let next ← build.advance lib reloader (.ok []) now
      some (s.setBuild w next, [])

/--
A call can be cancelled only where it awaits: before the lock is granted, and while
its blocking task runs.
-/
def runCall (s : State) (i : Nat) : Action → Call → Option (State × List Observation)
  | .lock, .waiting =>
      if s.reloadLock = none then
        let worker := s.builds.length
        some ({ s.setCall i (.building worker) with
          builds := s.builds ++ [.readingRoots], reloadLock := some i }, [.locked i worker])
      else none
  | .join, .building worker => do
      match ← s.builds[worker]?.bind Build.result? with
      | .ok generation => some (s.setCall i (.storing worker generation), [])
      | .error error => some (s.setCall i (.unlocking (.error error)), [])
  | .store, .storing worker generation =>
      some ({ s.setCall i (.unlocking (.ok ())) with generation := some generation },
        [.installed (some i) worker generation])
  | .unlock, .unlocking result =>
      some ({ s.setCall i (.returned result) with reloadLock := none }, [.returned i result])
  | .cancel, .waiting => some (s.setCall i .cancelled, [])
  | .cancel, .building _ => some ({ s.setCall i .cancelled with reloadLock := none }, [])
  | _, _ => none

def step (reloader : TlsCredentialReloader) (lib : TlsLibrary) :
    Step State Event Observation
  | s, .rewrite path contents =>
      some ({ s with files := Function.update s.files path contents }, [])
  | s, .build w now => runBuild lib reloader s w now
  | s, .panic w error => do
      let build ← s.builds[w]?
      if build.isOver then none else some (s.setBuild w (.panicked error), [])
  | s, .load =>
      match s.generation, s.builds[0]?.bind Build.result? with
      | none, some (.ok generation) =>
          some ({ s with generation := some generation }, [.installed none 0 generation])
      | _, _ => none
  | s, .reload =>
      if s.generation = none then none
      else some ({ s with calls := s.calls ++ [.waiting] }, [.called s.calls.length])
  | s, .call i action => s.calls[i]?.bind (runCall s i action)
  | s, .begin role => do
      let generation ← s.generation
      some ({ s with handshakes := s.handshakes ++ [⟨role, generation⟩] }, [])
  | s, .proceed k => do
      let handshake ← s.handshakes[k]?
      some (s, [.used k handshake.endpoint])

/-! ## What a step can do -/

inductive Change (lib : TlsLibrary) (reloader : TlsCredentialReloader) (s : State) :
    Event → State → List Observation → Prop where
  | rewrite (path : Str) (contents : Except Str (List UInt8)) :
      Change lib reloader s (.rewrite path contents)
        { s with files := Function.update s.files path contents } []
  | read {w build file next} (now : UnixTime) (hw : s.builds[w]? = some build)
      (hfile : build.file? = some file)
      (hnext : build.advance lib reloader (s.files (reloader.paths.path file)) now =
        some next) :
      Change lib reloader s (.build w now) (s.setBuild w next)
        [.read w file (s.files (reloader.paths.path file))]
  | check {w credentials} (now : UnixTime)
      (hw : s.builds[w]? = some (.checking credentials)) :
      Change lib reloader s (.build w now) (s.setBuild w (.finished (credentials.generation
        lib reloader.expectedIdentity reloader.muxEnabled now))) []
  | panic {w build} (error : Str) (hw : s.builds[w]? = some build)
      (hrunning : build.isOver = false) :
      Change lib reloader s (.panic w error) (s.setBuild w (.panicked error)) []
  | load {generation} (hnone : s.generation = none)
      (hresult : s.builds[0]? = some (.finished (.ok generation))) :
      Change lib reloader s .load { s with generation := some generation }
        [.installed none 0 generation]
  | reload (hsome : s.generation ≠ none) :
      Change lib reloader s .reload { s with calls := s.calls ++ [.waiting] }
        [.called s.calls.length]
  | lock {i} (hi : s.calls[i]? = some .waiting) (hfree : s.reloadLock = none) :
      Change lib reloader s (.call i .lock) { s.setCall i (.building s.builds.length) with
        builds := s.builds ++ [.readingRoots], reloadLock := some i }
        [.locked i s.builds.length]
  | joinOk {i w generation} (hi : s.calls[i]? = some (.building w))
      (hresult : s.builds[w]? = some (.finished (.ok generation))) :
      Change lib reloader s (.call i .join) (s.setCall i (.storing w generation)) []
  | joinError {i w} (error : InterlinkError) (hi : s.calls[i]? = some (.building w)) :
      Change lib reloader s (.call i .join) (s.setCall i (.unlocking (.error error))) []
  | store {i w generation} (hi : s.calls[i]? = some (.storing w generation)) :
      Change lib reloader s (.call i .store)
        { s.setCall i (.unlocking (.ok ())) with generation := some generation }
        [.installed (some i) w generation]
  | unlock {i result} (hi : s.calls[i]? = some (.unlocking result)) :
      Change lib reloader s (.call i .unlock)
        { s.setCall i (.returned result) with reloadLock := none } [.returned i result]
  | cancelWaiting {i} (hi : s.calls[i]? = some .waiting) :
      Change lib reloader s (.call i .cancel) (s.setCall i .cancelled) []
  | cancelBuilding {i w} (hi : s.calls[i]? = some (.building w)) :
      Change lib reloader s (.call i .cancel)
        { s.setCall i .cancelled with reloadLock := none } []
  | begin {generation} (role : Role) (hgeneration : s.generation = some generation) :
      Change lib reloader s (.begin role)
        { s with handshakes := s.handshakes ++ [⟨role, generation⟩] } []
  | proceed {k handshake} (hk : s.handshakes[k]? = some handshake) :
      Change lib reloader s (.proceed k) s [.used k handshake.endpoint]

theorem Build.of_result? {build : Build} {generation : TlsGeneration}
    (h : build.result? = some (.ok generation)) : build = .finished (.ok generation) := by
  cases build with
  | finished result =>
      obtain rfl : result = .ok generation := Option.some.inj h
      rfl
  | panicked error => cases Option.some.inj h
  | _ => cases h

theorem Build.isOver_of_file? {build : Build} {file : CredentialFile}
    (h : build.file? = some file) : build.isOver = false := by
  cases build with
  | finished result | panicked error => cases h
  | _ => rfl

theorem Build.of_file?_eq_none {lib : TlsLibrary} {reloader : TlsCredentialReloader}
    {contents : Except Str (List UInt8)} {now : UnixTime} {build next : Build}
    (hfile : build.file? = none) (h : build.advance lib reloader contents now = some next) :
    ∃ credentials, build = .checking credentials ∧
      next = .finished (credentials.generation lib reloader.expectedIdentity
        reloader.muxEnabled now) := by
  cases build with
  | checking credentials => exact ⟨credentials, rfl, (Option.some.inj h).symm⟩
  | finished result | panicked error => cases h
  | _ => cases hfile

section

variable {lib : TlsLibrary} {reloader : TlsCredentialReloader} {s s' : State} {i w : Nat}
  {now : UnixTime} {e : Event} {out : List Observation}

theorem runBuild_change (h : runBuild lib reloader s w now = some (s', out)) :
    Change lib reloader s (.build w now) s' out := by
  obtain ⟨build, hw, hrun⟩ := Option.bind_eq_some_iff.mp h
  cases hfile : build.file? with
  | some file =>
      simp only [hfile] at hrun
      obtain ⟨next, hnext, heq⟩ := Option.bind_eq_some_iff.mp hrun
      cases heq
      exact .read now hw hfile hnext
  | none =>
      simp only [hfile] at hrun
      obtain ⟨next, hnext, heq⟩ := Option.bind_eq_some_iff.mp hrun
      cases heq
      obtain ⟨credentials, rfl, rfl⟩ := Build.of_file?_eq_none hfile hnext
      exact .check now hw

theorem runCall_change {call : Call} {action : Action} (hi : s.calls[i]? = some call)
    (h : runCall s i action call = some (s', out)) :
    Change lib reloader s (.call i action) s' out := by
  cases action <;> cases call <;> try cases h
  case lock.waiting =>
      simp only [runCall] at h
      split at h
      next hfree =>
          cases h
          exact .lock hi hfree
      next => cases h
  case join.building w =>
      obtain ⟨result, hresult, hrest⟩ := Option.bind_eq_some_iff.mp h
      obtain ⟨build, hw, hbuild⟩ := Option.bind_eq_some_iff.mp hresult
      cases result with
      | ok generation =>
          cases hrest
          rw [Build.of_result? hbuild] at hw
          exact .joinOk hi hw
      | error error =>
          cases hrest
          exact .joinError error hi
  case store.storing => exact .store hi
  case unlock.unlocking => exact .unlock hi
  case cancel.waiting => exact .cancelWaiting hi
  case cancel.building => exact .cancelBuilding hi

theorem step_change (h : reloader.step lib s e = some (s', out)) :
    Change lib reloader s e s' out := by
  cases e with
  | rewrite path contents =>
      cases h
      exact .rewrite path contents
  | build w now => exact runBuild_change h
  | panic w error =>
      obtain ⟨build, hw, hrest⟩ := Option.bind_eq_some_iff.mp h
      split at hrest
      next => cases hrest
      next hrunning =>
          cases hrest
          exact .panic error hw (by simpa using hrunning)
  | load =>
      simp only [step] at h
      split at h
      next generation hnone hresult =>
          cases h
          obtain ⟨build, hw, hbuild⟩ := Option.bind_eq_some_iff.mp hresult
          rw [Build.of_result? hbuild] at hw
          exact .load hnone hw
      next => cases h
  | reload =>
      simp only [step] at h
      split at h
      next => cases h
      next hsome =>
          cases h
          exact .reload hsome
  | call i action =>
      obtain ⟨call, hi, hrun⟩ := Option.bind_eq_some_iff.mp h
      exact runCall_change hi hrun
  | begin role =>
      obtain ⟨generation, hgeneration, heq⟩ := Option.bind_eq_some_iff.mp h
      cases heq
      exact .begin role hgeneration
  | proceed k =>
      obtain ⟨handshake, hk, heq⟩ := Option.bind_eq_some_iff.mp h
      cases heq
      exact .proceed hk

end

end TlsCredentialReloader

end Interlink
