import Interlink.Proxy.Reload

/-!
# The order of reloads

A generation is installed while its call holds the reload lock, and its build was
spawned after that lock was granted.  Hence the reads behind two installed
generations do not overlap, and come in the order of the installations.
-/

namespace Interlink.TlsCredentialReloader

open Interlink.Foundation

/-! ## Kinds of observations -/

namespace Observation

def readBy (w : Nat) : Observation → Prop
  | .read v _ _ => v = w
  | _ => False

def calls (i : Nat) : Observation → Prop
  | .called j => j = i
  | _ => False

def locksFor (i : Nat) : Observation → Prop
  | .locked j _ => j = i
  | _ => False

def spawns (w : Nat) : Observation → Prop
  | .locked _ v => v = w
  | _ => False

def installs : Observation → Prop
  | .installed _ _ _ => True
  | _ => False

def installsOf (w : Nat) : Observation → Prop
  | .installed _ v _ => v = w
  | _ => False

def about (i : Nat) : Observation → Prop
  | .called j | .locked j _ | .installed (some j) _ _ | .returned j _ => j = i
  | _ => False

def quiet : Observation → Prop
  | .called _ | .returned _ _ | .used _ _ => True
  | _ => False

variable {o : Observation} {v w : Nat}

theorem not_quiet_of_readBy (h : o.readBy w) : ¬ o.quiet := by
  cases o with
  | read worker file contents => exact id
  | _ => cases h

theorem not_quiet_of_spawns (h : o.spawns w) : ¬ o.quiet := by
  cases o with
  | locked call worker => exact id
  | _ => cases h

theorem not_readBy_of_spawns (h : o.spawns w) : ¬ o.readBy v := by
  cases o with
  | locked call worker => exact id
  | _ => cases h

theorem not_readBy_of_installsOf (h : o.installsOf w) : ¬ o.readBy v := by
  cases o with
  | installed call worker generation => exact id
  | _ => cases h

theorem eq_of_readBy (h : o.readBy v) (h' : o.readBy w) : v = w := by
  cases o with
  | read worker file contents => exact h.symm.trans h'
  | _ => cases h

end Observation

variable {lib : TlsLibrary} {reloader : TlsCredentialReloader} {trace out : List Observation}
  {i w : Nat} {generation : TlsGeneration}

/-! ## The reads behind a build -/

def generationFrom (lib : TlsLibrary) (reloader : TlsCredentialReloader) (reads : CredentialReads)
    (now : UnixTime) : Except InterlinkError TlsGeneration :=
  buildGeneration lib reloader.paths reloader.expectedIdentity reloader.muxEnabled reads now

/--
The generation is what `build_generation` accepted after it had read the three files
as build `w`.
-/
def BuiltFrom (lib : TlsLibrary) (reloader : TlsCredentialReloader)
    (trace : List Observation) (w : Nat) (generation : TlsGeneration) : Prop :=
  ∃ (reads : CredentialReads) (now : UnixTime),
    (∀ file, .read w file (reads.contents file) ∈ trace) ∧
    generationFrom lib reloader reads now = .ok generation

namespace Build

def From (lib : TlsLibrary) (reloader : TlsCredentialReloader) (trace : List Observation)
    (w : Nat) : Build → Prop
  | .readingCertificate roots => ∃ caBundle, .read w .caBundle caBundle ∈ trace ∧
      loadRoots lib reloader.paths caBundle = .ok roots
  | .readingPrivateKey roots leaf intermediates => ∃ caBundle certificate,
      .read w .caBundle caBundle ∈ trace ∧ .read w .certificate certificate ∈ trace ∧
      loadRoots lib reloader.paths caBundle = .ok roots ∧
      loadCertificates lib reloader.paths certificate = .ok (leaf, intermediates)
  | .checking credentials => ∃ reads : CredentialReads,
      (∀ file, .read w file (reads.contents file) ∈ trace) ∧
      reads.credentials lib reloader.paths = .ok credentials
  | .finished (.ok generation) => BuiltFrom lib reloader trace w generation
  | _ => True

theorem From.append {build : Build} (h : build.From lib reloader trace w) :
    build.From lib reloader (trace ++ out) w := by
  have hmem {o : Observation} (ho : o ∈ trace) : o ∈ trace ++ out :=
    List.mem_append_left out ho
  cases build with
  | readingRoots | panicked error => trivial
  | readingCertificate roots =>
      obtain ⟨caBundle, hread, hroots⟩ := h
      exact ⟨caBundle, hmem hread, hroots⟩
  | readingPrivateKey roots leaf intermediates =>
      obtain ⟨caBundle, certificate, hca, hcert, hloads⟩ := h
      exact ⟨caBundle, certificate, hmem hca, hmem hcert, hloads⟩
  | checking credentials =>
      obtain ⟨reads, hreads, hcredentials⟩ := h
      exact ⟨reads, fun file => hmem (hreads file), hcredentials⟩
  | finished result =>
      cases result with
      | error error => trivial
      | ok generation =>
          obtain ⟨reads, now, hreads, hgeneration⟩ := h
          exact ⟨reads, now, fun file => hmem (hreads file), hgeneration⟩

private theorem from_orFail {α : Type} {result : Except InterlinkError α}
    {next : α → Build} (h : ∀ value, result = .ok value →
      (next value).From lib reloader trace w) :
    (orFail result next).From lib reloader trace w := by
  cases result with
  | error error => trivial
  | ok value => exact h value rfl

theorem From.read {build next : Build} {file : CredentialFile}
    {contents : Except Str (List UInt8)} {now : UnixTime}
    (h : build.From lib reloader trace w) (hfile : build.file? = some file)
    (hnext : build.advance lib reloader contents now = some next) :
    next.From lib reloader (trace ++ [.read w file contents]) w := by
  have hlast : Observation.read w file contents ∈ trace ++ [.read w file contents] := by simp
  cases build with
  | readingRoots =>
      cases hfile
      cases hnext
      exact from_orFail fun roots hroots => ⟨contents, hlast, hroots⟩
  | readingCertificate roots =>
      cases hfile
      cases hnext
      obtain ⟨caBundle, hca, hroots⟩ := h
      exact from_orFail fun (leaf, intermediates) hcert =>
        ⟨caBundle, contents, List.mem_append_left _ hca, hlast, hroots, hcert⟩
  | readingPrivateKey roots leaf intermediates =>
      cases hfile
      cases hnext
      obtain ⟨caBundle, certificate, hca, hcert, hroots, hleaf⟩ := h
      refine from_orFail fun privateKey hkey => ⟨⟨caBundle, certificate, contents⟩, ?_, ?_⟩
      · intro file
        cases file with
        | caBundle => exact List.mem_append_left _ hca
        | certificate => exact List.mem_append_left _ hcert
        | privateKey => exact hlast
      · simp only [CredentialReads.credentials, hroots, hleaf, hkey]
        rfl
  | checking credentials | finished result | panicked error => cases hfile

theorem From.check {credentials : Credentials} {now : UnixTime}
    (h : (Build.checking credentials).From lib reloader trace w) :
    (Build.finished (credentials.generation lib reloader.expectedIdentity
      reloader.muxEnabled now)).From lib reloader trace w := by
  obtain ⟨reads, hreads, hcredentials⟩ := h
  cases hresult : credentials.generation lib reloader.expectedIdentity
      reloader.muxEnabled now with
  | error error => trivial
  | ok generation =>
      exact ⟨reads, now, hreads, bind_eq_ok.mpr ⟨credentials, hcredentials, hresult⟩⟩

end Build

/-! ## Builds and their reads in the trace -/

structure Builds (lib : TlsLibrary) (reloader : TlsCredentialReloader)
    (trace : List Observation) (builds : List Build) : Prop where
  origin : ∀ (w : Nat) (build : Build), builds[w]? = some build →
    build.From lib reloader trace w
  spawned : ∀ o ∈ trace, ∀ w, o.readBy w → w < builds.length
  spawnedFirst : ∀ w, Before (Observation.spawns w) (Observation.readBy w) trace
  finished : ∀ call w generation, .installed call w generation ∈ trace →
    builds[w]? = some (.finished (.ok generation))
  readFirst : ∀ w, Before (Observation.readBy w) (Observation.installsOf w) trace

namespace Builds

variable {builds : List Build} {build next : Build}

theorem initial : Builds lib reloader [] [.readingRoots] where
  origin w build hw := by
    cases w with
    | zero =>
        cases hw
        trivial
    | succ w => cases hw
  spawned o ho := by cases ho
  spawnedFirst w := .of_not_right (by simp)
  finished call w generation h := by cases h
  readFirst w := .of_not_right (by simp)

theorem quiet (h : Builds lib reloader trace builds) (hout : ∀ o ∈ out, o.quiet) :
    Builds lib reloader (trace ++ out) builds where
  origin w build hw := (h.origin w build hw).append
  spawned o ho w hread := by
    rcases List.mem_append.mp ho with ho | ho
    · exact h.spawned o ho w hread
    · exact absurd (hout o ho) (Observation.not_quiet_of_readBy hread)
  spawnedFirst w := (h.spawnedFirst w).append fun o ho hspawn =>
    Observation.not_quiet_of_spawns hspawn (hout o ho)
  finished call w generation hmem := by
    rcases List.mem_append.mp hmem with hmem | hmem
    · exact h.finished call w generation hmem
    · cases hout _ hmem
  readFirst w := (h.readFirst w).append fun o ho hread =>
    Observation.not_quiet_of_readBy hread (hout o ho)

theorem install (h : Builds lib reloader trace builds) (call : Option Nat)
    (hw : builds[w]? = some (.finished (.ok generation))) :
    Builds lib reloader (trace ++ [.installed call w generation]) builds where
  origin v build hv := (h.origin v build hv).append
  spawned o ho v hread := by
    rcases List.mem_append.mp ho with ho | ho
    · exact h.spawned o ho v hread
    · cases List.mem_singleton.mp ho
      cases hread
  spawnedFirst v := (h.spawnedFirst v).append (by simp [Observation.spawns])
  finished other v installed hmem := by
    rcases List.mem_append.mp hmem with hmem | hmem
    · exact h.finished other v installed hmem
    · cases List.mem_singleton.mp hmem
      exact hw
  readFirst v := (h.readFirst v).append (by simp [Observation.readBy])

theorem spawn (h : Builds lib reloader trace builds) (i : Nat) :
    Builds lib reloader (trace ++ [.locked i builds.length])
      (builds ++ [.readingRoots]) where
  origin w build hw := by
    rcases Tasks.getElem?_append_cases hw with ⟨-, rfl⟩ | hw
    · trivial
    · exact (h.origin w build hw).append
  spawned o ho w hread := by
    rcases List.mem_append.mp ho with ho | ho
    · have := h.spawned o ho w hread
      rw [List.length_append]
      omega
    · cases List.mem_singleton.mp ho
      cases hread
  spawnedFirst w := by
    by_cases hw : w = builds.length
    · refine .of_not_right fun o ho hread => ?_
      rcases List.mem_append.mp ho with ho | ho
      · have := h.spawned o ho w hread
        omega
      · cases List.mem_singleton.mp ho
        cases hread
    · refine (h.spawnedFirst w).append fun o ho hspawn => ?_
      cases List.mem_singleton.mp ho
      exact hw hspawn.symm
  finished call w generation hmem := by
    rcases List.mem_append.mp hmem with hmem | hmem
    · have hw := h.finished call w generation hmem
      exact Tasks.getElem?_append_of hw _
    · cases List.mem_singleton.mp hmem
  readFirst w := (h.readFirst w).append (by simp [Observation.readBy])

theorem advance (h : Builds lib reloader trace builds) (hw : builds[w]? = some build)
    (hrunning : build.isOver = false) (hout : ∀ o ∈ out, o.readBy w)
    (hnext : next.From lib reloader (trace ++ out) w) :
    Builds lib reloader (trace ++ out) (builds.set w next) := by
  have hnone {call v generation} (hmem : .installed call v generation ∈ trace) : v ≠ w := by
    rintro rfl
    rw [h.finished call v generation hmem] at hw
    cases hw
    cases hrunning
  constructor
  case origin =>
      intro v other hv
      rcases Tasks.getElem?_set_cases hv with ⟨rfl, rfl⟩ | ⟨-, hv⟩
      · exact hnext
      · exact (h.origin v other hv).append
  case spawned =>
      intro o ho v hread
      rw [List.length_set]
      rcases List.mem_append.mp ho with ho | ho
      · exact h.spawned o ho v hread
      · rw [Observation.eq_of_readBy hread (hout o ho)]
        exact (List.getElem?_eq_some_iff.mp hw).1
  case spawnedFirst =>
      intro v
      exact (h.spawnedFirst v).append fun o ho hspawn =>
        Observation.not_readBy_of_spawns hspawn (hout o ho)
  case finished =>
      intro call v generation hmem
      rcases List.mem_append.mp hmem with hmem | hmem
      · rw [List.getElem?_set_ne (hnone hmem).symm]
        exact h.finished call v generation hmem
      · cases hout _ hmem
  case readFirst =>
      intro v
      by_cases hv : v = w
      · refine .of_not_right fun o ho hinstall => ?_
        rcases List.mem_append.mp ho with ho | ho
        · cases o with
          | installed call worker generation => exact hnone ho (hinstall.trans hv)
          | _ => cases hinstall
        · exact Observation.not_readBy_of_installsOf hinstall (hout o ho)
      · exact (h.readFirst v).append fun o ho hread =>
          hv (Observation.eq_of_readBy hread (hout o ho))

end Builds

/-! ## Calls and what has been observed of them -/

namespace Call

def locked : Call → Bool
  | .building _ | .storing _ _ | .unlocking _ => true
  | _ => false

def worker : Call → Option Nat
  | .building w | .storing w _ => some w
  | _ => none

def fresh : Call → Bool
  | .building _ | .storing _ _ | .unlocking (.error _) => true
  | _ => false

def stored : Call → Bool
  | .unlocking (.ok _) | .returned (.ok _) => true
  | _ => false

theorem locked_of_fresh {call : Call} (h : call.fresh = true) : call.locked = true := by
  cases call with
  | building w | storing w generation | unlocking result => rfl
  | _ => cases h

structure History (trace : List Observation) (i : Nat) (call : Call) : Prop where
  notLocked : call = .waiting → ∀ o ∈ trace, ¬ o.locksFor i
  held : call.locked = true → ∃ w, .locked i w ∈ trace
  worker : ∀ w, call.worker = some w → .locked i w ∈ trace
  fresh : call.fresh = true → Before Observation.installs (Observation.locksFor i) trace
  calledFirst : Before (Observation.calls i) (Observation.locksFor i) trace
  installed : ∀ w generation, .installed (some i) w generation ∈ trace →
    call.stored = true ∧ .locked i w ∈ trace
  returned : ∀ result, .returned i result ∈ trace → call = .returned result

namespace History

variable {call next : Call}

theorem initial : Call.waiting.History [] i where
  notLocked _ o ho := by cases ho
  held h := by cases h
  worker w hw := by cases hw
  fresh h := by cases h
  calledFirst := .of_not_right (by simp)
  installed w generation h := by cases h
  returned result h := by cases h

theorem frame (h : call.History trace i) (hout : ∀ o ∈ out, ¬ o.about i)
    (hinstalls : call.fresh = true → ∀ o ∈ out, ¬ o.installs) :
    call.History (trace ++ out) i where
  notLocked hwaiting o ho hlock := by
    rcases List.mem_append.mp ho with ho | ho
    · exact h.notLocked hwaiting o ho hlock
    · cases o with
      | locked call worker => exact hout _ ho hlock
      | _ => cases hlock
  held hlocked := (h.held hlocked).imp fun w hw => List.mem_append_left out hw
  worker w hw := List.mem_append_left out (h.worker w hw)
  fresh hfresh := (h.fresh hfresh).append (hinstalls hfresh)
  calledFirst := h.calledFirst.append fun o ho hcall => by
    cases o with
    | called call => exact hout _ ho hcall
    | _ => cases hcall
  installed w generation hmem := by
    rcases List.mem_append.mp hmem with hmem | hmem
    · obtain ⟨hstored, hlocked⟩ := h.installed w generation hmem
      exact ⟨hstored, List.mem_append_left out hlocked⟩
    · exact absurd rfl (hout _ hmem)
  returned result hmem := by
    rcases List.mem_append.mp hmem with hmem | hmem
    · exact h.returned result hmem
    · exact absurd rfl (hout _ hmem)

theorem move (h : call.History trace i) (hwaiting : next ≠ .waiting)
    (hheld : next.locked = true → call.locked = true)
    (hworker : ∀ w, next.worker = some w → call.worker = some w)
    (hfresh : next.fresh = true → call.fresh = true) (hstored : call.stored = false)
    (hreturned : ∀ result, call ≠ .returned result) : next.History trace i where
  notLocked heq := absurd heq hwaiting
  held hnext := h.held (hheld hnext)
  worker w hw := h.worker w (hworker w hw)
  fresh hnext := h.fresh (hfresh hnext)
  calledFirst := h.calledFirst
  installed w generation hmem := by
    have hcontra := (h.installed w generation hmem).1
    rw [hstored] at hcontra
    cases hcontra
  returned result hmem := absurd (h.returned result hmem) (hreturned result)

theorem called (h : Call.waiting.History trace i) :
    Call.waiting.History (trace ++ [.called i]) i where
  notLocked heq o ho hlock := by
    rcases List.mem_append.mp ho with ho | ho
    · exact h.notLocked heq o ho hlock
    · cases List.mem_singleton.mp ho
      cases hlock
  held hlocked := by cases hlocked
  worker w hw := by cases hw
  fresh hfresh := by cases hfresh
  calledFirst := .of_not_right fun o ho hlock => by
    rcases List.mem_append.mp ho with ho | ho
    · exact h.notLocked rfl o ho hlock
    · cases List.mem_singleton.mp ho
      cases hlock
  installed w generation hmem := by
    have hmem : .installed (some i) w generation ∈ trace := by simpa using hmem
    cases (h.installed w generation hmem).1
  returned result hmem := h.returned result (by simpa using hmem)

theorem lock (h : Call.waiting.History trace i) :
    (Call.building w).History (trace ++ [.locked i w]) i where
  notLocked heq := by cases heq
  held _ := ⟨w, by simp⟩
  worker v hv := by
    cases hv
    simp
  fresh _ := (Before.of_not_right (h.notLocked rfl)).append (by simp [Observation.installs])
  calledFirst := h.calledFirst.append (by simp [Observation.calls])
  installed v generation hmem := by
    have hmem : .installed (some i) v generation ∈ trace := by simpa using hmem
    cases (h.installed v generation hmem).1
  returned result hmem := by
    have hmem : .returned i result ∈ trace := by simpa using hmem
    cases h.returned result hmem

theorem store (h : (Call.storing w generation).History trace i) :
    (Call.unlocking (.ok ())).History (trace ++ [.installed (some i) w generation]) i where
  notLocked heq := by cases heq
  held _ := (h.held rfl).imp fun v hv => List.mem_append_left _ hv
  worker v hv := by cases hv
  fresh hfresh := by cases hfresh
  calledFirst := h.calledFirst.append (by simp [Observation.calls])
  installed v installed hmem := by
    rcases List.mem_append.mp hmem with hmem | hmem
    · cases (h.installed v installed hmem).1
    · cases List.mem_singleton.mp hmem
      exact ⟨rfl, List.mem_append_left _ (h.worker w rfl)⟩
  returned result hmem := by
    have hmem : .returned i result ∈ trace := by simpa using hmem
    cases h.returned result hmem

theorem unlock {result : Except InterlinkError Unit}
    (h : (Call.unlocking result).History trace i) :
    (Call.returned result).History (trace ++ [.returned i result]) i where
  notLocked heq := by cases heq
  held hlocked := by cases hlocked
  worker v hv := by cases hv
  fresh hfresh := by cases hfresh
  calledFirst := h.calledFirst.append (by simp [Observation.calls])
  installed v generation hmem := by
    have hmem : .installed (some i) v generation ∈ trace := by simpa using hmem
    obtain ⟨hstored, hlocked⟩ := h.installed v generation hmem
    refine ⟨?_, List.mem_append_left _ hlocked⟩
    cases result with
    | ok _ => rfl
    | error error => cases hstored
  returned other hmem := by
    rcases List.mem_append.mp hmem with hmem | hmem
    · cases h.returned other hmem
    · cases List.mem_singleton.mp hmem
      rfl

end History

end Call

/-! ## Calls and the lock -/

namespace State

/-- A call that has not been made is as good as one that waits. -/
def call (s : State) (i : Nat) : Call :=
  s.calls[i]?.getD .waiting

variable {s : State} {call next : Call} {j : Nat}

theorem call_eq (hi : s.calls[i]? = some call) : s.call i = call := by
  simp [State.call, hi]

theorem call_setCall (hi : s.calls[i]? = some call) :
    (s.setCall i next).call j = if j = i then next else s.call j := by
  have hlt := (List.getElem?_eq_some_iff.mp hi).1
  simp only [State.call, State.setCall, List.getElem?_set]
  by_cases hj : i = j
  · simp [hj, hj ▸ hlt]
  · simp [hj, Ne.symm hj]

theorem call_append : ({ s with calls := s.calls ++ [.waiting] } : State).call j = s.call j := by
  simp only [State.call]
  rcases Nat.lt_trichotomy j s.calls.length with hj | rfl | hj
  · rw [List.getElem?_append_left hj]
  · simp
  · rw [List.getElem?_eq_none (by simp; omega), List.getElem?_eq_none (by omega)]

end State

variable {s s' : State} {e : Event} {call next : Call}

theorem Change.finished_stays {result : Except InterlinkError TlsGeneration}
    (h : Change lib reloader s e s' out) (hw : s.builds[w]? = some (.finished result)) :
    s'.builds[w]? = some (.finished result) := by
  have hset {v : Nat} {build next : Build} (hv : s.builds[v]? = some build)
      (hrunning : ∀ result, build ≠ .finished result) :
      (s.builds.set v next)[w]? = some (.finished result) :=
    Tasks.getElem?_set_of_ne hv hw (hrunning result) next
  cases h with
  | read now hv hfile hnext => exact hset hv fun result heq => by cases heq ▸ hfile
  | check now hv => exact hset hv fun result heq => by cases heq
  | panic error hv hrunning => exact hset hv fun result heq => by cases heq ▸ hrunning
  | lock hi hfree =>
      exact Tasks.getElem?_append_of hw _
  | _ => exact hw

structure Control (s : State) : Prop where
  holder : ∀ i, (s.call i).locked = true → s.reloadLock = some i
  result : ∀ i w generation, s.call i = .storing w generation →
    s.builds[w]? = some (.finished (.ok generation))
  loaded : s.generation = none → s.calls = []

namespace Control

theorem initial (files : FileSystem) : Control (initial files) where
  holder i h := by cases h
  result i w generation h := by cases h
  loaded _ := rfl

theorem eq_of_locked (h : Control s) {j : Nat} (hi : (s.call i).locked = true)
    (hj : (s.call j).locked = true) : i = j :=
  Option.some.inj ((h.holder i hi).symm.trans (h.holder j hj))

theorem generation_ne_none (h : Control s) (hi : s.calls[i]? = some call) :
    s.generation ≠ none := by
  intro hnone
  rw [h.loaded hnone] at hi
  cases hi

private theorem holder_setCall (h : Control s) (hi : s.calls[i]? = some call)
    {lock : Option Nat} (hself : next.locked = true → lock = some i)
    (hother : ∀ j, j ≠ i → s.reloadLock = some j → lock = some j) (j : Nat)
    (hj : ((s.setCall i next).call j).locked = true) : lock = some j := by
  rw [State.call_setCall hi] at hj
  split at hj
  next heq =>
      rw [heq]
      exact hself hj
  next hne => exact hother j hne (h.holder j hj)

theorem holder_step (h : Control s) (hchange : Change lib reloader s e s' out) :
    ∀ j, (s'.call j).locked = true → s'.reloadLock = some j := by
  have hheld {i : Nat} {call : Call} (hi : s.calls[i]? = some call)
      (hlocked : call.locked = true) : s.reloadLock = some i :=
    h.holder i (by rw [State.call_eq hi]; exact hlocked)
  cases hchange with
  | reload hsome =>
      intro j hj
      rw [State.call_append] at hj
      exact h.holder j hj
  | lock hi hfree =>
      refine h.holder_setCall hi (fun _ => rfl) fun j _ hj => ?_
      rw [hfree] at hj
      cases hj
  | joinOk hi hresult => exact h.holder_setCall hi (fun _ => hheld hi rfl) fun j _ hj => hj
  | joinError error hi => exact h.holder_setCall hi (fun _ => hheld hi rfl) fun j _ hj => hj
  | store hi => exact h.holder_setCall hi (fun _ => hheld hi rfl) fun j _ hj => hj
  | cancelWaiting hi => exact h.holder_setCall hi (fun hself => by cases hself) fun j _ hj => hj
  | unlock hi =>
      refine h.holder_setCall hi (fun hself => by cases hself) fun j hne hj => ?_
      rw [hheld hi rfl] at hj
      exact absurd (Option.some.inj hj).symm hne
  | cancelBuilding hi =>
      refine h.holder_setCall hi (fun hself => by cases hself) fun j hne hj => ?_
      rw [hheld hi rfl] at hj
      exact absurd (Option.some.inj hj).symm hne
  | _ => exact h.holder

private theorem result_setCall (h : Control s) (hi : s.calls[i]? = some call)
    {builds : List Build} (hstays : ∀ (w : Nat) (generation : TlsGeneration),
      s.builds[w]? = some (.finished (.ok generation)) →
      builds[w]? = some (.finished (.ok generation)))
    (hself : ∀ (w : Nat) (generation : TlsGeneration), next = .storing w generation →
      builds[w]? = some (.finished (.ok generation))) (j w : Nat) (generation : TlsGeneration)
    (hj : (s.setCall i next).call j = .storing w generation) :
    builds[w]? = some (.finished (.ok generation)) := by
  rw [State.call_setCall hi] at hj
  split at hj
  next => exact hself w generation hj
  next => exact hstays w generation (h.result j w generation hj)

theorem result_step (h : Control s) (hchange : Change lib reloader s e s' out) :
    ∀ j w generation, s'.call j = .storing w generation →
      s'.builds[w]? = some (.finished (.ok generation)) := by
  have hstays (w : Nat) (generation : TlsGeneration)
      (hw : s.builds[w]? = some (.finished (.ok generation))) := hchange.finished_stays hw
  cases hchange with
  | reload hsome =>
      intro j w generation hj
      rw [State.call_append] at hj
      exact h.result j w generation hj
  | joinOk hi hresult =>
      refine h.result_setCall hi hstays fun w generation heq => ?_
      cases heq
      exact hresult
  | lock hi hfree => exact h.result_setCall hi hstays fun w generation heq => by cases heq
  | joinError error hi => exact h.result_setCall hi hstays fun w generation heq => by cases heq
  | store hi => exact h.result_setCall hi hstays fun w generation heq => by cases heq
  | unlock hi => exact h.result_setCall hi hstays fun w generation heq => by cases heq
  | cancelWaiting hi => exact h.result_setCall hi hstays fun w generation heq => by cases heq
  | cancelBuilding hi => exact h.result_setCall hi hstays fun w generation heq => by cases heq
  | _ => exact fun j w generation hj => hstays w generation (h.result j w generation hj)

theorem loaded_step (h : Control s) (hchange : Change lib reloader s e s' out) :
    s'.generation = none → s'.calls = [] := by
  intro hnone
  cases hchange with
  | load hgeneration hresult => cases hnone
  | reload hsome => exact absurd hnone hsome
  | store hi => cases hnone
  | lock hi hfree => exact absurd hnone (h.generation_ne_none hi)
  | joinOk hi hresult => exact absurd hnone (h.generation_ne_none hi)
  | joinError error hi => exact absurd hnone (h.generation_ne_none hi)
  | unlock hi => exact absurd hnone (h.generation_ne_none hi)
  | cancelWaiting hi => exact absurd hnone (h.generation_ne_none hi)
  | cancelBuilding hi => exact absurd hnone (h.generation_ne_none hi)
  | _ => exact h.loaded hnone

theorem step (h : Control s) (hchange : Change lib reloader s e s' out) : Control s' :=
  ⟨h.holder_step hchange, h.result_step hchange, h.loaded_step hchange⟩

end Control

/-! ## What a step adds to the trace -/

theorem Builds.step (h : Builds lib reloader trace s.builds) (hcontrol : Control s)
    (hchange : Change lib reloader s e s' out) :
    Builds lib reloader (trace ++ out) s'.builds := by
  cases hchange with
  | read now hw hfile hnext =>
      exact h.advance hw (Build.isOver_of_file? hfile) (by simp [Observation.readBy])
        ((h.origin _ _ hw).read hfile hnext)
  | check now hw =>
      exact h.advance hw rfl (by simp) (by simpa using (h.origin _ _ hw).check)
  | panic error hw hrunning => exact h.advance hw hrunning (by simp) trivial
  | load hnone hresult => exact h.install none hresult
  | lock hi hfree => exact h.spawn _
  | store hi => exact h.install _ (hcontrol.result _ _ _ (State.call_eq hi))
  | _ => exact h.quiet (by simp [Observation.quiet])

private theorem history_setCall (h : ∀ i, (s.call i).History trace i)
    (hi : s.calls[i]? = some call) (hself : next.History (trace ++ out) i)
    (habout : ∀ o ∈ out, ∀ j, o.about j → j = i)
    (hinstalls : ∀ o ∈ out, o.installs → ∀ j, (s.call j).fresh = true → j = i) (j : Nat) :
    ((s.setCall i next).call j).History (trace ++ out) j := by
  rw [State.call_setCall hi]
  split
  next heq =>
      rw [heq]
      exact hself
  next hne =>
      exact (h j).frame (fun o ho hj => hne (habout o ho j hj))
        fun hfresh o ho hinstall => hne (hinstalls o ho hinstall j hfresh)

private theorem history_moveCall (h : ∀ i, (s.call i).History trace i)
    (hi : s.calls[i]? = some call) (hself : next.History trace i) :
    ∀ j, ((s.setCall i next).call j).History (trace ++ []) j := by
  refine history_setCall h hi ?_ (fun o ho => nomatch ho) (fun o ho => nomatch ho)
  rw [List.append_nil]
  exact hself

theorem history_step (h : ∀ i, (s.call i).History trace i) (hcontrol : Control s)
    (hchange : Change lib reloader s e s' out) :
    ∀ i, (s'.call i).History (trace ++ out) i := by
  have hself {i : Nat} {call : Call} (hi : s.calls[i]? = some call) :
      call.History trace i := by
    have := h i
    rwa [State.call_eq hi] at this
  cases hchange with
  | load hnone hresult =>
      intro j
      refine (h j).frame (by simp [Observation.about]) fun hfresh => ?_
      have hwaiting : s.call j = .waiting := by simp [State.call, hcontrol.loaded hnone]
      rw [hwaiting] at hfresh
      cases hfresh
  | reload hsome =>
      intro j
      rw [State.call_append]
      by_cases hj : j = s.calls.length
      · have hwaiting : s.call j = .waiting := by simp [State.call, hj]
        have hj' := h j
        rw [hwaiting] at hj' ⊢
        rw [← hj]
        exact hj'.called
      · exact (h j).frame (by simp [Observation.about, Ne.symm hj])
          (by simp [Observation.installs])
  | lock hi hfree =>
      exact history_setCall h hi (hself hi).lock (by simp [Observation.about])
        (by simp [Observation.installs])
  | joinOk hi hresult =>
      exact history_moveCall h hi
        ((hself hi).move nofun (fun _ => rfl) (fun v hv => hv) (fun _ => rfl) rfl nofun)
  | joinError error hi =>
      exact history_moveCall h hi
        ((hself hi).move nofun (fun _ => rfl) nofun (fun _ => rfl) rfl nofun)
  | store hi =>
      refine history_setCall h hi (hself hi).store (by simp [Observation.about])
        fun _ _ _ j hfresh => ?_
      refine hcontrol.eq_of_locked (Call.locked_of_fresh hfresh) ?_
      rw [State.call_eq hi]
      rfl
  | unlock hi =>
      exact history_setCall h hi (hself hi).unlock (by simp [Observation.about])
        (by simp [Observation.installs])
  | cancelWaiting hi =>
      exact history_moveCall h hi ((hself hi).move nofun nofun nofun nofun rfl nofun)
  | cancelBuilding hi =>
      exact history_moveCall h hi ((hself hi).move nofun nofun nofun nofun rfl nofun)
  | _ =>
      exact fun j => (h j).frame (by simp [Observation.about])
        (by simp [Observation.installs])

end Interlink.TlsCredentialReloader
