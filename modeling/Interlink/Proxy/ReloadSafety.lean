import Interlink.Proxy.ReloadOrder

/-!
# Safety of reloads

What holds in every run of the reloader, whatever the calls, cancellations, file
rewrites and handshakes that are interleaved in it.
-/

namespace Interlink.TlsCredentialReloader

open Interlink.Foundation

variable {lib : TlsLibrary} {reloader : TlsCredentialReloader} {trace out : List Observation}
  {s s' : State} {e : Event} {i w : Nat} {generation : TlsGeneration}

/-! ## The installed generation -/

def Observation.generation? : Observation → Option TlsGeneration
  | .installed _ _ generation => some generation
  | _ => none

def lastInstalled (trace : List Observation) : Option TlsGeneration :=
  (trace.filterMap Observation.generation?).getLast?

theorem Observation.generation?_eq_none {o : Observation} (h : ¬ o.installs) :
    o.generation? = none := by
  cases o with
  | installed call worker generation => exact absurd trivial h
  | _ => rfl

theorem lastInstalled_append (h : ∀ o ∈ out, ¬ o.installs) :
    lastInstalled (trace ++ out) = lastInstalled trace := by
  have hout : out.filterMap Observation.generation? = [] :=
    List.filterMap_eq_nil_iff.mpr fun o ho => Observation.generation?_eq_none (h o ho)
  rw [lastInstalled, List.filterMap_append, hout, List.append_nil, lastInstalled]

theorem lastInstalled_installed (call : Option Nat) :
    lastInstalled (trace ++ [.installed call w generation]) = some generation := by
  simp [lastInstalled, Observation.generation?]

theorem not_installs_of_lastInstalled (h : lastInstalled trace = none) :
    ∀ o ∈ trace, ¬ o.installs := by
  intro o ho hinstall
  cases o with
  | installed call worker generation =>
      have hnil := List.getLast?_eq_none_iff.mp h
      exact Option.some_ne_none generation (List.filterMap_eq_nil_iff.mp hnil _ ho)
  | _ => cases hinstall

theorem current_step (h : s.generation = lastInstalled trace)
    (hchange : Change lib reloader s e s' out) :
    s'.generation = lastInstalled (trace ++ out) := by
  cases hchange with
  | load hnone hresult => exact (lastInstalled_installed none).symm
  | store hi => exact (lastInstalled_installed (some _)).symm
  | _ => exact h.trans (lastInstalled_append (by simp [Observation.installs])).symm

/-! ## What precedes an observation -/

def Loaded (lib : TlsLibrary) (reloader : TlsCredentialReloader) (trace : List Observation)
    (generation : TlsGeneration) : Prop :=
  ∃ call w, .installed call w generation ∈ trace ∧ BuiltFrom lib reloader trace w generation

def Orderly (lib : TlsLibrary) (reloader : TlsCredentialReloader)
    (before : List Observation) : Observation → Prop
  | .installed _ w generation => BuiltFrom lib reloader before w generation ∧
      ∀ o ∈ before, ∀ v, o.installsOf v →
        Before (Observation.readBy v) (Observation.readBy w) before
  | .returned i (.error _) => (∃ w, .locked i w ∈ before) ∧
      Before Observation.installs (Observation.locksFor i) before
  | .used _ endpoint => ∃ generation, Loaded lib reloader before generation ∧
      (endpoint = .client generation.client ∨ endpoint = .server generation.server)
  | _ => True

theorem BuiltFrom.append (h : BuiltFrom lib reloader trace w generation) :
    BuiltFrom lib reloader (trace ++ out) w generation := by
  have hbuild : (Build.finished (.ok generation)).From lib reloader trace w := h
  exact hbuild.append

theorem Loaded.append (h : Loaded lib reloader trace generation) :
    Loaded lib reloader (trace ++ out) generation := by
  obtain ⟨call, w, hinstalled, hbuilt⟩ := h
  exact ⟨call, w, List.mem_append_left out hinstalled, hbuilt.append⟩

theorem Builds.builtFrom {builds : List Build} (h : Builds lib reloader trace builds)
    (hw : builds[w]? = some (.finished (.ok generation))) :
    BuiltFrom lib reloader trace w generation :=
  h.origin w _ hw

theorem Builds.locked_before {builds : List Build} (h : Builds lib reloader trace builds) :
    Before (· = .locked i w) (Observation.readBy w) trace :=
  (h.spawnedFirst w).mono (by rintro o rfl; rfl) fun o hread => hread

/-- Everything installed before build `w` was spawned was read before it. -/
theorem Builds.readBy_before {builds : List Build} (h : Builds lib reloader trace builds)
    (hlocked : .locked i w ∈ trace)
    (hfresh : Before Observation.installs (Observation.locksFor i) trace)
    {o : Observation} (ho : o ∈ trace) {v : Nat} (hv : o.installsOf v) :
    Before (Observation.readBy v) (Observation.readBy w) trace := by
  have hinstalls : ∀ o : Observation, o.installsOf v → o.installs := by
    intro o hv
    cases o with
    | installed call worker generation => trivial
    | _ => cases hv
  have hinstalled : Before (Observation.installsOf v) (· = .locked i w) trace :=
    hfresh.mono hinstalls (by rintro o rfl; rfl)
  exact ((h.readFirst v).trans hinstalled ⟨o, ho, hv⟩).trans h.locked_before
    ⟨_, hlocked, rfl⟩

structure Invariant (lib : TlsLibrary) (reloader : TlsCredentialReloader)
    (trace : List Observation) (s : State) : Prop where
  builds : Builds lib reloader trace s.builds
  control : Control s
  history : ∀ i, (s.call i).History trace i
  current : s.generation = lastInstalled trace
  loaded : ∀ handshake ∈ s.handshakes, Loaded lib reloader trace handshake.generation
  used : ∀ k endpoint, .used k endpoint ∈ trace →
    ∃ handshake, s.handshakes[k]? = some handshake ∧ handshake.endpoint = endpoint
  orderly : Preceded (Orderly lib reloader) trace

namespace Invariant

theorem initial (files : FileSystem) : Invariant lib reloader [] (initial files) where
  builds := .initial
  control := .initial files
  history i := .initial
  current := rfl
  loaded handshake h := by cases h
  used k endpoint h := by cases h
  orderly := .nil

theorem loaded_step (h : Invariant lib reloader trace s)
    (hchange : Change lib reloader s e s' out) :
    ∀ handshake ∈ s'.handshakes,
      Loaded lib reloader (trace ++ out) handshake.generation := by
  have hkeep : ∀ handshake ∈ s.handshakes,
      Loaded lib reloader (trace ++ out) handshake.generation :=
    fun handshake hmem => (h.loaded handshake hmem).append
  cases hchange with
  | begin role hgeneration =>
      refine Tasks.forall_mem_append hkeep ?_
      have hlast : lastInstalled trace = some _ := h.current.symm.trans hgeneration
      obtain ⟨o, ho, hinstalled⟩ :=
        List.mem_filterMap.mp (List.mem_of_getLast? hlast)
      cases o with
      | installed call w generation =>
          cases hinstalled
          exact Loaded.append ⟨call, w, ho,
            h.builds.builtFrom (h.builds.finished call w _ ho)⟩
      | _ => cases hinstalled
  | _ => exact hkeep

theorem used_step (h : Invariant lib reloader trace s)
    (hchange : Change lib reloader s e s' out) (k : Nat) (endpoint : Endpoint)
    (hused : .used k endpoint ∈ trace ++ out) :
    ∃ handshake, s'.handshakes[k]? = some handshake ∧ handshake.endpoint = endpoint := by
  cases hchange with
  | begin role hgeneration =>
      obtain ⟨handshake, hk, hendpoint⟩ := h.used k endpoint (by simpa using hused)
      refine ⟨handshake, ?_, hendpoint⟩
      exact Tasks.getElem?_append_of hk _
  | proceed hk =>
      rcases List.mem_append.mp hused with hused | hused
      · exact h.used k endpoint hused
      · cases List.mem_singleton.mp hused
        exact ⟨_, hk, rfl⟩
  | _ => exact h.used k endpoint (by simpa using hused)

theorem orderly_step (h : Invariant lib reloader trace s)
    (hchange : Change lib reloader s e s' out) :
    Preceded (Orderly lib reloader) (trace ++ out) := by
  have hhistory {i : Nat} {call : Call} (hi : s.calls[i]? = some call) :
      call.History trace i := by
    have := h.history i
    rwa [State.call_eq hi] at this
  cases hchange with
  | read now hw hfile hnext => exact h.orderly.snoc trivial
  | reload hsome => exact h.orderly.snoc trivial
  | lock hi hfree => exact h.orderly.snoc trivial
  | load hnone hresult =>
      refine h.orderly.snoc ⟨h.builds.builtFrom hresult, fun o ho v hv => ?_⟩
      have hinstalls : o.installs := by
        cases o with
        | installed call worker generation => trivial
        | _ => cases hv
      exact absurd hinstalls
        (not_installs_of_lastInstalled (h.current.symm.trans hnone) o ho)
  | store hi =>
      have hcall := hhistory hi
      refine h.orderly.snoc ⟨h.builds.builtFrom ?_, fun o ho v hv => ?_⟩
      · exact h.control.result _ _ _ (State.call_eq hi)
      · exact h.builds.readBy_before (hcall.worker _ rfl) (hcall.fresh rfl) ho hv
  | @unlock i result hi =>
      refine h.orderly.snoc ?_
      cases result with
      | ok _ => trivial
      | error error => exact ⟨(hhistory hi).held rfl, (hhistory hi).fresh rfl⟩
  | @proceed k handshake hk =>
      refine h.orderly.snoc ⟨handshake.generation,
        h.loaded handshake (List.mem_of_getElem? hk), ?_⟩
      unfold Handshake.endpoint
      cases handshake.role with
      | connect => exact .inl rfl
      | accept => exact .inr rfl
  | _ =>
      rw [List.append_nil]
      exact h.orderly

theorem step (h : Invariant lib reloader trace s)
    (hchange : Change lib reloader s e s' out) : Invariant lib reloader (trace ++ out) s' where
  builds := h.builds.step h.control hchange
  control := h.control.step hchange
  history := history_step h.history h.control hchange
  current := current_step h.current hchange
  loaded := h.loaded_step hchange
  used := h.used_step hchange
  orderly := h.orderly_step hchange

theorem of_exec {files : FileSystem} {events : List Event}
    (hrun : (reloader.step lib).exec (TlsCredentialReloader.initial files) events =
      some (s, trace)) : Invariant lib reloader trace s :=
  Step.invariant (fun h hstep => h.step (step_change hstep)) (.initial files) hrun

end Invariant

/-! ## Runs without rewrites -/

def Event.rewrites : Event → Prop
  | .rewrite _ _ => True
  | _ => False

def readsOf (reloader : TlsCredentialReloader) (files : FileSystem) : CredentialReads :=
  ⟨files reloader.paths.caBundle, files reloader.paths.certificate,
    files reloader.paths.privateKey⟩

theorem eq_readsOf {files : FileSystem} {reads : CredentialReads}
    (h : ∀ file, reads.contents file = files (reloader.paths.path file)) :
    reads = reloader.readsOf files := by
  cases reads with
  | mk caBundle certificate privateKey =>
      have hca : caBundle = _ := h .caBundle
      have hcert : certificate = _ := h .certificate
      have hkey : privateKey = _ := h .privateKey
      rw [hca, hcert, hkey]
      rfl

structure Unwritten (reloader : TlsCredentialReloader) (files : FileSystem)
    (trace : List Observation) (s : State) : Prop where
  unchanged : s.files = files
  reads : ∀ w file contents, .read w file contents ∈ trace →
    contents = files (reloader.paths.path file)

theorem Unwritten.step {files : FileSystem} (h : Unwritten reloader files trace s)
    (he : ¬ e.rewrites) (hchange : Change lib reloader s e s' out) :
    Unwritten reloader files (trace ++ out) s' := by
  cases hchange with
  | rewrite path contents => exact absurd trivial he
  | read now hw hfile hnext =>
      refine ⟨h.unchanged, fun v file contents hread => ?_⟩
      rcases List.mem_append.mp hread with hread | hread
      · exact h.reads v file contents hread
      · cases List.mem_singleton.mp hread
        rw [h.unchanged]
  | _ => exact ⟨h.unchanged, by simpa using h.reads⟩

theorem Unwritten.of_exec {events : List Event}
    (hrun : (reloader.step lib).exec s events = some (s', trace))
    (hevents : ∀ e ∈ events, ¬ e.rewrites) : Unwritten reloader s.files trace s' :=
  Step.invariant_of_always (fun h he hstep => h.step he (step_change hstep))
    ⟨rfl, by simp⟩ (Step.always_of_forall hevents s) hrun

/-! ## Safety -/

/-- What is known of every state `s` that is reached with the observations `trace`. -/
structure Consistent (lib : TlsLibrary) (reloader : TlsCredentialReloader)
    (trace : List Observation) (s : State) : Prop where
  current : s.generation = lastInstalled trace
  failed : ∀ before i error after, trace = before ++ .returned i (.error error) :: after →
    ∃ start w middle, before = start ++ .locked i w :: middle ∧
      lastInstalled before = lastInstalled start
  failedCall : ∀ i error w generation, .returned i (.error error) ∈ trace →
    .installed (some i) w generation ∉ trace
  handshake : ∀ before k endpoint after, trace = before ++ .used k endpoint :: after →
    (∃ generation, Loaded lib reloader before generation ∧
      (endpoint = .client generation.client ∨ endpoint = .server generation.server)) ∧
    ∀ other, .used k other ∈ trace → other = endpoint
  ordered : ∀ before call w generation after,
    trace = before ++ .installed call w generation :: after →
    BuiltFrom lib reloader before w generation ∧
    ∀ earlier v replaced, .installed earlier v replaced ∈ before →
      Before (Observation.readBy v) (Observation.readBy w) trace

namespace Invariant

theorem ordered (h : Invariant lib reloader trace s) {before after : List Observation}
    {call : Option Nat} (htrace : trace = before ++ .installed call w generation :: after)
    {earlier : Option Nat} {v : Nat} {replaced : TlsGeneration}
    (hearlier : .installed earlier v replaced ∈ before) :
    Before (Observation.readBy v) (Observation.readBy w) trace := by
  have hread := h.builds.readFirst v
  have horder := (h.orderly before _ after htrace).2 _ hearlier v rfl
  rw [htrace] at hread ⊢
  exact horder.append (hread.not_mem_right ⟨_, hearlier, rfl⟩)

theorem failed (h : Invariant lib reloader trace s) {before after : List Observation}
    {error : InterlinkError} (htrace : trace = before ++ .returned i (.error error) :: after) :
    ∃ start w middle, before = start ++ .locked i w :: middle ∧
      lastInstalled before = lastInstalled start := by
  obtain ⟨⟨w, hlocked⟩, hbefore⟩ := h.orderly before _ after htrace
  obtain ⟨start, middle, rfl⟩ := List.append_of_mem hlocked
  refine ⟨start, w, middle, rfl, lastInstalled_append fun o ho hinstall => ?_⟩
  rcases List.mem_cons.mp ho with rfl | ho
  · cases hinstall
  · rw [List.append_cons] at hbefore
    exact hbefore.not_mem_right ⟨.locked i w, by simp, rfl⟩ o ho hinstall

theorem consistent (h : Invariant lib reloader trace s) :
    Consistent lib reloader trace s where
  current := h.current
  failed before i error after htrace := h.failed htrace
  failedCall i error w generation hreturned hinstalled := by
    have hstored := ((h.history i).installed w generation hinstalled).1
    rw [(h.history i).returned _ hreturned] at hstored
    cases hstored
  handshake before k endpoint after htrace := by
    refine ⟨h.orderly before _ after htrace, fun other hother => ?_⟩
    obtain ⟨handshake, hk, rfl⟩ := h.used k endpoint (by rw [htrace]; simp)
    obtain ⟨same, hsame, rfl⟩ := h.used k other hother
    rw [hk] at hsame
    rw [Option.some.inj hsame]
  ordered before call w generation after htrace :=
    ⟨(h.orderly before _ after htrace).1, fun _ _ _ hearlier => h.ordered htrace hearlier⟩

theorem called_before (h : Invariant lib reloader trace s) {before after : List Observation}
    (htrace : trace = before ++ .installed (some i) w generation :: after)
    {call : Option Nat} {v : Nat} {replacing : TlsGeneration}
    (hlater : .installed call v replacing ∈ .installed (some i) w generation :: after) :
    Before (Observation.calls i) (Observation.readBy v) trace := by
  have hmem : .installed (some i) w generation ∈ trace := by rw [htrace]; simp
  have hlocked := ((h.history i).installed w generation hmem).2
  have hcalled : Before (Observation.calls i) (· = .locked i w) trace :=
    (h.history i).calledFirst.mono (fun o hcall => hcall) (by rintro o rfl; rfl)
  have hown : Before (Observation.calls i) (Observation.readBy w) trace :=
    hcalled.trans h.builds.locked_before ⟨_, hlocked, rfl⟩
  rcases List.mem_cons.mp hlater with heq | hlater
  · cases heq
    exact hown
  · obtain ⟨reads, now, hreads, -⟩ :=
      h.builds.builtFrom (h.builds.finished (some i) w generation hmem)
    obtain ⟨middle, rest, rfl⟩ := List.append_of_mem hlater
    have hsplit : trace = (before ++ .installed (some i) w generation :: middle) ++
        .installed call v replacing :: rest := by simp [htrace]
    have hearlier : .installed (some i) w generation ∈
        before ++ .installed (some i) w generation :: middle := by simp
    exact hown.trans (h.ordered hsplit hearlier) ⟨_, hreads .caBundle, rfl⟩

end Invariant

/--
The second half is about runs that go on from `s` without a rewrite: what a call
that starts there installs, and all that is installed after it, is what
`build_generation` makes of the contents the files have.
-/
theorem reload_consistent {files : FileSystem} {events : List Event}
    (hrun : (reloader.step lib).exec (initial files) events = some (s, trace)) :
    Consistent lib reloader trace s ∧
    ∀ later s' rest, (reloader.step lib).exec s later = some (s', rest) →
      (∀ e ∈ later, ¬ e.rewrites) →
      ∀ i w generation before after, .called i ∈ rest →
        trace ++ rest = before ++ .installed (some i) w generation :: after →
        ∀ call v replacing,
          .installed call v replacing ∈ .installed (some i) w generation :: after →
          ∃ now, generationFrom lib reloader (reloader.readsOf s'.files) now =
            .ok replacing := by
  refine ⟨(Invariant.of_exec hrun).consistent, ?_⟩
  intro later s' rest hlater hrewrites i w generation before after hcalled htrace call v
    replacing hmem
  have hinv : Invariant lib reloader (trace ++ rest) s' :=
    .of_exec (Step.exec_append hrun hlater)
  have hunwritten := Unwritten.of_exec hlater hrewrites
  have hbefore := hinv.called_before htrace hmem
  have hinstalled : .installed call v replacing ∈ trace ++ rest := by
    rw [htrace]
    exact List.mem_append_right before hmem
  obtain ⟨reads, now, hreads, haccepted⟩ :=
    hinv.builds.builtFrom (hinv.builds.finished call v replacing hinstalled)
  have hcontents (file : CredentialFile) :
      reads.contents file = s'.files (reloader.paths.path file) := by
    rw [hunwritten.unchanged]
    rcases List.mem_append.mp (hreads file) with hread | hread
    · exact absurd rfl (hbefore.not_mem_left ⟨_, hcalled, rfl⟩ _ hread)
    · exact hunwritten.reads v file _ hread
  exact ⟨now, by rw [← eq_readsOf hcontents]; exact haccepted⟩

/-! ## A rotation, and a reload that fails -/

namespace Example

open TlsGeneration.Example

def sidecar : TlsCredentialReloader :=
  ⟨TlsGeneration.Example.paths, workload, true⟩

def issued (leaf : UInt8) : FileSystem := fun path =>
  if path = sidecar.paths.caBundle then .ok [1, 1]
  else if path = sidecar.paths.certificate then .ok (pemHeader ++ [leaf, 1])
  else .ok [7]

def built (worker : Nat) : List Event :=
  List.replicate 4 (.build worker 0)

/-- The credentials are loaded, a handshake begins and the certificate is rewritten. -/
def rewritten : List Event :=
  built 0 ++ [.load, .begin .accept,
    .rewrite sidecar.paths.certificate (.ok (pemHeader ++ [4, 1]))]

def reloading : List Event :=
  [.reload, .call 0 .lock] ++ built 1 ++
    [.call 0 .join, .call 0 .store, .proceed 0, .call 0 .unlock]

/-- A second reload finds no private key. -/
def rotation : List Event :=
  rewritten ++ reloading ++
    [.rewrite sidecar.paths.privateKey (.error "not found".toList), .reload, .call 1 .lock,
      .build 2 0, .build 2 0, .build 2 0, .call 1 .join, .call 1 .unlock]

def failed (i : Nat) : Observation → Bool
  | .returned j (.error _) => j == i
  | _ => false

def presents (leaf : UInt8) (generation : TlsGeneration) : Bool :=
  generation.server.certChain == [[leaf, 1]]

def accepted (leaf : UInt8) : Observation → Bool
  | .used _ (.server server) => server.certChain == [[leaf, 1]]
  | _ => false

def installs (leaf : UInt8) : Observation → Bool
  | .installed (some 0) 1 generation => presents leaf generation
  | _ => false

theorem exists_of_installs {leaf : UInt8} {o : Observation} (h : installs leaf o = true) :
    ∃ generation, o = .installed (some 0) 1 generation ∧ presents leaf generation = true := by
  unfold installs at h
  split at h
  next generation => exact ⟨generation, rfl, h⟩
  next => cases h

end Example

open Example in
theorem rotation_consistent :
    (∃ s trace, (sidecar.step TlsGeneration.Example.library).exec (initial (issued 3))
        rotation = some (s, trace) ∧
      Consistent TlsGeneration.Example.library sidecar trace s ∧
      s.generation.any (presents 4) = true ∧ trace.any (failed 1) = true ∧
      trace.any (accepted 3) = true) ∧
    ∃ s trace s' rest generation now,
      (sidecar.step TlsGeneration.Example.library).exec (initial (issued 3)) rewritten =
        some (s, trace) ∧
      (sidecar.step TlsGeneration.Example.library).exec s reloading = some (s', rest) ∧
      .installed (some 0) 1 generation ∈ rest ∧ presents 4 generation = true ∧
      generationFrom TlsGeneration.Example.library sidecar (sidecar.readsOf s'.files) now =
        .ok generation := by
  constructor
  · have hany : ((sidecar.step TlsGeneration.Example.library).exec (initial (issued 3))
        rotation).any (fun last => last.1.generation.any (presents 4) &&
          (last.2.any (failed 1) && last.2.any (accepted 3))) = true := by
      decide +kernel
    obtain ⟨⟨s, trace⟩, hrun, hlast⟩ := (Option.any_eq_true _ _).mp hany
    simp only [Bool.and_eq_true] at hlast
    exact ⟨s, trace, hrun, (reload_consistent hrun).1, hlast.1, hlast.2.1, hlast.2.2⟩
  · have hany : ((sidecar.step TlsGeneration.Example.library).exec (initial (issued 3))
        rewritten).any (fun middle =>
          ((sidecar.step TlsGeneration.Example.library).exec middle.1 reloading).any
            (fun last => last.2.any (installs 4) && last.2.contains (.called 0))) = true := by
      decide +kernel
    obtain ⟨⟨s, trace⟩, hrun, hmiddle⟩ := (Option.any_eq_true _ _).mp hany
    obtain ⟨⟨s', rest⟩, hlater, hlast⟩ := (Option.any_eq_true _ _).mp hmiddle
    obtain ⟨hinstalls, hcalled⟩ := Bool.and_eq_true_iff.mp hlast
    obtain ⟨o, ho, hpresents⟩ := List.any_eq_true.mp hinstalls
    obtain ⟨generation, rfl, hleaf⟩ := exists_of_installs hpresents
    obtain ⟨before, after, htrace⟩ := List.append_of_mem (List.mem_append_right trace ho)
    have hrewrites : ∀ e ∈ reloading, ¬ e.rewrites := by
      simp [reloading, built, Event.rewrites]
    obtain ⟨now, hgeneration⟩ := (reload_consistent hrun).2 reloading s' rest hlater hrewrites
      0 1 generation before after (by simpa using hcalled) htrace _ _ _ List.mem_cons_self
    exact ⟨s, trace, s', rest, generation, now, hrun, hlater, ho, hleaf, hgeneration⟩

end Interlink.TlsCredentialReloader
