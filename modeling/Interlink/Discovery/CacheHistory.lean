import Interlink.Discovery.Resolve
import Interlink.Foundation.Trace

/-!
# What a call to `resolve` returns

The cache against its purpose: for every name it holds the result of the last lookup that
was written to it since it was last cleared, together with the time of the write.  The
fast path serves that result while it is younger than the TTL, a call that waited for a
leader reads it whatever its age, and a leader returns the answer to its own lookup.
-/

namespace Interlink.ServiceDiscovery

open Interlink.Foundation

/-! ## A record of the run -/

/-- What a step did, with the call that did it and the time where it matters. -/
inductive Note where
  | answered (i : Nat) (name : Str) (answer : Answer)
  | inserted (i : Nat) (name : Str) (result : Outcome) (time : Nat)
  | cleared
  | hit (i : Nat) (name : Str) (endpoints : ResolvedEndpoints) (time : Nat)
  | missed (i : Nat) (name : Str) (time : Nat)
  | read (i : Nat) (name : Str) (outcome : Outcome)
  | returned (i : Nat) (name : Str) (outcome : Outcome)
  deriving DecidableEq

def callNotes (s : State) (i : Nat) : Call → List Note
  | ⟨name, .checking⟩ =>
      match s.fresh name with
      | some endpoints => [.hit i name endpoints s.now]
      | none => [.missed i name s.now]
  | ⟨name, .caching _ result⟩ => [.inserted i name result s.now]
  | ⟨name, .reading _⟩ => [.read i name (s.readCache name)]
  | ⟨name, .releasing _ result⟩ => [.returned i name result]
  | _ => []

def notes (s : State) : Event → List Note
  | .run i => (s.calls[i]?.map (callNotes s i)).getD []
  | .lookupDone i answer => (s.calls[i]?.map fun call => [.answered i call.name answer]).getD []
  | .clearCache => [.cleared]
  | .resolve _ | .elapse _ | .drop _ => []

def noted : Step State Event Note := fun s e =>
  (step s e).map fun next => (next.1, notes s e)

/-! ## The last insertion -/

def Note.apply (last : Str → Option (Outcome × Nat)) : Note → Str → Option (Outcome × Nat)
  | .inserted _ name result time => Function.update last name (some (result, time))
  | .cleared => fun _ => none
  | _ => last

/-- The result that was last written for a name since the cache was last cleared, and when. -/
def lastInsertion (history : List Note) : Str → Option (Outcome × Nat) :=
  history.foldl Note.apply fun _ => none

theorem lastInsertion_snoc (history : List Note) (note : Note) :
    lastInsertion (history ++ [note]) = note.apply (lastInsertion history) := by
  simp [lastInsertion]

def readable : Option (Outcome × Nat) → Outcome
  | some (.ok endpoints, _) => .ok endpoints
  | _ => .error lookupFailed

def Produced (history : List Note) (i : Nat) (name : Str) (outcome : Outcome) : Prop :=
  (∃ answer, .answered i name answer ∈ history ∧ outcome = resolveInner answer) ∨
    .read i name outcome ∈ history

/-- What the record says before a call writes, serves, reads or returns. -/
def Justified (ttl : Nat) (history : List Note) : Note → Prop
  | .inserted i name result _ =>
      ∃ answer, .answered i name answer ∈ history ∧ result = resolveInner answer
  | .hit _ name endpoints time =>
      ∃ written, lastInsertion history name = some (.ok endpoints, written) ∧ time < written + ttl
  | .missed _ name time =>
      ∀ endpoints written, lastInsertion history name = some (.ok endpoints, written) →
        written + ttl ≤ time
  | .read _ name outcome => outcome = readable (lastInsertion history name)
  | .returned i name outcome => Produced history i name outcome
  | .answered _ _ _ | .cleared => True

/-! ## The invariant -/

def Backed (history : List Note) (i : Nat) (call : Call) : Prop :=
  match call.pc with
  | .caching _ result | .leaving _ result =>
      ∃ answer, .answered i call.name answer ∈ history ∧ result = resolveInner answer
  | .releasing _ result => Produced history i call.name result
  | _ => True

structure History (ttl : Nat) (history : List Note) (s : State) : Prop where
  ttl_eq : s.ttl = ttl
  cache : ∀ name, s.cache name =
    (lastInsertion history name).map fun last => ⟨last.1.toOption, last.2 + ttl⟩
  backed : ∀ i call, s.calls[i]? = some call → Backed history i call
  justified : Preceded (Justified ttl) history

variable {s s' : State} {e : Event} {i ttl now : Nat} {name : Str} {call : Call}
  {history : List Note} {out : List Observation} {events : List Event}

theorem Produced.mono {more : List Note} {outcome : Outcome}
    (h : Produced history i name outcome) : Produced (history ++ more) i name outcome := by
  rcases h with ⟨answer, hmem, heq⟩ | hmem
  · exact .inl ⟨answer, List.mem_append_left _ hmem, heq⟩
  · exact .inr (List.mem_append_left _ hmem)

theorem Backed.mono (h : Backed history i call) (more : List Note) :
    Backed (history ++ more) i call := by
  obtain ⟨name, pc⟩ := call
  cases pc with
  | caching sem result =>
      obtain ⟨answer, hmem, heq⟩ := h
      exact ⟨answer, List.mem_append_left _ hmem, heq⟩
  | leaving sem result =>
      obtain ⟨answer, hmem, heq⟩ := h
      exact ⟨answer, List.mem_append_left _ hmem, heq⟩
  | releasing sem result => exact Produced.mono h
  | _ => trivial

namespace History

theorem fresh_eq_some (h : History ttl history s) {endpoints : ResolvedEndpoints} :
    s.fresh name = some endpoints ↔
      ∃ written, lastInsertion history name = some (.ok endpoints, written) ∧
        s.now < written + ttl := by
  rw [State.fresh, h.cache name]
  cases lastInsertion history name with
  | none => simp
  | some last =>
      obtain ⟨result, written⟩ := last
      cases result <;> simp [CacheEntry.isExpired, Except.toOption, and_comm]

theorem readCache_eq (h : History ttl history s) :
    s.readCache name = readable (lastInsertion history name) := by
  rw [State.readCache, State.cached, h.cache name]
  cases lastInsertion history name with
  | none => rfl
  | some last =>
      obtain ⟨result, written⟩ := last
      cases result <;> rfl

theorem backed_set (h : History ttl history s) {more : List Note}
    (hnew : Backed (history ++ more) i call) :
    ∀ j other, (s.calls.set i call)[j]? = some other → Backed (history ++ more) j other := by
  intro j other hj
  rcases Tasks.getElem?_set_cases hj with ⟨rfl, rfl⟩ | ⟨-, hold⟩
  · exact hnew
  · exact (h.backed j other hold).mono _

private theorem silent (h : History ttl history s) (httl : s'.ttl = s.ttl)
    (hcache : s'.cache = s.cache) (hcalls : s'.calls = s.calls.set i call)
    (hnew : Backed history i call) : History ttl (history ++ []) s' := by
  refine ⟨httl.trans h.ttl_eq, ?_, ?_, by simpa using h.justified⟩
  · rw [hcache, List.append_nil]
    exact h.cache
  · rw [hcalls]
    exact h.backed_set (hnew.mono [])

private theorem record (h : History ttl history s) {note : Note}
    (happly : ∀ last, note.apply last = last) (hjustified : Justified ttl history note)
    (httl : s'.ttl = s.ttl) (hcache : s'.cache = s.cache)
    (hcalls : s'.calls = s.calls.set i call) (hnew : Backed (history ++ [note]) i call) :
    History ttl (history ++ [note]) s' := by
  refine ⟨httl.trans h.ttl_eq, ?_, ?_, h.justified.snoc hjustified⟩
  · rw [hcache, lastInsertion_snoc, happly]
    exact h.cache
  · rw [hcalls]
    exact h.backed_set hnew

private theorem insert (h : History ttl history s) {sem : Nat} {result : Outcome}
    (hi : s.calls[i]? = some ⟨name, .caching sem result⟩) :
    History ttl (history ++ [.inserted i name result s.now])
      ((s.insertEntry name result).goto i name (.leaving sem result)) := by
  have hcaching := h.backed i _ hi
  have hbacked : Backed history i ⟨name, .leaving sem result⟩ := hcaching
  refine ⟨h.ttl_eq, fun other => ?_, ?_, h.justified.snoc hbacked⟩
  · rw [lastInsertion_snoc]
    change Function.update s.cache name _ other = _
    simp only [Note.apply, Function.update_apply]
    split
    next => simp [h.ttl_eq]
    next => exact h.cache other
  · exact h.backed_set (hbacked.mono _)

private theorem clear (h : History ttl history s) :
    History ttl (history ++ [.cleared]) { s with cache := fun _ => none } where
  ttl_eq := h.ttl_eq
  cache other := by simp [lastInsertion_snoc, Note.apply]
  backed j call hj := (h.backed j call hj).mono _
  justified := h.justified.snoc trivial

private theorem unmoved (h : History ttl history s) (httl : s'.ttl = s.ttl)
    (hcache : s'.cache = s.cache) (hcalls : ∀ j call, s'.calls[j]? = some call →
      Backed history j call) : History ttl (history ++ []) s' := by
  rw [List.append_nil]
  exact ⟨httl.trans h.ttl_eq, hcache ▸ h.cache, hcalls, h.justified⟩

theorem withResolver (ttl now : Nat) : History ttl [] (withResolver ttl now) where
  ttl_eq := rfl
  cache name := rfl
  backed i call hi := by simp [ServiceDiscovery.withResolver] at hi
  justified := .nil

theorem step (h : History ttl history s) (hchange : Change s e s' out) :
    History ttl (history ++ notes s e) s' := by
  cases hchange with
  | resolve name =>
      refine h.unmoved rfl rfl fun j call hj => ?_
      rcases Tasks.getElem?_append_cases hj with ⟨-, rfl⟩ | hold
      · trivial
      · exact h.backed j call hold
  | elapse duration => exact h.unmoved rfl rfl h.backed
  | clearCache => exact h.clear
  | @hit i name endpoints hi hfresh =>
      simp only [notes, hi, Option.map_some, Option.getD_some, callNotes, hfresh]
      exact h.record (fun _ => rfl) (h.fresh_eq_some.mp hfresh) rfl rfl rfl trivial
  | @miss i name hi hfresh =>
      simp only [notes, hi, Option.map_some, Option.getD_some, callNotes, hfresh]
      refine h.record (fun _ => rfl) ?_ rfl rfl rfl trivial
      intro endpoints written hlast
      by_contra hlt
      have hsome := h.fresh_eq_some.mpr ⟨written, hlast, Nat.lt_of_not_le hlt⟩
      simp [hfresh] at hsome
  | @answer i name sem answer hi =>
      simp only [notes, hi, Option.map_some, Option.getD_some]
      refine h.record (fun _ => rfl) trivial rfl rfl rfl ?_
      exact ⟨answer, by simp, rfl⟩
  | insert hi =>
      simp only [notes, hi, Option.map_some, Option.getD_some, callNotes]
      exact h.insert hi
  | read hi =>
      simp only [notes, hi, Option.map_some, Option.getD_some, callNotes]
      exact h.record (fun _ => rfl) h.readCache_eq rfl rfl rfl (.inr (by simp))
  | release hi =>
      simp only [notes, hi, Option.map_some, Option.getD_some, callNotes]
      exact h.record (fun _ => rfl) (h.backed _ _ hi) rfl rfl rfl trivial
  | leave hi =>
      simp only [notes, hi, Option.map_some, Option.getD_some, callNotes]
      exact h.silent rfl rfl rfl (.inl (h.backed _ _ hi))
  | join hi | allocate hi | elect hi | wait hi | issue hi | grant hi =>
      simp only [notes, hi, Option.map_some, Option.getD_some, callNotes]
      exact h.silent rfl rfl rfl trivial
  | dropLeader hi | dropWaiter hi => exact h.silent rfl rfl rfl trivial

end History

/--
In every run each write, each answer from the cache and each return is justified by what
happened before it.
-/
theorem returned_justified
    (hrun : noted.exec (withResolver ttl now) events = some (s, history)) :
    Preceded (Justified ttl) history ∧
      ∀ name, s.cache name =
        (lastInsertion history name).map fun last => ⟨last.1.toOption, last.2 + ttl⟩ := by
  have hlast : History ttl history s := by
    refine noted.invariant (fun h hstep => ?_) (.withResolver ttl now) hrun
    obtain ⟨⟨next, out⟩, hnext, heq⟩ := Option.map_eq_some_iff.mp hstep
    cases heq
    exact h.step (step_change hnext)
  exact ⟨hlast.justified, hlast.cache⟩

/--
A leader and a waiter.  The leader writes its answer at time 0, the waiter reads it at
time 40 although it expired at 30, and a third call misses.
-/
theorem staleRead_justified :
    ∃ last before after, noted.exec (withResolver 30 0)
        [.resolve [], .resolve [], .run 0, .run 0, .run 1, .run 1, .run 0, .run 1, .run 0,
          .lookupDone 0 (.ok []), .run 0, .run 0, .run 0, .elapse 40, .run 1, .run 1, .run 1,
          .resolve [], .run 2] = some last ∧
      last.2 = before ++ .read 1 [] (.ok ⟨[], none⟩) :: after ∧
      Justified 30 before (.read 1 [] (.ok ⟨[], none⟩)) ∧ .missed 2 [] 40 ∈ last.2 := by
  have hlast : (noted.exec (withResolver 30 0)
      [.resolve [], .resolve [], .run 0, .run 0, .run 1, .run 1, .run 0, .run 1, .run 0,
        .lookupDone 0 (.ok []), .run 0, .run 0, .run 0, .elapse 40, .run 1, .run 1, .run 1,
        .resolve [], .run 2]).any
      (fun last => decide (.read 1 [] (.ok ⟨[], none⟩) ∈ last.2) &&
        decide (.missed 2 [] 40 ∈ last.2)) = true := by
    decide +kernel
  obtain ⟨last, hrun, hcheck⟩ := (Option.any_eq_true _ _).mp hlast
  simp only [Bool.and_eq_true, decide_eq_true_eq] at hcheck
  obtain ⟨before, after, heq⟩ := List.append_of_mem hcheck.1
  exact ⟨last, before, after, hrun, heq, (returned_justified hrun).1 _ _ _ heq, hcheck.2⟩

end Interlink.ServiceDiscovery
