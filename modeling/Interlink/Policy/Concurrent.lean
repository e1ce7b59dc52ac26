import Interlink.Foundation.Transition
import Interlink.Policy.Engine

/-!
# An evaluation beside concurrent updates

`evaluate` reads two stores that other threads update independently: the
namespace scan holds the guard of one entry and the global scan reads one
snapshot, but nothing holds both.  A run interleaves the two scans of one call
with updates; it observes every state of the engine that the call lives through.
-/

namespace Interlink

open Interlink.Foundation

namespace PolicyEngine

/--
What other threads may call beside an evaluation: `set_default_decision` takes
the engine exclusively.
-/
inductive Update where
  | addNamespaceRule (ns : Str) (rule : PolicyRule)
  | setGlobalPolicies (rules : List PolicyRule)

def Update.call : Update → Call
  | .addNamespaceRule ns rule => .addNamespaceRule ns rule
  | .setGlobalPolicies rules => .setGlobalPolicies rules

inductive Progress where
  | scanningNamespace
  | scanningGlobal
  | returned (decision : Decision)
  deriving DecidableEq

structure Evaluation where
  engine : PolicyEngine
  progress : Progress

namespace Evaluation

inductive Event where
  | update (update : Update)
  | scan

def start (engine : PolicyEngine) : Evaluation :=
  ⟨engine, .scanningNamespace⟩

section Steps

variable (source destination : SpiffeId)

def update (s : Evaluation) (update : Update) : Evaluation × List PolicyEngine :=
  let engine := s.engine.apply update.call
  match s.progress with
  | .returned _ => ({ s with engine := engine }, [])
  | _ => ({ s with engine := engine }, [engine])

def scan (s : Evaluation) : Option Evaluation :=
  match s.progress with
  | .scanningNamespace =>
      match s.engine.scanNamespace source destination with
      | some decision => some { s with progress := .returned decision }
      | none => some { s with progress := .scanningGlobal }
  | .scanningGlobal =>
      some { s with progress := .returned (s.engine.scanGlobal source destination) }
  | .returned _ => none

def step : Step Evaluation Event PolicyEngine
  | s, .update update => some (s.update update)
  | s, .scan => (s.scan source destination).map fun next => (next, [])

/--
Between the scans, while a namespace rule already matches, a new global list
decides the pair as the old one did.
-/
def Settled (s : Evaluation) : Event → Prop
  | .update (.setGlobalPolicies rules) =>
      s.progress = .scanningGlobal →
        s.engine.scanNamespace source destination ≠ none →
          (s.engine.setGlobalPolicies rules).scanGlobal source destination =
            s.engine.scanGlobal source destination
  | _ => True

def Explained (states : List PolicyEngine) (s : Evaluation) : Prop :=
  match s.progress with
  | .scanningNamespace => s.engine ∈ states
  | .scanningGlobal =>
      ∃ state ∈ states, state.scanNamespace source destination = none ∧
        state.scanGlobal source destination = s.engine.scanGlobal source destination
  | .returned decision =>
      ∃ state ∈ states, state.evaluate source destination = decision

end Steps

/-! ## What each step keeps -/

section Invariant

variable {source destination : SpiffeId} {states : List PolicyEngine}

private theorem evaluate_of_scanNamespace {engine : PolicyEngine} {decision : Decision}
    (h : engine.scanNamespace source destination = some decision) :
    engine.evaluate source destination = decision := by
  rw [evaluate, h, Option.getD_some]

private theorem evaluate_of_scanGlobal {engine : PolicyEngine}
    (h : engine.scanNamespace source destination = none) :
    engine.evaluate source destination = engine.scanGlobal source destination := by
  rw [evaluate, h, Option.getD_none]

theorem Explained.scan {s next : Evaluation} (h : Explained source destination states s)
    (hscan : s.scan source destination = some next) :
    Explained source destination states next := by
  obtain ⟨engine, progress⟩ := s
  cases progress with
  | scanningNamespace =>
      have hmem : engine ∈ states := h
      cases hns : engine.scanNamespace source destination with
      | some decision =>
          simp only [Evaluation.scan, hns, Option.some.injEq] at hscan
          subst hscan
          exact ⟨engine, hmem, evaluate_of_scanNamespace hns⟩
      | none =>
          simp only [Evaluation.scan, hns, Option.some.injEq] at hscan
          subst hscan
          exact ⟨engine, hmem, hns, rfl⟩
  | scanningGlobal =>
      obtain ⟨state, hmem, hns, hglobal⟩ := h
      simp only [Evaluation.scan, Option.some.injEq] at hscan
      subst hscan
      exact ⟨state, hmem, (evaluate_of_scanGlobal hns).trans hglobal⟩
  | returned decision => simp [Evaluation.scan] at hscan

theorem Explained.mono {s : Evaluation} (h : Explained source destination states s)
    (later : List PolicyEngine) : Explained source destination (states ++ later) s := by
  obtain ⟨engine, progress⟩ := s
  cases progress with
  | scanningNamespace => exact List.mem_append_left later h
  | scanningGlobal =>
      obtain ⟨state, hmem, hstate⟩ := h
      exact ⟨state, List.mem_append_left later hmem, hstate⟩
  | returned decision =>
      obtain ⟨state, hmem, hstate⟩ := h
      exact ⟨state, List.mem_append_left later hmem, hstate⟩

/--
An update between the scans: either the new state has no matching namespace rule
and explains the decision itself, or the global decision has not moved.
-/
private theorem explained_between {engine : PolicyEngine} {update : Update}
    (h : Explained source destination states ⟨engine, .scanningGlobal⟩)
    (hsettled : Settled source destination ⟨engine, .scanningGlobal⟩ (.update update)) :
    Explained source destination (states ++ [engine.apply update.call])
      ⟨engine.apply update.call, .scanningGlobal⟩ := by
  have hold := h.mono [engine.apply update.call]
  cases update with
  | addNamespaceRule ns rule => exact hold
  | setGlobalPolicies rules =>
      by_cases hns : engine.scanNamespace source destination = none
      · exact ⟨engine.setGlobalPolicies rules, by simp [apply, Update.call], hns, rfl⟩
      · obtain ⟨state, hmem, hnone, hglobal⟩ := hold
        exact ⟨state, hmem, hnone, hglobal.trans (hsettled rfl hns).symm⟩

theorem Explained.update {s : Evaluation} {update : Update}
    (h : Explained source destination states s)
    (hsettled : Settled source destination s (.update update)) :
    Explained source destination (states ++ (s.update update).2) (s.update update).1 := by
  obtain ⟨engine, progress⟩ := s
  cases progress with
  | scanningNamespace => exact List.mem_append_right states (List.mem_singleton_self _)
  | scanningGlobal => exact explained_between h hsettled
  | returned decision => exact h.mono []

theorem Explained.step {s next : Evaluation} {event : Event} {out : List PolicyEngine}
    (h : Explained source destination states s)
    (hsettled : Settled source destination s event)
    (hstep : step source destination s event = some (next, out)) :
    Explained source destination (states ++ out) next := by
  cases event with
  | update update =>
      have hupdate : s.update update = (next, out) := Option.some.inj hstep
      have hkept := h.update hsettled
      rw [hupdate] at hkept
      exact hkept
  | scan =>
      obtain ⟨after, hscan, heq⟩ := Option.map_eq_some_iff.mp hstep
      obtain ⟨rfl, rfl⟩ := Prod.mk.inj heq
      exact (h.scan hscan).mono []

end Invariant

/--
In a run that is settled at every step, the decision of the call is what an
uninterrupted evaluation gives in one of the states the call lived through.
-/
theorem returned_eq_evaluate {source destination : SpiffeId} {engine : PolicyEngine}
    {events : List Event} {last : Evaluation} {seen : List PolicyEngine}
    {decision : Decision}
    (hexec : Step.exec (step source destination) (start engine) events = some (last, seen))
    (hsettled : Step.Always (step source destination) (Settled source destination)
      (start engine) events)
    (hreturned : last.progress = .returned decision) :
    ∃ state ∈ engine :: seen, state.evaluate source destination = decision := by
  have hstart : Explained source destination [engine] (start engine) :=
    List.mem_singleton_self engine
  have hexplained : Explained source destination (engine :: seen) last :=
    Step.invariant_of_always
      (I := fun seen => Explained source destination (engine :: seen))
      (fun h hC hstep => h.step hC hstep) hstart hsettled hexec
  rw [Explained, hreturned] at hexplained
  exact hexplained

section Example

private def caller : SpiffeId :=
  ⟨"trust.local".toList, "default".toList, "evil".toList⟩

private def callee : SpiffeId :=
  ⟨"trust.local".toList, "default".toList, "api".toList⟩

private def blocked : PolicyRule :=
  ⟨.any, .any, .deny "blocklisted source".toList, []⟩

private def addBlocked : Event :=
  .update (.addNamespaceRule "default".toList blocked)

private def allowAll : Event :=
  .update (.setGlobalPolicies [⟨.any, .any, .allow, []⟩])

theorem addBlocked_returned :
    ∃ state ∈ [new, new.addNamespaceRule "default".toList blocked],
      state.evaluate caller callee = .deny "no matching policy".toList := by
  have hexec : Step.exec (step caller callee) (start new) [.scan, addBlocked, .scan] =
      some (⟨new.addNamespaceRule "default".toList blocked,
        .returned (.deny "no matching policy".toList)⟩,
        [new.addNamespaceRule "default".toList blocked]) := rfl
  exact returned_eq_evaluate hexec ⟨trivial, trivial, trivial, trivial⟩ rfl

/--
The deny rule stands before the allow rule comes, so every state denies; the call
has passed the namespace rules before the one and reads the global rules after the
other.
-/
theorem addBlocked_allowAll_returned :
    ∃ last seen,
      Step.exec (step caller callee) (start new) [.scan, addBlocked, allowAll, .scan] =
        some (last, seen) ∧
      last.progress = .returned .allow ∧
      ¬ ∃ state ∈ new :: seen, state.evaluate caller callee = .allow := by
  refine ⟨_, _, rfl, rfl, ?_⟩
  rintro ⟨state, hmem, hallow⟩
  simp only [List.mem_append, List.mem_cons, List.not_mem_nil, or_false, false_or] at hmem
  rcases hmem with rfl | rfl | rfl <;> exact absurd hallow (by decide)

end Example

end Evaluation

end PolicyEngine

end Interlink
