import Mathlib.Logic.Function.Basic
import Interlink.Common.Identity

/-!
# The policy engine

Rules are kept in two stores: one list for each destination namespace and one
global list.  `evaluate` scans the list of the destination's namespace, then
the global list, and falls back to the default decision; within each scan the
first rule that matches decides.  The two scans are separate definitions
because other tasks may update the stores between them.
-/

namespace Interlink

open Interlink.Foundation

inductive Decision where
  | allow
  | deny (reason : Str)
  deriving DecidableEq, Repr

structure PolicyRule where
  source : CompiledPattern
  destination : CompiledPattern
  decision : Decision
  description : Str
  deriving DecidableEq

structure PolicyEngine where
  namespacePolicies : Str → Option (List PolicyRule)
  globalPolicies : List PolicyRule
  defaultDecision : Decision

namespace PolicyRule

def applies (rule : PolicyRule) (source destination : SpiffeId) : Bool :=
  source.matchesCompiled rule.source && destination.matchesCompiled rule.destination

def scan (source destination : SpiffeId) : List PolicyRule → Option Decision
  | [] => none
  | rule :: rules =>
      if rule.applies source destination then some rule.decision
      else scan source destination rules

end PolicyRule

namespace PolicyEngine

def new : PolicyEngine where
  namespacePolicies := fun _ => none
  globalPolicies := []
  defaultDecision := .deny "no matching policy".toList

def scanNamespace (engine : PolicyEngine) (source destination : SpiffeId) :
    Option Decision :=
  (engine.namespacePolicies destination.namespace).bind
    (PolicyRule.scan source destination)

def scanGlobal (engine : PolicyEngine) (source destination : SpiffeId) :
    Decision :=
  (PolicyRule.scan source destination engine.globalPolicies).getD
    engine.defaultDecision

def evaluate (engine : PolicyEngine) (source destination : SpiffeId) : Decision :=
  (engine.scanNamespace source destination).getD
    (engine.scanGlobal source destination)

/-- The entry of a namespace is created empty when it is missing, then extended. -/
def addNamespaceRule (engine : PolicyEngine) (ns : Str) (rule : PolicyRule) :
    PolicyEngine :=
  { engine with
    namespacePolicies := Function.update engine.namespacePolicies ns
      (some ((engine.namespacePolicies ns).getD [] ++ [rule])) }

def setGlobalPolicies (engine : PolicyEngine) (rules : List PolicyRule) :
    PolicyEngine :=
  { engine with globalPolicies := rules }

def setDefaultDecision (engine : PolicyEngine) (decision : Decision) :
    PolicyEngine :=
  { engine with defaultDecision := decision }

inductive Call where
  | addNamespaceRule (ns : Str) (rule : PolicyRule)
  | setGlobalPolicies (rules : List PolicyRule)
  | setDefaultDecision (decision : Decision)

def apply (engine : PolicyEngine) : Call → PolicyEngine
  | .addNamespaceRule ns rule => engine.addNamespaceRule ns rule
  | .setGlobalPolicies rules => engine.setGlobalPolicies rules
  | .setDefaultDecision decision => engine.setDefaultDecision decision

def Call.rules : Call → List PolicyRule
  | .addNamespaceRule _ rule => [rule]
  | .setGlobalPolicies rules => rules
  | .setDefaultDecision _ => []

/-! ## What a history of calls leaves in the stores -/

def addedUnder (ns : Str) (calls : List Call) : List PolicyRule :=
  calls.filterMap fun
    | .addNamespaceRule key rule => if key = ns then some rule else none
    | _ => none

def lastGlobal (calls : List Call) : List PolicyRule :=
  ((calls.filterMap fun
    | .setGlobalPolicies rules => some rules
    | _ => none).getLast?).getD []

def lastDefault (calls : List Call) : Decision :=
  ((calls.filterMap fun
    | .setDefaultDecision decision => some decision
    | _ => none).getLast?).getD (.deny "no matching policy".toList)

/-- The rules an evaluation towards a namespace has to consider, in order. -/
def considered (ns : Str) (calls : List Call) : List PolicyRule :=
  addedUnder ns calls ++ lastGlobal calls

private theorem replay_stores (calls : List Call) :
    (∀ ns, ((calls.foldl apply new).namespacePolicies ns).getD [] =
      addedUnder ns calls) ∧
    (calls.foldl apply new).globalPolicies = lastGlobal calls ∧
    (calls.foldl apply new).defaultDecision = lastDefault calls := by
  induction calls using List.reverseRecOn with
  | nil => exact ⟨fun _ => rfl, rfl, rfl⟩
  | append_singleton calls call ih =>
      obtain ⟨hns, hglobal, hdefault⟩ := ih
      simp only [List.foldl_append, List.foldl_cons, List.foldl_nil]
      cases call with
      | addNamespaceRule key rule =>
          refine ⟨?_, ?_, ?_⟩
          · intro ns
            by_cases hkey : key = ns
            · subst hkey
              simp [apply, addNamespaceRule, addedUnder, hns]
            · have hne : ns ≠ key := fun h => hkey h.symm
              simpa [apply, addNamespaceRule, addedUnder, hkey, hne] using hns ns
          · simpa [apply, addNamespaceRule, lastGlobal] using hglobal
          · simpa [apply, addNamespaceRule, lastDefault] using hdefault
      | setGlobalPolicies rules =>
          refine ⟨?_, ?_, ?_⟩
          · intro ns
            simpa [apply, setGlobalPolicies, addedUnder] using hns ns
          · simp [apply, setGlobalPolicies, lastGlobal]
          · simpa [apply, setGlobalPolicies, lastDefault] using hdefault
      | setDefaultDecision decision =>
          refine ⟨?_, ?_, ?_⟩
          · intro ns
            simpa [apply, setDefaultDecision, addedUnder] using hns ns
          · simpa [apply, setDefaultDecision, lastGlobal] using hglobal
          · simp [apply, setDefaultDecision, lastDefault]

end PolicyEngine

/-! ## First match -/

namespace PolicyRule

def Matches (rule : PolicyRule) (source destination : SpiffeId) : Prop :=
  source.Matches rule.source ∧ destination.Matches rule.destination

def Built (rule : PolicyRule) : Prop :=
  rule.source.Built ∧ rule.destination.Built

def FirstMatch (source destination : SpiffeId) (rules : List PolicyRule)
    (rule : PolicyRule) : Prop :=
  ∃ before after, rules = before ++ rule :: after ∧
    rule.Matches source destination ∧
    ∀ earlier ∈ before, ¬ earlier.Matches source destination

theorem applies_iff {rule : PolicyRule} (built : rule.Built)
    (source destination : SpiffeId) :
    rule.applies source destination = true ↔ rule.Matches source destination := by
  rw [applies, Bool.and_eq_true, source.matchesCompiled_iff built.1,
    destination.matchesCompiled_iff built.2, Matches]

theorem scan_append (source destination : SpiffeId)
    (first second : List PolicyRule) :
    scan source destination (first ++ second) =
      (scan source destination first).or (scan source destination second) := by
  induction first with
  | nil => simp [scan]
  | cons rule first ih =>
      by_cases happlies : rule.applies source destination <;>
        simp [scan, happlies, ih]

theorem scan_eq_some {rules : List PolicyRule} (built : ∀ rule ∈ rules, rule.Built)
    {source destination : SpiffeId} {decision : Decision}
    (h : scan source destination rules = some decision) :
    ∃ rule, FirstMatch source destination rules rule ∧ rule.decision = decision := by
  induction rules with
  | nil => contradiction
  | cons rule rules ih =>
      have hiff := applies_iff (built rule (by simp)) source destination
      simp only [scan] at h
      split at h
      · rename_i happlies
        exact ⟨rule, ⟨[], rules, rfl, hiff.mp happlies, by simp⟩,
          Option.some.inj h⟩
      · rename_i happlies
        obtain ⟨found, ⟨before, after, rfl, hmatch, hbefore⟩, hdecision⟩ :=
          ih (fun r hr => built r (List.mem_cons_of_mem rule hr)) h
        refine ⟨found, ⟨rule :: before, after, rfl, hmatch, ?_⟩, hdecision⟩
        intro earlier hearlier
        rcases List.mem_cons.mp hearlier with rfl | hearlier
        · exact fun hm => happlies (hiff.mpr hm)
        · exact hbefore earlier hearlier

theorem scan_eq_none {rules : List PolicyRule} (built : ∀ rule ∈ rules, rule.Built)
    {source destination : SpiffeId} (h : scan source destination rules = none) :
    ∀ rule ∈ rules, ¬ rule.Matches source destination := by
  induction rules with
  | nil => simp
  | cons rule rules ih =>
      have hiff := applies_iff (built rule (by simp)) source destination
      simp only [scan] at h
      split at h
      · contradiction
      · rename_i happlies
        intro r hr
        rcases List.mem_cons.mp hr with rfl | hr
        · exact fun hm => happlies (hiff.mpr hm)
        · exact ih (fun r hr => built r (List.mem_cons_of_mem rule hr)) h r hr

end PolicyRule

namespace PolicyEngine

private theorem evaluate_replay (calls : List Call) (source destination : SpiffeId) :
    (calls.foldl apply new).evaluate source destination =
      (PolicyRule.scan source destination
        (considered destination.namespace calls)).getD (lastDefault calls) := by
  obtain ⟨hns, hglobal, hdefault⟩ := replay_stores calls
  have hscan : (calls.foldl apply new).scanNamespace source destination =
      PolicyRule.scan source destination
        (addedUnder destination.namespace calls) := by
    rw [← hns]
    unfold scanNamespace
    cases (calls.foldl apply new).namespacePolicies destination.namespace <;> rfl
  rw [evaluate, scanGlobal, hscan, hglobal, hdefault, considered,
    PolicyRule.scan_append]
  cases PolicyRule.scan source destination
    (addedUnder destination.namespace calls) <;> rfl

private theorem mem_considered {ns : Str} {calls : List Call} {rule : PolicyRule}
    (h : rule ∈ considered ns calls) : ∃ call ∈ calls, rule ∈ call.rules := by
  rcases List.mem_append.mp h with h | h
  · obtain ⟨call, hcall, heq⟩ := List.mem_filterMap.mp h
    cases call with
    | addNamespaceRule key added =>
        have hrule : added = rule := by
          simp only [Option.ite_none_right_eq_some, Option.some.injEq] at heq
          exact heq.2
        exact ⟨_, hcall, by simp [Call.rules, hrule]⟩
    | setGlobalPolicies rules => contradiction
    | setDefaultDecision decision => contradiction
  · unfold lastGlobal at h
    cases hlast : (calls.filterMap fun
        | .setGlobalPolicies rules => some rules
        | _ => none).getLast? with
    | none => simp [hlast] at h
    | some rules =>
        simp only [hlast, Option.getD_some] at h
        obtain ⟨call, hcall, heq⟩ :=
          List.mem_filterMap.mp (List.mem_of_getLast? hlast)
        cases call with
        | setGlobalPolicies set =>
            exact ⟨_, hcall, by simpa [Call.rules, Option.some.inj heq] using h⟩
        | addNamespaceRule key added => contradiction
        | setDefaultDecision decision => contradiction

/--
After any history of calls an evaluation returns the decision of the first
matching rule among those added under the destination's namespace followed by
the last global list, or the last default decision when none matches.
-/
theorem evaluate_eq_first_match (calls : List Call)
    (built : ∀ call ∈ calls, ∀ rule ∈ call.rules, rule.Built)
    (source destination : SpiffeId) :
    let decision := (calls.foldl apply new).evaluate source destination
    let rules := considered destination.namespace calls
    ((∃ rule, PolicyRule.FirstMatch source destination rules rule ∧
        decision = rule.decision) ∨
      ((∀ rule ∈ rules, ¬ rule.Matches source destination) ∧
        decision = lastDefault calls)) ∧
    (decision = .allow → lastDefault calls ≠ .allow →
      ∃ rule, PolicyRule.FirstMatch source destination rules rule ∧
        rule.decision = .allow) := by
  intro decision rules
  have hbuilt : ∀ rule ∈ rules, rule.Built := by
    intro rule hrule
    obtain ⟨call, hcall, hmem⟩ := mem_considered hrule
    exact built call hcall rule hmem
  have hdecision : decision = (PolicyRule.scan source destination rules).getD
      (lastDefault calls) := evaluate_replay calls source destination
  cases hscan : PolicyRule.scan source destination rules with
  | none =>
      have hnone := PolicyRule.scan_eq_none hbuilt hscan
      rw [hscan, Option.getD_none] at hdecision
      refine ⟨Or.inr ⟨hnone, hdecision⟩, ?_⟩
      intro hallow hdeny
      exact absurd (hdecision.symm.trans hallow) hdeny
  | some found =>
      obtain ⟨rule, hfirst, hrule⟩ := PolicyRule.scan_eq_some hbuilt hscan
      rw [hscan, Option.getD_some] at hdecision
      refine ⟨Or.inl ⟨rule, hfirst, hdecision.trans hrule.symm⟩, ?_⟩
      intro hallow _
      exact ⟨rule, hfirst, hrule.trans (hdecision.symm.trans hallow)⟩

section ExplicitDeny

private def inDefault (serviceAccount : Str) : CompiledPattern :=
  ⟨"trust.local".toList, SegmentGlob.new "default".toList,
    SegmentGlob.new serviceAccount⟩

private def explicitDeny : List Call :=
  [.addNamespaceRule "default".toList
      ⟨inDefault "evil".toList, inDefault "*".toList,
        .deny "blocked source".toList, "deny evil".toList⟩,
    .addNamespaceRule "default".toList
      ⟨inDefault "*".toList, inDefault "*".toList, .allow, []⟩,
    .setGlobalPolicies [⟨.any, .any, .allow, []⟩]]

private theorem explicitDeny_built :
    ∀ call ∈ explicitDeny, ∀ rule ∈ call.rules, rule.Built := by
  have hevil : (inDefault "evil".toList).Built :=
    @CompiledPattern.Built.fromUri "spiffe://Trust.Local/ns/default/sa/evil".toList
      _ (by decide)
  have hstar : (inDefault "*".toList).Built :=
    @CompiledPattern.Built.fromUri "spiffe://trust.local/ns/default/sa/*".toList
      _ (by decide)
  intro call hcall rule hrule
  simp only [explicitDeny, List.mem_cons, List.not_mem_nil, or_false] at hcall
  rcases hcall with rfl | rfl | rfl <;>
    simp only [Call.rules, List.mem_singleton] at hrule <;> subst hrule
  · exact ⟨hevil, hstar⟩
  · exact ⟨hstar, hstar⟩
  · exact ⟨.any, .any⟩

theorem explicitDeny_first_match :
    ∃ rule, PolicyRule.FirstMatch
        ⟨"trust.local".toList, "default".toList, "evil".toList⟩
        ⟨"trust.local".toList, "default".toList, "api".toList⟩
        (considered "default".toList explicitDeny) rule ∧
      rule.decision = .deny "blocked source".toList := by
  have hvalue : (explicitDeny.foldl apply new).evaluate
      ⟨"trust.local".toList, "default".toList, "evil".toList⟩
      ⟨"trust.local".toList, "default".toList, "api".toList⟩ =
        .deny "blocked source".toList := by
    decide
  have hdefault : lastDefault explicitDeny ≠ .deny "blocked source".toList := by
    decide
  rcases (evaluate_eq_first_match explicitDeny explicitDeny_built _ _).1 with
    ⟨rule, hfirst, hdecision⟩ | ⟨-, hdecision⟩
  · exact ⟨rule, hfirst, hdecision.symm.trans hvalue⟩
  · exact absurd (hdecision.symm.trans hvalue) hdefault

end ExplicitDeny

end PolicyEngine

end Interlink
