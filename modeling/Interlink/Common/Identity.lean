import Interlink.Common.SegmentGlob
import Interlink.Common.SpiffeUri

/-!
# SPIFFE identities and compiled patterns

An identity is a trust domain, a namespace and a service account.  A compiled
pattern has a trust domain, empty for the pattern that matches any, and one
glob for each of the two path segments.
-/

namespace Interlink

open Interlink.Foundation

structure SpiffeId where
  trustDomain : Str
  «namespace» : Str
  serviceAccount : Str
  deriving DecidableEq, Repr

structure CompiledPattern where
  trustDomain : Str
  «namespace» : SegmentGlob
  serviceAccount : SegmentGlob
  deriving DecidableEq

namespace CompiledPattern

def fromUri (uri : Str) : Except InterlinkError CompiledPattern := do
  let parts ← parseSpiffeUri uri "pattern URI".toList
  .ok ⟨toAsciiLowercase parts.trustDomain, SegmentGlob.new parts.namespace,
    SegmentGlob.new parts.serviceAccount⟩

def any : CompiledPattern :=
  ⟨[], SegmentGlob.new "*".toList, SegmentGlob.new "*".toList⟩

inductive Built : CompiledPattern → Prop
  | fromUri {uri : Str} {pattern : CompiledPattern} :
      CompiledPattern.fromUri uri = .ok pattern → Built pattern
  | any : Built CompiledPattern.any

theorem fromUri_eq_ok {uri : Str} {pattern : CompiledPattern} :
    fromUri uri = .ok pattern ↔
      ∃ parts : SpiffeUriParts, parts.Spells uri ∧
        pattern = ⟨toAsciiLowercase parts.trustDomain,
          SegmentGlob.new parts.namespace,
          SegmentGlob.new parts.serviceAccount⟩ := by
  unfold fromUri
  cases hparse : parseSpiffeUri uri "pattern URI".toList with
  | error e =>
      constructor
      · intro h
        contradiction
      · rintro ⟨parts, hparts, -⟩
        rw [parseSpiffeUri_eq_ok.mpr hparts] at hparse
        contradiction
  | ok parts =>
      have hspells := parseSpiffeUri_eq_ok.mp hparse
      constructor
      · intro h
        exact ⟨parts, hspells, (Except.ok.inj h).symm⟩
      · rintro ⟨parts', hparts', rfl⟩
        rw [parseSpiffeUri_eq_ok.mpr hparts'] at hparse
        cases hparse
        rfl

/-- The empty trust domain is the wildcard of `any`: no URI compiles to it. -/
theorem Built.trustDomain_eq_nil {pattern : CompiledPattern}
    (built : Built pattern) :
    pattern.trustDomain = [] ↔ pattern = CompiledPattern.any := by
  constructor
  · intro hempty
    cases built with
    | fromUri h =>
        obtain ⟨parts, hspells, rfl⟩ := fromUri_eq_ok.mp h
        obtain ⟨s, -, -, htd, -⟩ := hspells
        exact absurd (by simpa [toAsciiLowercase] using hempty) htd.1
    | any => rfl
  · rintro rfl
    rfl

end CompiledPattern

namespace SpiffeId

def new (trustDomain ns serviceAccount : Str) : SpiffeId :=
  ⟨trustDomain, ns, serviceAccount⟩

def validateSegments (id : SpiffeId) : Except InterlinkError Unit :=
  if id.trustDomain = [] then
    .error (.identity "trust domain must not be empty".toList)
  else if id.namespace = [] then
    .error (.identity "namespace must not be empty".toList)
  else if id.serviceAccount = [] then
    .error (.identity "service account must not be empty".toList)
  else .ok ()

def tryNew (trustDomain ns serviceAccount : Str) :
    Except InterlinkError SpiffeId := do
  let id := new trustDomain ns serviceAccount
  id.validateSegments
  .ok id

def toUri (id : SpiffeId) : Str :=
  "spiffe://".toList ++ (id.trustDomain ++ ("/ns/".toList ++ (id.namespace ++
    ("/sa/".toList ++ id.serviceAccount))))

def fromUri (uri : Str) : Except InterlinkError SpiffeId := do
  let parts ← parseSpiffeUri uri "URI".toList
  tryNew (toAsciiLowercase parts.trustDomain) parts.namespace parts.serviceAccount

def matchesCompiled (id : SpiffeId) (pattern : CompiledPattern) : Bool :=
  (pattern.trustDomain == [] || id.trustDomain == pattern.trustDomain) &&
    pattern.namespace.matches id.namespace &&
    pattern.serviceAccount.matches id.serviceAccount

theorem fromUri_eq_ok {uri : Str} {id : SpiffeId} :
    fromUri uri = .ok id ↔
      ∃ parts : SpiffeUriParts, parts.Spells uri ∧
        id = ⟨toAsciiLowercase parts.trustDomain, parts.namespace,
          parts.serviceAccount⟩ := by
  have hvalid (parts : SpiffeUriParts) (hspells : parts.Spells uri) :
      tryNew (toAsciiLowercase parts.trustDomain) parts.namespace
        parts.serviceAccount = .ok ⟨toAsciiLowercase parts.trustDomain,
          parts.namespace, parts.serviceAccount⟩ := by
    obtain ⟨s, -, -, htd, hns, hsa⟩ := hspells
    have hlower : toAsciiLowercase parts.trustDomain ≠ [] := by
      simpa [toAsciiLowercase] using htd.1
    simp [tryNew, new, validateSegments, hlower, hns.1, hsa.1]
    rfl
  unfold fromUri
  cases hparse : parseSpiffeUri uri "URI".toList with
  | error e =>
      constructor
      · intro h
        contradiction
      · rintro ⟨parts, hparts, -⟩
        rw [parseSpiffeUri_eq_ok.mpr hparts] at hparse
        contradiction
  | ok parts =>
      have hspells := parseSpiffeUri_eq_ok.mp hparse
      constructor
      · intro h
        have htry : tryNew (toAsciiLowercase parts.trustDomain) parts.namespace
            parts.serviceAccount = .ok id := h
        rw [hvalid parts hspells] at htry
        exact ⟨parts, hspells, (Except.ok.inj htry).symm⟩
      · rintro ⟨parts', hparts', rfl⟩
        rw [parseSpiffeUri_eq_ok.mpr hparts'] at hparse
        cases hparse
        exact hvalid _ hparts'

/--
The declarative reading of a pattern: it is the wildcard or has the identity's
trust domain, and the segments are in the languages of its two globs.
-/
def Matches (id : SpiffeId) (pattern : CompiledPattern) : Prop :=
  (pattern = CompiledPattern.any ∨ pattern.trustDomain = id.trustDomain) ∧
    id.namespace ∈ Glob.language '*' pattern.namespace.pattern ∧
    id.serviceAccount ∈ Glob.language '*' pattern.serviceAccount.pattern

theorem matchesCompiled_iff (id : SpiffeId) {pattern : CompiledPattern}
    (built : pattern.Built) :
    id.matchesCompiled pattern = true ↔ id.Matches pattern := by
  rw [Matches, ← built.trustDomain_eq_nil]
  simp only [matchesCompiled, Bool.and_eq_true, Bool.or_eq_true, beq_iff_eq,
    SegmentGlob.matches_iff, and_assoc, eq_comm (a := id.trustDomain)]

end SpiffeId

end Interlink
