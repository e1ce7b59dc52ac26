import Interlink.Common.IdentityUri
import Interlink.Foundation.Fallible
import Interlink.Policy.Engine

/-!
# Rules made from identities

`patterns::allow` compiles two URIs to a rule.  The URI of an identity is a pattern
too: its trust domain stands for itself and its two segments are globs, in which a
star is a wildcard.
-/

namespace Interlink

open Interlink.Foundation

namespace Patterns

/-- `none` is a panic of one of the two unwraps. -/
def allow (source destination description : Str) : Option PolicyRule := do
  let source ← (CompiledPattern.fromUri source).toOption
  let destination ← (CompiledPattern.fromUri destination).toOption
  some ⟨source, destination, .allow, description⟩

/-- Both patterns are compiled from one text, into which the arguments are pasted. -/
def allowSameNamespace (trustDomain ns : Str) : Option PolicyRule := do
  let pattern := "spiffe://".toList ++ trustDomain ++ "/ns/".toList ++ ns ++ "/sa/*".toList
  let source ← (CompiledPattern.fromUri pattern).toOption
  let destination ← (CompiledPattern.fromUri pattern).toOption
  some ⟨source, destination, .allow, "Allow all traffic within namespace ".toList ++ ns⟩

def deny (source description : Str) : Option PolicyRule := do
  let source ← (CompiledPattern.fromUri source).toOption
  some ⟨source, .any, .deny "blocklisted source".toList, description⟩

end Patterns

namespace SpiffeId

variable {id other : SpiffeId}

def pattern (id : SpiffeId) : CompiledPattern :=
  ⟨id.trustDomain, .new id.namespace, .new id.serviceAccount⟩

/-- What `from_uri` returns: the segments can be told apart and the trust domain is in lowercase. -/
def Canonical (id : SpiffeId) : Prop :=
  id.Delimited ∧ toAsciiLowercase id.trustDomain = id.trustDomain

instance (id : SpiffeId) : Decidable id.Canonical :=
  inferInstanceAs (Decidable (_ ∧ _))

theorem canonical_of_fromUri {uri : Str} (h : fromUri uri = .ok id) : id.Canonical := by
  obtain ⟨hid, hlower, -⟩ := delimited_of_fromUri h
  exact ⟨hid, congrArg SpiffeId.trustDomain hlower⟩

theorem fromUri_toUri_iff : fromUri id.toUri = .ok id ↔ id.Canonical := by
  rw [fromUri_toUri_eq_ok]
  constructor
  · rintro ⟨hid, hlower⟩
    exact ⟨hid, (congrArg SpiffeId.trustDomain hlower).symm⟩
  · rintro ⟨hid, hlower⟩
    refine ⟨hid, ?_⟩
    rw [lowercaseTrustDomain, hlower]

theorem Canonical.fromUri_toUri (h : id.Canonical) :
    CompiledPattern.fromUri id.toUri = .ok id.pattern := by
  refine CompiledPattern.fromUri_eq_ok.mpr ⟨_, spells_toUri.mpr ⟨h.1, rfl⟩, ?_⟩
  rw [pattern, h.2]

theorem Canonical.matchesCompiled_iff (h : id.Canonical) :
    other.matchesCompiled id.pattern = true ↔
      other.trustDomain = id.trustDomain ∧
        other.namespace ∈ Glob.language '*' id.namespace ∧
        other.serviceAccount ∈ Glob.language '*' id.serviceAccount := by
  have hbuilt : id.pattern.Built := .fromUri h.fromUri_toUri
  have hany : id.pattern ≠ CompiledPattern.any := fun heq =>
    h.1.1.1 (hbuilt.trustDomain_eq_nil.mpr heq)
  rw [SpiffeId.matchesCompiled_iff other hbuilt, Matches, or_iff_right hany]
  simp only [pattern, SegmentGlob.new, eq_comm]

theorem Canonical.matchesCompiled_self (h : id.Canonical) :
    id.matchesCompiled id.pattern = true :=
  h.matchesCompiled_iff.mpr
    ⟨rfl, Glob.self_mem_language '*' _, Glob.self_mem_language '*' _⟩

theorem Canonical.allow (h : id.Canonical) (description : Str) :
    Patterns.allow id.toUri id.toUri description =
      some ⟨id.pattern, id.pattern, .allow, description⟩ := by
  simp [Patterns.allow, h.fromUri_toUri, Except.toOption]

theorem Canonical.matches_only_self_iff (h : id.Canonical) :
    (∀ other : SpiffeId, other.matchesCompiled id.pattern = true → other = id) ↔
      '*' ∉ id.namespace ∧ '*' ∉ id.serviceAccount := by
  have hother : 'x' ≠ '*' := by decide
  rw [← Glob.language_subset_self_iff hother, ← Glob.language_subset_self_iff hother]
  constructor
  · intro honly
    constructor
    · intro ns hns
      exact congrArg SpiffeId.namespace (honly { id with «namespace» := ns }
        (h.matchesCompiled_iff.mpr ⟨rfl, hns, Glob.self_mem_language '*' _⟩))
    · intro account haccount
      exact congrArg SpiffeId.serviceAccount (honly { id with serviceAccount := account }
        (h.matchesCompiled_iff.mpr ⟨rfl, Glob.self_mem_language '*' _, haccount⟩))
  · rintro ⟨hns, haccount⟩ other hmatches
    obtain ⟨hdomain, hns', haccount'⟩ := h.matchesCompiled_iff.mp hmatches
    obtain ⟨trustDomain, ns, account⟩ := other
    obtain rfl : trustDomain = id.trustDomain := hdomain
    obtain rfl : ns = id.namespace := hns ns hns'
    obtain rfl : account = id.serviceAccount := haccount account haccount'
    rfl

end SpiffeId

/-! ## Rules for a namespace -/

namespace Patterns

variable {trustDomain ns : Str} {rule : PolicyRule}

theorem of_allowSameNamespace (h : allowSameNamespace trustDomain ns = some rule) :
    ∃ id : SpiffeId, id.Canonical ∧ id.trustDomain = toAsciiLowercase trustDomain ∧
      id.namespace = ns ∧ rule.source = id.pattern ∧ rule.destination = id.pattern := by
  have htext : "spiffe://".toList ++ trustDomain ++ "/ns/".toList ++ ns ++ "/sa/*".toList =
      (⟨trustDomain, ns, "*".toList⟩ : SpiffeId).toUri := by
    have hlast : "/sa/*".toList = "/sa/".toList ++ "*".toList := by decide
    calc "spiffe://".toList ++ trustDomain ++ "/ns/".toList ++ ns ++ "/sa/*".toList
        = "spiffe://".toList ++ (trustDomain ++ ("/ns/".toList ++ (ns ++
            ("/sa/".toList ++ "*".toList)))) := by
          rw [hlast, List.append_assoc, List.append_assoc, List.append_assoc]
      _ = (⟨trustDomain, ns, "*".toList⟩ : SpiffeId).toUri := rfl
  simp only [allowSameNamespace, htext, Option.bind_eq_bind, Option.bind_eq_some_iff] at h
  obtain ⟨source, hsource, destination, hdestination, hrule⟩ := h
  cases hsource.symm.trans hdestination
  cases hrule
  obtain ⟨parts, hspells, rfl⟩ := CompiledPattern.fromUri_eq_ok.mp (toOption_eq_some.mp hsource)
  obtain ⟨⟨hdomain, hsegments⟩, rfl⟩ := SpiffeId.spells_toUri.mp hspells
  exact ⟨⟨toAsciiLowercase trustDomain, ns, "*".toList⟩,
    ⟨⟨hdomain.toAsciiLowercase, hsegments⟩, toAsciiLowercase_idem trustDomain⟩,
    rfl, rfl, rfl, rfl⟩

/--
A rule for a namespace stays within one namespace just when the name that it was made for
has no star.
-/
theorem allowSameNamespace_within_iff (h : allowSameNamespace trustDomain ns = some rule) :
    (∀ source destination : SpiffeId, source.matchesCompiled rule.source = true →
      destination.matchesCompiled rule.destination = true →
        source.namespace = destination.namespace ∧
          source.trustDomain = toAsciiLowercase trustDomain ∧
          destination.trustDomain = toAsciiLowercase trustDomain) ↔ '*' ∉ ns := by
  obtain ⟨id, hid, hdomain, rfl, hsource, hdestination⟩ := of_allowSameNamespace h
  rw [hsource, hdestination, ← hdomain]
  have hother : 'x' ≠ '*' := by decide
  rw [← Glob.language_subset_self_iff hother]
  constructor
  · intro hwithin found hfound
    have hmatches : ({ id with «namespace» := found } : SpiffeId).matchesCompiled id.pattern =
        true :=
      hid.matchesCompiled_iff.mpr ⟨rfl, hfound, Glob.self_mem_language '*' _⟩
    exact (hwithin _ id hmatches hid.matchesCompiled_self).1
  · intro honly source destination hsource hdestination
    obtain ⟨hleft, hns, -⟩ := hid.matchesCompiled_iff.mp hsource
    obtain ⟨hright, hns', -⟩ := hid.matchesCompiled_iff.mp hdestination
    exact ⟨(honly _ hns).trans (honly _ hns').symm, hleft, hright⟩

section Example

private def billing : Str := "billing".toList

theorem billing_within :
    ∃ rule, allowSameNamespace "Mesh.Local".toList billing = some rule ∧
      ∀ source destination : SpiffeId, source.matchesCompiled rule.source = true →
        destination.matchesCompiled rule.destination = true →
          source.namespace = destination.namespace ∧
            source.trustDomain = toAsciiLowercase "Mesh.Local".toList ∧
            destination.trustDomain = toAsciiLowercase "Mesh.Local".toList := by
  have hsome : (allowSameNamespace "Mesh.Local".toList billing).isSome = true := by decide
  obtain ⟨rule, hrule⟩ := Option.isSome_iff_exists.mp hsome
  exact ⟨rule, hrule, (allowSameNamespace_within_iff hrule).mpr (by decide)⟩

/-- The rule for the name `team-*` lets one team reach another. -/
theorem teams_mixed :
    (allowSameNamespace "mesh.local".toList "team-*".toList).map (fun rule =>
      ((⟨"mesh.local".toList, "team-a".toList, "web".toList⟩ : SpiffeId).matchesCompiled
          rule.source,
        (⟨"mesh.local".toList, "team-b".toList, "db".toList⟩ : SpiffeId).matchesCompiled
          rule.destination)) = some (true, true) := by
  decide

end Example

end Patterns

end Interlink
