import Interlink.Common.Identity

/-!
# The grammar of SPIFFE URIs

`SpiffeId::from_uri` and `CompiledPattern::from_uri` share one parser.  The grammar that
it accepts is stated on characters; a text can be cut by it in one way only.
-/

namespace Interlink

open Interlink.Foundation

namespace SpiffeUri

/--
The scheme and the three segments of a URI.  The characters that a trust domain must not
have are the slash, the ASCII controls, the ASCII whitespace and seven delimiters.
-/
structure Grammar (uri s td ns sa : Str) : Prop where
  text : uri = s ++ td ++ "/ns/".toList ++ ns ++ "/sa/".toList ++ sa
  scheme : toAsciiLowercase s = "spiffe://".toList
  trustDomain : td ≠ [] ∧ ∀ c ∈ td, c ≠ '/' ∧ ¬ (c.toNat < 32 ∨ c.toNat = 127) ∧
    c ∉ " \t\n\x0c\r".toList ∧ c ∉ "@:[]\\?#".toList
  «namespace» : ns ≠ [] ∧ ∀ c ∈ ns, c ∉ "/?#".toList
  serviceAccount : sa ≠ [] ∧ ∀ c ∈ sa, c ∉ "/?#".toList

/-! ## Characters -/

private theorem onChar_forbidden_ascii :
    ∀ n < 128, onChar isForbiddenAuthorityByte (Char.ofNat n) = false ↔
      ¬ (n < 32 ∨ n = 127) ∧ Char.ofNat n ∉ " \t\n\x0c\r".toList ∧
        Char.ofNat n ∉ "@:[]\\?#".toList := by
  decide

theorem onChar_forbiddenAuthorityByte (c : Char) :
    onChar isForbiddenAuthorityByte c = false ↔
      ¬ (c.toNat < 32 ∨ c.toNat = 127) ∧ c ∉ " \t\n\x0c\r".toList ∧
        c ∉ "@:[]\\?#".toList := by
  by_cases h : c.toNat < 128
  · have hascii := onChar_forbidden_ascii c.toNat h
    rwa [Char.ofNat_toNat] at hascii
  · have hlow : (" \t\n\x0c\r".toList ++ "@:[]\\?#".toList).all (·.toNat < 128) = true := by decide
    have hc : c ∉ " \t\n\x0c\r".toList ++ "@:[]\\?#".toList := fun hmem =>
      h (of_decide_eq_true (List.all_eq_true.mp hlow c hmem))
    rw [List.mem_append, not_or] at hc
    exact iff_of_true (by simp [onChar, h]) ⟨by omega, hc⟩

theorem isTrustDomain_iff {td : Str} :
    IsTrustDomain td ↔ td ≠ [] ∧ ∀ c ∈ td, c ≠ '/' ∧ ¬ (c.toNat < 32 ∨ c.toNat = 127) ∧
      c ∉ " \t\n\x0c\r".toList ∧ c ∉ "@:[]\\?#".toList := by
  simp only [IsTrustDomain, List.any_eq_false, Bool.not_eq_true, onChar_forbiddenAuthorityByte,
    forall_and, List.forall_mem_ne', ne_eq]

theorem isSegment_iff_forall {s : Str} :
    IsSegment s ↔ s ≠ [] ∧ ∀ c ∈ s, c ∉ "/?#".toList := by
  have htext : "/?#".toList = ['/', '?', '#'] := rfl
  have hdelimiters (c : Char) : c ∉ "/?#".toList ↔ c ≠ '/' ∧ c ≠ '?' ∧ c ≠ '#' := by
    simp [htext]
  simp only [IsSegment, hdelimiters, forall_and, List.forall_mem_ne', ne_eq]

/-! ## Cuts -/

theorem exists_grammar_iff {uri td ns sa : Str} :
    (∃ s, Grammar uri s td ns sa) ↔ (⟨td, ns, sa⟩ : SpiffeUriParts).Spells uri := by
  constructor
  · rintro ⟨s, h⟩
    refine ⟨s, ?_, h.scheme, isTrustDomain_iff.mpr h.trustDomain,
      isSegment_iff_forall.mpr h.namespace, isSegment_iff_forall.mpr h.serviceAccount⟩
    rw [h.text]
    simp only [List.append_assoc]
  · rintro ⟨s, htext, hscheme, htd, hns, hsa⟩
    refine ⟨s, ?_, hscheme, isTrustDomain_iff.mp htd, isSegment_iff_forall.mp hns,
      isSegment_iff_forall.mp hsa⟩
    rw [htext]
    simp only [List.append_assoc]

theorem Grammar.unique {uri s td ns sa s' td' ns' sa' : Str} (h : Grammar uri s td ns sa)
    (h' : Grammar uri s' td' ns' sa') : s = s' ∧ td = td' ∧ ns = ns' ∧ sa = sa' := by
  have hparts : parseSpiffeUri uri [] = .ok ⟨td, ns, sa⟩ :=
    parseSpiffeUri_eq_ok.mpr (exists_grammar_iff.mp ⟨s, h⟩)
  have hparts' : parseSpiffeUri uri [] = .ok ⟨td', ns', sa'⟩ :=
    parseSpiffeUri_eq_ok.mpr (exists_grammar_iff.mp ⟨s', h'⟩)
  cases hparts.symm.trans hparts'
  refine ⟨?_, rfl, rfl, rfl⟩
  have htext := h.text.symm.trans h'.text
  simpa only [List.append_assoc, List.append_cancel_right_eq] using htext

theorem exists_spells_iff {uri : Str} {P : SpiffeUriParts → Prop} :
    (∃ parts, parts.Spells uri ∧ P parts) ↔
      ∃ s td ns sa, Grammar uri s td ns sa ∧ P ⟨td, ns, sa⟩ := by
  constructor
  · rintro ⟨⟨td, ns, sa⟩, hspells, hparts⟩
    obtain ⟨s, h⟩ := exists_grammar_iff.mpr hspells
    exact ⟨s, td, ns, sa, h, hparts⟩
  · rintro ⟨s, td, ns, sa, h, hparts⟩
    exact ⟨⟨td, ns, sa⟩, exists_grammar_iff.mp ⟨s, h⟩, hparts⟩

end SpiffeUri

open SpiffeUri in
/--
Both parsers accept the texts of the grammar and no others, and cut a text in the one way
in which the grammar does.
-/
theorem fromUri_accepts_grammar (uri : Str) :
    (∀ id, SpiffeId.fromUri uri = .ok id ↔ ∃ s td ns sa, Grammar uri s td ns sa ∧
      id = ⟨toAsciiLowercase td, ns, sa⟩) ∧
    (∀ pattern, CompiledPattern.fromUri uri = .ok pattern ↔ ∃ s td ns sa,
      Grammar uri s td ns sa ∧
        pattern = ⟨toAsciiLowercase td, SegmentGlob.new ns, SegmentGlob.new sa⟩) ∧
    ∀ s td ns sa s' td' ns' sa', Grammar uri s td ns sa → Grammar uri s' td' ns' sa' →
      s = s' ∧ td = td' ∧ ns = ns' ∧ sa = sa' := by
  refine ⟨fun id => ?_, fun pattern => ?_, fun s td ns sa s' td' ns' sa' h h' => h.unique h'⟩
  · rw [SpiffeId.fromUri_eq_ok]
    exact exists_spells_iff
  · rw [CompiledPattern.fromUri_eq_ok]
    exact exists_spells_iff

end Interlink
