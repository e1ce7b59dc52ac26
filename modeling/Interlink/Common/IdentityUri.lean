import Interlink.Common.Identity

/-!
# Identities and their URIs

`to_uri` writes the three segments without escaping and `from_uri` lowercases the
trust domain.  A URI that is accepted has exactly four slashes behind its scheme,
so an accepted URI was written from segments that have none.
-/

namespace Interlink

open Interlink.Foundation

/-! ## Lowercase -/

section Lowercase

open SpiffeUri

private theorem onChar_toLower_ascii :
    ∀ n < 128, onChar isForbiddenAuthorityByte (Char.ofNat n).toLower =
        onChar isForbiddenAuthorityByte (Char.ofNat n) ∧
      onChar (· == 47) (Char.ofNat n).toLower = onChar (· == 47) (Char.ofNat n) ∧
      (Char.ofNat n).toLower.toLower = (Char.ofNat n).toLower := by
  decide

private theorem toLower_of_not_ascii {c : Char} (h : ¬ c.toNat < 128) : c.toLower = c := by
  unfold Char.toLower
  split
  · rename_i hupper
    have hz : c.val ≤ 'Z'.val := hupper.2
    exact absurd (Nat.lt_of_le_of_lt (UInt32.le_iff_toNat_le.mp hz) (by decide)) h
  · rfl

private theorem toLower_spec (c : Char) :
    onChar isForbiddenAuthorityByte c.toLower = onChar isForbiddenAuthorityByte c ∧
      onChar (· == 47) c.toLower = onChar (· == 47) c ∧ c.toLower.toLower = c.toLower := by
  by_cases h : c.toNat < 128
  · have hascii := onChar_toLower_ascii c.toNat h
    rwa [Char.ofNat_toNat] at hascii
  · rw [toLower_of_not_ascii h, toLower_of_not_ascii h]
    exact ⟨rfl, rfl, rfl⟩

@[simp]
theorem toAsciiLowercase_idem (s : Str) :
    toAsciiLowercase (toAsciiLowercase s) = toAsciiLowercase s := by
  rw [toAsciiLowercase, toAsciiLowercase, List.map_map]
  exact List.map_congr_left fun c _ => (toLower_spec c).2.2

theorem slash_mem_toAsciiLowercase {s : Str} : '/' ∈ toAsciiLowercase s ↔ '/' ∈ s := by
  have hslash (c : Char) : c.toLower = '/' ↔ c = '/' := by
    rw [← onChar_slash, (toLower_spec c).2.1, onChar_slash]
  simp only [toAsciiLowercase, List.mem_map, hslash, exists_eq_right]

theorem SpiffeUri.IsTrustDomain.toAsciiLowercase {s : Str} (h : IsTrustDomain s) :
    IsTrustDomain (toAsciiLowercase s) := by
  obtain ⟨hne, hslash, hclean⟩ := h
  refine ⟨?_, ?_, ?_⟩
  · simpa [Interlink.toAsciiLowercase] using hne
  · rwa [slash_mem_toAsciiLowercase]
  · rw [Interlink.toAsciiLowercase, List.any_map]
    have hsame : onChar isForbiddenAuthorityByte ∘ Char.toLower =
        onChar isForbiddenAuthorityByte := funext fun c => (toLower_spec c).1
    rw [hsame, hclean]

end Lowercase

namespace SpiffeId

open SpiffeUri

/-! ## Reading back what was written -/

/-- The segments are such that the parser cuts the URI where it was put together. -/
def Delimited (id : SpiffeId) : Prop :=
  IsTrustDomain id.trustDomain ∧ IsSegment id.namespace ∧ IsSegment id.serviceAccount

instance (id : SpiffeId) : Decidable id.Delimited :=
  inferInstanceAs (Decidable (_ ∧ _))

def lowercaseTrustDomain (id : SpiffeId) : SpiffeId :=
  { id with trustDomain := toAsciiLowercase id.trustDomain }

private def tail (trustDomain ns serviceAccount : Str) : Str :=
  trustDomain ++ ("/ns/".toList ++ (ns ++ ("/sa/".toList ++ serviceAccount)))

private theorem count_slash_tail (trustDomain ns serviceAccount : Str) :
    (tail trustDomain ns serviceAccount).count '/' =
      trustDomain.count '/' + ns.count '/' + serviceAccount.count '/' + 4 := by
  have hns : "/ns/".toList.count '/' = 2 := by decide
  have hsa : "/sa/".toList.count '/' = 2 := by decide
  simp only [tail, List.count_append, hns, hsa]
  omega

/--
Segments without a slash are determined by the text; a text written from them has
only the four slashes of the literals, so whatever else it was written from has no
slash either.
-/
private theorem tail_injective {td ns sa td' ns' sa' : Str}
    (h : tail td ns sa = tail td' ns' sa') (htd' : '/' ∉ td') (hns' : '/' ∉ ns')
    (hsa' : '/' ∉ sa') : td = td' ∧ ns = ns' ∧ sa = sa' := by
  have hcount := congrArg (List.count '/') h
  rw [count_slash_tail, count_slash_tail, List.count_eq_zero.mpr htd',
    List.count_eq_zero.mpr hns', List.count_eq_zero.mpr hsa'] at hcount
  have htd : '/' ∉ td := List.count_eq_zero.mp (by omega)
  have hns : '/' ∉ ns := List.count_eq_zero.mp (by omega)
  obtain ⟨rfl, hpath⟩ := append_cons_inj_of_not_mem htd htd' h
  have hpath : ns ++ ("/sa/".toList ++ sa) = ns' ++ ("/sa/".toList ++ sa') :=
    (List.append_right_inj "ns/".toList).mp hpath
  obtain ⟨rfl, hlast⟩ := append_cons_inj_of_not_mem hns hns' hpath
  exact ⟨rfl, rfl, (List.append_right_inj "sa/".toList).mp hlast⟩

private theorem eq_scheme {s rest rest' : Str} (hs : toAsciiLowercase s = scheme)
    (h : scheme ++ rest = s ++ rest') : s = scheme ∧ rest = rest' := by
  have hlength : s.length = scheme.length := by
    rw [← hs, toAsciiLowercase, List.length_map]
  obtain ⟨rfl, rfl⟩ := List.append_inj h hlength.symm
  exact ⟨rfl, rfl⟩

theorem spells_toUri {id : SpiffeId} {parts : SpiffeUriParts} :
    parts.Spells id.toUri ↔
      id.Delimited ∧ parts = ⟨id.trustDomain, id.namespace, id.serviceAccount⟩ := by
  constructor
  · rintro ⟨s, huri, hs, htd, hns, hsa⟩
    obtain ⟨-, htail⟩ := eq_scheme hs huri
    obtain ⟨htd', hns', hsa'⟩ := tail_injective htail htd.2.1 hns.2.1 hsa.2.1
    rw [Delimited, htd', hns', hsa']
    exact ⟨⟨htd, hns, hsa⟩, rfl⟩
  · rintro ⟨⟨htd, hns, hsa⟩, rfl⟩
    exact ⟨scheme, rfl, by decide, htd, hns, hsa⟩

theorem fromUri_toUri_eq_ok {id found : SpiffeId} :
    fromUri id.toUri = .ok found ↔ id.Delimited ∧ found = id.lowercaseTrustDomain := by
  rw [fromUri_eq_ok]
  constructor
  · rintro ⟨parts, hspells, rfl⟩
    obtain ⟨hid, rfl⟩ := spells_toUri.mp hspells
    exact ⟨hid, rfl⟩
  · rintro ⟨hid, rfl⟩
    exact ⟨_, spells_toUri.mpr ⟨hid, rfl⟩, rfl⟩

/-! ## Canonical URIs -/

def lowercaseAuthority (uri : Str) : Str :=
  let remainder := uri.drop scheme.length
  toAsciiLowercase (uri.take scheme.length) ++
    (toAsciiLowercase (remainder.takeWhile (· ≠ '/')) ++ remainder.dropWhile (· ≠ '/'))

private theorem lowercaseAuthority_eq {s td rest : Str} (hs : toAsciiLowercase s = scheme)
    (htd : '/' ∉ td) :
    lowercaseAuthority (s ++ (td ++ '/' :: rest)) =
      scheme ++ (toAsciiLowercase td ++ '/' :: rest) := by
  have hlength : s.length = scheme.length := by
    rw [← hs, toAsciiLowercase, List.length_map]
  have hall : ∀ c ∈ td, decide (c ≠ '/') = true := by
    intro c hc
    simp only [decide_eq_true_eq]
    rintro rfl
    exact htd hc
  simp only [lowercaseAuthority, ← hlength, List.take_left, List.drop_left, hs,
    List.takeWhile_append_of_pos hall, List.dropWhile_append_of_pos hall]
  simp

theorem delimited_of_fromUri {uri : Str} {id : SpiffeId} (h : fromUri uri = .ok id) :
    id.Delimited ∧ id.lowercaseTrustDomain = id ∧ id.toUri = lowercaseAuthority uri := by
  obtain ⟨parts, ⟨s, rfl, hs, htd, hns, hsa⟩, rfl⟩ := fromUri_eq_ok.mp h
  refine ⟨⟨htd.toAsciiLowercase, hns, hsa⟩, ?_, ?_⟩
  · rw [lowercaseTrustDomain, toAsciiLowercase_idem]
  · exact (lowercaseAuthority_eq hs htd.2.1).symm

/--
No identity is read as another one, whether its segments were validated or not; the
identities that are read are written as they are, each in a way of its own.
-/
theorem fromUri_toUri_faithful :
    (∀ id found : SpiffeId, fromUri id.toUri = .ok found →
      found = ⟨toAsciiLowercase id.trustDomain, id.namespace, id.serviceAccount⟩) ∧
    (∀ (uri uri' : Str) (id id' : SpiffeId), fromUri uri = .ok id → fromUri uri' = .ok id' →
      id.toUri = id'.toUri → id = id') ∧
    (∀ (uri : Str) (id : SpiffeId), fromUri uri = .ok id →
      fromUri id.toUri = .ok id ∧ id.toUri = lowercaseAuthority uri) := by
  have hagain : ∀ {uri : Str} {id : SpiffeId}, fromUri uri = .ok id →
      fromUri id.toUri = .ok id := by
    intro uri id h
    obtain ⟨hid, hlower, -⟩ := delimited_of_fromUri h
    exact fromUri_toUri_eq_ok.mpr ⟨hid, hlower.symm⟩
  refine ⟨?_, ?_, ?_⟩
  · intro id found h
    exact (fromUri_toUri_eq_ok.mp h).2
  · intro uri uri' id id' h h' heq
    have hid := hagain h
    rw [heq, hagain h'] at hid
    exact (Except.ok.inj hid).symm
  · intro uri id h
    exact ⟨hagain h, (delimited_of_fromUri h).2.2⟩

theorem mixedCase_faithful :
    let id : SpiffeId := ⟨"mesh.local".toList, "default".toList, "Web".toList⟩
    fromUri id.toUri = .ok id ∧
      id.toUri = lowercaseAuthority "SPIFFE://Mesh.Local/ns/default/sa/Web".toList :=
  fromUri_toUri_faithful.2.2 _ _ (by decide)

end SpiffeId

end Interlink
