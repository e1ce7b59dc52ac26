import Interlink.Foundation.Utf8

/-!
# Character boundaries

In UTF-8 a byte says by itself whether it continues a character.  An offset into
a text is a boundary at the two ends of the text and wherever the byte does not
continue a character.  This file ties that rule on bytes to the cuts of a text:
a cut is granted exactly at a boundary.  It also gives the searches that programs
make among the encoded bytes and shows that they find what a search among the
characters finds, so that the offsets they report are boundaries.
-/

namespace Interlink.Foundation

/-- The bytes `0x80` to `0xBF`, which stand inside the encoding of a character. -/
def continues (b : UInt8) : Bool := decide (128 ≤ b.toNat) && decide (b.toNat < 192)

/-- The rule on bytes: the start, the end, and every byte that does not continue a character. -/
def isCharBoundary (s : Str) (i : Nat) : Bool :=
  if i = 0 then true
  else
    match (bytes s)[i]? with
    | none => decide (i = byteLen s)
    | some b => !continues b

/-! ## Where characters begin -/

private theorem continues_ofNat {n : Nat} (h : n < 256) :
    continues (UInt8.ofNat n) = (decide (128 ≤ n) && decide (n < 192)) := by
  simp [continues, UInt8.toNat_ofNat', Nat.mod_eq_of_lt h]

theorem utf8EncodeChar_eq_cons (c : Char) :
    ∃ b rest, String.utf8EncodeChar c = b :: rest ∧ continues b = false ∧
      ∀ d ∈ rest, continues d = true := by
  simp only [String.utf8EncodeChar]
  have hlead {n : Nat} (hlow : 192 ≤ n) (hhigh : n < 256) :
      continues (UInt8.ofNat n) = false := by
    rw [continues_ofNat hhigh]
    simp
    omega
  have hrest (n : Nat) : continues (UInt8.ofNat (n % 64 + 128)) = true := by
    rw [continues_ofNat (by omega)]
    simp
    omega
  split
  · refine ⟨_, [], rfl, ?_, by simp⟩
    rw [continues_ofNat (by omega), Bool.and_eq_false_iff]
    left
    rw [decide_eq_false_iff_not]
    omega
  · split
    · refine ⟨_, _, rfl, hlead (by omega) (by omega), ?_⟩
      exact List.forall_mem_singleton.mpr (hrest _)
    · split
      · refine ⟨_, _, rfl, hlead (by omega) (by omega), ?_⟩
        simp only [List.forall_mem_cons, hrest, List.not_mem_nil, IsEmpty.forall_iff, implies_true,
          and_self]
      · refine ⟨_, _, rfl, hlead (by omega) (by omega), ?_⟩
        simp only [List.forall_mem_cons, hrest, List.not_mem_nil, IsEmpty.forall_iff, implies_true,
          and_self]

theorem continues_head {s : Str} {b : UInt8} (h : (bytes s)[0]? = some b) :
    continues b = false := by
  cases s with
  | nil => simp at h
  | cons c s =>
      obtain ⟨first, rest, hencode, hfirst, -⟩ := utf8EncodeChar_eq_cons c
      rw [bytes_cons, hencode] at h
      simp only [List.cons_append, List.getElem?_cons_zero, Option.some.injEq] at h
      rw [← h]
      exact hfirst

private theorem isCharBoundary_inside {c : Char} {s : Str} {i : Nat} (hpos : i ≠ 0)
    (hi : i < c.utf8Size) : isCharBoundary (c :: s) i = false := by
  obtain ⟨first, rest, hencode, -, hrest⟩ := utf8EncodeChar_eq_cons c
  have hlength := String.length_utf8EncodeChar c
  rw [hencode, List.length_cons] at hlength
  obtain ⟨j, rfl⟩ := Nat.exists_eq_succ_of_ne_zero hpos
  have hj : j < rest.length := by omega
  have hbyte : (bytes (c :: s))[j.succ]? = some rest[j] := by
    rw [bytes_cons, hencode, List.cons_append, List.getElem?_cons_succ,
      List.getElem?_append_left hj, List.getElem?_eq_getElem hj]
  simp only [isCharBoundary, hpos, if_false, hbyte]
  simp [hrest rest[j] (List.getElem_mem hj)]

private theorem isCharBoundary_cons {c : Char} {s : Str} (j : Nat) :
    isCharBoundary (c :: s) (c.utf8Size + j) = isCharBoundary s j := by
  have hpos := Char.utf8Size_pos c
  have hbyte : (bytes (c :: s))[c.utf8Size + j]? = (bytes s)[j]? := by
    rw [bytes_cons, List.getElem?_append_right (by simp), String.length_utf8EncodeChar,
      Nat.add_sub_cancel_left]
  have hne : c.utf8Size + j ≠ 0 := by omega
  simp only [isCharBoundary, hbyte, hne, if_false, byteLen_cons, Nat.add_left_cancel_iff]
  by_cases hj : j = 0
  · -- the end of the first character is a boundary, whatever follows it
    subst hj
    cases hhead : (bytes s)[0]? with
    | none =>
        have hnil : byteLen s = 0 := by simpa using hhead
        simp [hnil]
    | some b => simp [continues_head hhead]
  · rw [if_neg hj]

theorem splitAtByte?_isSome (s : Str) (i : Nat) :
    (splitAtByte? s i).isSome = isCharBoundary s i := by
  induction s generalizing i with
  | nil =>
      by_cases hi : i = 0
      · simp [splitAtByte?, isCharBoundary, hi]
      · simp [splitAtByte?, isCharBoundary, hi]
  | cons c s ih =>
      by_cases hi : i = 0
      · simp [splitAtByte?, isCharBoundary, hi]
      · by_cases hsize : c.utf8Size ≤ i
        · obtain ⟨j, rfl⟩ := Nat.exists_eq_add_of_le hsize
          rw [isCharBoundary_cons, ← ih j]
          rw [splitAtByte?, if_neg hi, if_pos hsize, Nat.add_sub_cancel_left,
            Option.isSome_map]
        · rw [isCharBoundary_inside hi (by omega), splitAtByte?, if_neg hi, if_neg hsize]
          rfl

theorem isCharBoundary_iff {s : Str} {i : Nat} :
    isCharBoundary s i = true ↔ ∃ a b, s = a ++ b ∧ byteLen a = i := by
  rw [← splitAtByte?_isSome, Option.isSome_iff_exists]
  constructor
  · rintro ⟨⟨a, b⟩, h⟩
    exact ⟨a, b, splitAtByte?_eq_some.mp h⟩
  · rintro ⟨a, b, h⟩
    exact ⟨(a, b), splitAtByte?_eq_some.mpr h⟩

/-! ## Slices -/

theorem slice?_eq_some {s t : Str} {start stop : Nat} :
    slice? s start stop = some t ↔
      ∃ a b, s = a ++ (t ++ b) ∧ byteLen a = start ∧ byteLen a + byteLen t = stop := by
  constructor
  · intro h
    simp only [slice?, Option.bind_eq_bind, Option.bind_eq_some_iff, Option.some.injEq,
      Prod.exists] at h
    obtain ⟨upTo, b, hstop, a, between, hstart, rfl⟩ := h
    obtain ⟨rfl, rfl⟩ := splitAtByte?_eq_some.mp hstop
    obtain ⟨rfl, rfl⟩ := splitAtByte?_eq_some.mp hstart
    exact ⟨a, b, by simp, rfl, by simp⟩
  · rintro ⟨a, b, rfl, rfl, rfl⟩
    exact slice?_append a t b

theorem byteLen_of_slice? {s t : Str} {start stop : Nat} (h : slice? s start stop = some t) :
    start + byteLen t = stop ∧ stop ≤ byteLen s := by
  obtain ⟨a, b, rfl, rfl, rfl⟩ := slice?_eq_some.mp h
  refine ⟨rfl, ?_⟩
  simp only [byteLen_append]
  omega

/-- A slice is granted exactly between two boundaries that are in order and in the text. -/
theorem slice?_isSome_iff {s : Str} {start stop : Nat} :
    (slice? s start stop).isSome = true ↔
      start ≤ stop ∧ stop ≤ byteLen s ∧ isCharBoundary s start = true ∧
        isCharBoundary s stop = true := by
  constructor
  · intro h
    obtain ⟨t, ht⟩ := Option.isSome_iff_exists.mp h
    obtain ⟨hstop, hlen⟩ := byteLen_of_slice? ht
    obtain ⟨a, b, rfl, rfl, rfl⟩ := slice?_eq_some.mp ht
    refine ⟨by omega, hlen, isCharBoundary_iff.mpr ⟨a, t ++ b, rfl, rfl⟩, ?_⟩
    exact isCharBoundary_iff.mpr ⟨a ++ t, b, by simp, by simp⟩
  · rintro ⟨hle, -, hstart, hstop⟩
    obtain ⟨a, rest, rfl, rfl⟩ := isCharBoundary_iff.mp hstart
    obtain ⟨upTo, b, heq, rfl⟩ := isCharBoundary_iff.mp hstop
    -- of two heads of one text the one with fewer bytes is a head of the other
    have hhead : a <+: upTo := by
      rcases List.prefix_or_prefix_of_prefix (List.prefix_append a rest)
        (heq ▸ List.prefix_append upTo b) with h | h
      · exact h
      · obtain ⟨x, rfl⟩ := h
        have hnil : byteLen x = 0 := by
          simp only [byteLen_append] at hle
          omega
        simp [byteLen_eq_zero.mp hnil]
    obtain ⟨t, rfl⟩ := hhead
    have hslice : slice? (a ++ rest) (byteLen a) (byteLen (a ++ t)) = some t :=
      slice?_eq_some.mpr ⟨a, b, by rw [heq, List.append_assoc], rfl, by simp⟩
    rw [hslice]
    rfl

/-! ## Searching for a text among the bytes

A text that is searched for begins with a byte that does not continue a
character, so its bytes are found only where a character begins.
-/

/-- `str::starts_with`, on the bytes. -/
def startsWith (s literal : Str) : Bool := (bytes literal).isPrefixOf (bytes s)

def endsWith (s literal : Str) : Bool := (bytes literal).isSuffixOf (bytes s)

def findBytes? (needle : List UInt8) : List UInt8 → Option Nat
  | [] => if needle.isPrefixOf [] then some 0 else none
  | b :: rest =>
      if needle.isPrefixOf (b :: rest) then some 0
      else (findBytes? needle rest).map (· + 1)

theorem prefix_bytes_iff {s t : Str} : bytes s <+: bytes t ↔ s <+: t := by
  constructor
  · rintro ⟨rest, h⟩
    apply List.isPrefix_of_utf8Encode_append_eq_utf8Encode rest.toByteArray
    have harrays := congrArg List.toByteArray h
    rwa [List.toByteArray_append] at harrays
  · rintro ⟨rest, rfl⟩
    exact ⟨bytes rest, (bytes_append s rest).symm⟩

theorem bytes_injective {s t : Str} (h : bytes s = bytes t) : s = t := by
  have hst : s <+: t := prefix_bytes_iff.mp (h ▸ List.prefix_rfl)
  have hts : t <+: s := prefix_bytes_iff.mp (h ▸ List.prefix_rfl)
  exact hst.eq_of_length (Nat.le_antisymm hst.length_le hts.length_le)

theorem suffix_bytes_iff {s t : Str} : bytes s <:+ bytes t ↔ s <:+ t := by
  constructor
  · rintro ⟨front, h⟩
    have hboundary : isCharBoundary t front.length = true := by
      by_cases hfront : front.length = 0
      · simp [isCharBoundary, hfront]
      · have hbyte : (bytes t)[front.length]? = (bytes s)[0]? := by
          rw [← h, List.getElem?_append_right (Nat.le_refl _), Nat.sub_self]
        simp only [isCharBoundary, hfront, if_false, hbyte]
        cases hhead : (bytes s)[0]? with
        | none =>
            have hlen := congrArg List.length h
            have hnil : byteLen s = 0 := by simpa using hhead
            simp only [List.length_append, length_bytes, hnil] at hlen
            simpa using hlen
        | some b => simp [continues_head hhead]
    obtain ⟨a, b, rfl, hlen⟩ := isCharBoundary_iff.mp hboundary
    rw [bytes_append] at h
    have htail : bytes s = bytes b := (List.append_inj h (by simp [hlen])).2
    rw [bytes_injective htail]
    exact List.suffix_append a b
  · rintro ⟨front, rfl⟩
    exact ⟨bytes front, (bytes_append front s).symm⟩

theorem startsWith_eq (s literal : Str) : startsWith s literal = literal.isPrefixOf s := by
  rw [Bool.eq_iff_iff, startsWith, List.isPrefixOf_iff_prefix, List.isPrefixOf_iff_prefix,
    prefix_bytes_iff]

theorem endsWith_eq (s literal : Str) : endsWith s literal = literal.isSuffixOf s := by
  rw [Bool.eq_iff_iff, endsWith, List.isSuffixOf_iff_suffix, List.isSuffixOf_iff_suffix,
    suffix_bytes_iff]

private theorem findBytes?_inside {first : UInt8} {needle inside : List UInt8}
    (hfirst : continues first = false) (hinside : ∀ b ∈ inside, continues b = true)
    (rest : List UInt8) :
    findBytes? (first :: needle) (inside ++ rest) =
      (findBytes? (first :: needle) rest).map (· + inside.length) := by
  induction inside with
  | nil => simp
  | cons b inside ih =>
      have hne : first ≠ b := by
        rintro rfl
        rw [hinside first (by simp)] at hfirst
        contradiction
      have htail := ih fun d hd => hinside d (by simp [hd])
      rw [List.cons_append, findBytes?, htail]
      simp [hne, Function.comp_def, Nat.add_assoc]

theorem findBytes?_bytes (needle s : Str) :
    findBytes? (bytes needle) (bytes s) = find? needle s := by
  induction s with
  | nil => cases needle <;> simp [findBytes?, find?]
  | cons c s ih =>
      obtain ⟨b, inside, hencode, -, hinside⟩ := utf8EncodeChar_eq_cons c
      have hsize := String.length_utf8EncodeChar c
      have hprefix := startsWith_eq (c :: s) needle
      rw [startsWith, bytes_cons, hencode, List.cons_append] at hprefix
      rw [bytes_cons, hencode, List.cons_append, findBytes?, find?, hprefix]
      split
      next => rfl
      next hmiss =>
        cases needle with
        | nil => simp at hmiss
        | cons d needle =>
            obtain ⟨first, more, hneedle, hfirst, -⟩ := utf8EncodeChar_eq_cons d
            rw [bytes_cons, hneedle, List.cons_append] at ih ⊢
            rw [findBytes?_inside hfirst hinside, ih, Option.map_map, ← hsize, hencode]
            rfl

/-! ## The positions of one byte -/

def byteIndices (b : UInt8) : Nat → List UInt8 → List Nat
  | _, [] => []
  | base, d :: rest =>
      if d = b then base :: byteIndices b (base + 1) rest else byteIndices b (base + 1) rest

theorem lt_of_mem_byteIndices {b : UInt8} {base i : Nat} {l : List UInt8}
    (h : i ∈ byteIndices b base l) : i < base + l.length := by
  induction l generalizing base with
  | nil => simp [byteIndices] at h
  | cons d rest ih =>
      simp only [byteIndices] at h
      split at h
      · rcases List.mem_cons.mp h with rfl | h
        · simp
        · have := ih h
          simp only [List.length_cons]
          omega
      · have := ih h
        simp only [List.length_cons]
        omega

theorem byteIndices_append_of_not_mem {b : UInt8} {front : List UInt8} (h : b ∉ front)
    (base : Nat) (rest : List UInt8) :
    byteIndices b base (front ++ rest) = byteIndices b (base + front.length) rest := by
  induction front generalizing base with
  | nil => rfl
  | cons d front ih =>
      simp only [List.mem_cons, not_or] at h
      rw [List.cons_append, byteIndices, if_neg (Ne.symm h.1), ih h.2, List.length_cons]
      congr 1
      omega

end Interlink.Foundation
