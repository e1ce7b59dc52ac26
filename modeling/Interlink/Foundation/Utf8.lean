import Mathlib.Data.List.Basic

/-!
# Texts with byte offsets

A text is the list of its characters.  Programs that keep texts in UTF-8
address them by byte offsets: they search the encoded bytes and cut the text
at the offset they found, and such a cut is refused when it is out of range or
falls inside a character.  This file gives the encoding, the partial cut, and
the facts that relate an offset found among the bytes to a decomposition of
the text.
-/

namespace Interlink.Foundation

abbrev Str := List Char

def bytes (s : Str) : List UInt8 := s.flatMap String.utf8EncodeChar

def byteLen : Str → Nat
  | [] => 0
  | c :: s => c.utf8Size + byteLen s

@[simp] theorem byteLen_nil : byteLen [] = 0 := rfl

@[simp] theorem byteLen_cons (c : Char) (s : Str) :
    byteLen (c :: s) = c.utf8Size + byteLen s := rfl

@[simp] theorem byteLen_append (s t : Str) :
    byteLen (s ++ t) = byteLen s + byteLen t := by
  induction s with
  | nil => simp
  | cons c s ih =>
      rw [List.cons_append, byteLen_cons, ih, byteLen_cons]
      omega

@[simp] theorem bytes_nil : bytes [] = [] := rfl

@[simp] theorem bytes_cons (c : Char) (s : Str) :
    bytes (c :: s) = String.utf8EncodeChar c ++ bytes s := rfl

@[simp] theorem bytes_append (s t : Str) :
    bytes (s ++ t) = bytes s ++ bytes t := by
  simp [bytes]

@[simp] theorem length_bytes (s : Str) : (bytes s).length = byteLen s := by
  induction s with
  | nil => rfl
  | cons c s ih => simp [ih]

theorem byteLen_eq_zero {s : Str} : byteLen s = 0 ↔ s = [] := by
  cases s with
  | nil => simp
  | cons c s =>
      have hpos := Char.utf8Size_pos c
      simp
      omega

/-! ## Cutting at an offset -/

/--
Cut a text at a byte offset.  `none` is the refused cut: the offset lies
beyond the text or inside a character.
-/
def splitAtByte? : Str → Nat → Option (Str × Str)
  | [], n => if n = 0 then some ([], []) else none
  | c :: s, n =>
      if n = 0 then some ([], c :: s)
      else if c.utf8Size ≤ n then
        (splitAtByte? s (n - c.utf8Size)).map fun p => (c :: p.1, p.2)
      else none

/-- The text between two byte offsets, refused unless both cuts are possible in order. -/
def slice? (s : Str) (start stop : Nat) : Option Str := do
  let (upTo, _) ← splitAtByte? s stop
  let (_, between) ← splitAtByte? upTo start
  some between

@[simp] theorem splitAtByte?_append (s t : Str) :
    splitAtByte? (s ++ t) (byteLen s) = some (s, t) := by
  induction s with
  | nil => cases t <;> simp [splitAtByte?]
  | cons c s ih =>
      have hpos := Char.utf8Size_pos c
      have hne : c.utf8Size ≠ 0 := by omega
      simp [splitAtByte?, hne, ih]

theorem splitAtByte?_eq_some {s a b : Str} {n : Nat} :
    splitAtByte? s n = some (a, b) ↔ s = a ++ b ∧ byteLen a = n := by
  constructor
  · intro h
    induction s generalizing a n with
    | nil =>
        simp only [splitAtByte?] at h
        split at h
        · rename_i hn
          simp only [Option.some.injEq, Prod.mk.injEq] at h
          obtain ⟨rfl, rfl⟩ := h
          exact ⟨rfl, hn.symm⟩
        · contradiction
    | cons c s ih =>
        simp only [splitAtByte?] at h
        split at h
        · rename_i hn
          simp only [Option.some.injEq, Prod.mk.injEq] at h
          obtain ⟨rfl, rfl⟩ := h
          exact ⟨rfl, hn.symm⟩
        · split at h
          · rename_i hle
            obtain ⟨⟨a', b'⟩, hp, heq⟩ := Option.map_eq_some_iff.mp h
            simp only [Prod.mk.injEq] at heq
            obtain ⟨rfl, rfl⟩ := heq
            obtain ⟨rfl, hlen⟩ := ih hp
            exact ⟨rfl, by simp only [byteLen_cons]; omega⟩
          · contradiction
  · rintro ⟨rfl, rfl⟩
    exact splitAtByte?_append a b

theorem slice?_append (a b c : Str) :
    slice? (a ++ (b ++ c)) (byteLen a) (byteLen a + byteLen b) = some b := by
  have hstop : splitAtByte? (a ++ (b ++ c)) (byteLen a + byteLen b) =
      some (a ++ b, c) :=
    splitAtByte?_eq_some.mpr ⟨by simp, by simp⟩
  simp [slice?, hstop]

theorem slice?_head (a b : Str) : slice? (a ++ b) 0 (byteLen a) = some a := by
  simpa using slice?_append [] a b

theorem slice?_suffix (a b : Str) :
    slice? (a ++ b) (byteLen a) (byteLen (a ++ b)) = some b := by
  simpa using slice?_append a b []

/-! ## Searching the bytes

A predicate on bytes that only accepts ASCII can be read on characters: no
byte of a longer encoding satisfies it.
-/

/-- A byte predicate read on a character, which must be ASCII to satisfy it. -/
def onChar (p : UInt8 → Bool) (c : Char) : Bool :=
  decide (c.toNat < 128) && p (UInt8.ofNat c.toNat)

def AsciiOnly (p : UInt8 → Bool) : Prop := ∀ b, p b = true → b.toNat < 128

theorem utf8EncodeChar_ascii {c : Char} (h : c.toNat < 128) :
    String.utf8EncodeChar c = [UInt8.ofNat c.toNat] := by
  have hle : c.val.toNat ≤ 127 := by
    change c.toNat ≤ 127
    omega
  simp only [String.utf8EncodeChar, hle, if_true]
  rfl

theorem utf8EncodeChar_nonascii {c : Char} (h : ¬ c.toNat < 128) :
    ∀ b ∈ String.utf8EncodeChar c, 128 ≤ b.toNat := by
  have hle : ¬ c.val.toNat ≤ 127 := by
    change ¬ c.toNat ≤ 127
    omega
  intro b hb
  simp only [String.utf8EncodeChar, hle, if_false] at hb
  split at hb
  · simp only [List.mem_cons, List.not_mem_nil, or_false] at hb
    rcases hb with rfl | rfl <;> simp only [UInt8.toNat_ofNat'] <;> omega
  · split at hb
    · simp only [List.mem_cons, List.not_mem_nil, or_false] at hb
      rcases hb with rfl | rfl | rfl <;> simp only [UInt8.toNat_ofNat'] <;> omega
    · simp only [List.mem_cons, List.not_mem_nil, or_false] at hb
      rcases hb with rfl | rfl | rfl | rfl <;>
        simp only [UInt8.toNat_ofNat'] <;> omega

theorem any_utf8EncodeChar {p : UInt8 → Bool} (hp : AsciiOnly p) (c : Char) :
    (String.utf8EncodeChar c).any p = onChar p c := by
  by_cases h : c.toNat < 128
  · simp [utf8EncodeChar_ascii h, onChar, h]
  · have hnone : ∀ b ∈ String.utf8EncodeChar c, ¬ p b = true := by
      intro b hb hpb
      have hlow := hp b hpb
      have hhigh := utf8EncodeChar_nonascii h b hb
      omega
    have hfalse : (String.utf8EncodeChar c).any p = false := by
      simpa [List.any_eq_false] using hnone
    simp [onChar, h, hfalse]

theorem any_bytes {p : UInt8 → Bool} (hp : AsciiOnly p) (s : Str) :
    (bytes s).any p = s.any (onChar p) := by
  induction s with
  | nil => rfl
  | cons c s ih => simp [any_utf8EncodeChar hp, ih]

theorem findIdx?_bytes_eq_none {p : UInt8 → Bool} (hp : AsciiOnly p) {s : Str} :
    (bytes s).findIdx? p = none ↔ ∀ c ∈ s, onChar p c = false := by
  have hany : (bytes s).findIdx? p = none ↔ (bytes s).any p = false := by
    simp [List.findIdx?_eq_none_iff]
  rw [hany, any_bytes hp]
  simp

theorem findIdx?_bytes_append {p : UInt8 → Bool} (hp : AsciiOnly p)
    {a b : Str} {c : Char} (ha : ∀ d ∈ a, onChar p d = false)
    (hc : onChar p c = true) :
    (bytes (a ++ c :: b)).findIdx? p = some (byteLen a) := by
  have hnone := (findIdx?_bytes_eq_none hp).mpr ha
  have hascii : c.toNat < 128 := by
    simp only [onChar, Bool.and_eq_true, decide_eq_true_eq] at hc
    exact hc.1
  have hpc : p (UInt8.ofNat c.toNat) = true := by
    simp only [onChar, Bool.and_eq_true] at hc
    exact hc.2
  rw [bytes_append, List.findIdx?_append, hnone, bytes_cons,
    utf8EncodeChar_ascii hascii]
  simp [List.findIdx?_cons, hpc]

/--
An ASCII byte found at an offset cuts the text into what precedes it, its character, and the
rest.
-/
theorem findIdx?_bytes_eq_some {p : UInt8 → Bool} (hp : AsciiOnly p)
    {s : Str} {i : Nat} (h : (bytes s).findIdx? p = some i) :
    ∃ a c b, s = a ++ c :: b ∧ byteLen a = i ∧ onChar p c = true ∧
      ∀ d ∈ a, onChar p d = false := by
  have hany : s.any (onChar p) = true := by
    by_contra hno
    have hnone : (bytes s).findIdx? p = none := by
      apply (findIdx?_bytes_eq_none hp).mpr
      simpa using hno
    rw [hnone] at h
    contradiction
  obtain ⟨a, c, b, rfl, hc, ha⟩ :
      ∃ a c b, s = a ++ c :: b ∧ onChar p c = true ∧
        ∀ d ∈ a, onChar p d = false := by
    clear h
    induction s with
    | nil => simp at hany
    | cons d s ih =>
        cases hd : onChar p d with
        | true => exact ⟨[], d, s, rfl, hd, by simp⟩
        | false =>
            obtain ⟨a, c, b, rfl, hc, ha⟩ := ih (by simpa [hd] using hany)
            refine ⟨d :: a, c, b, rfl, hc, ?_⟩
            intro e he
            rcases List.mem_cons.mp he with rfl | he
            · exact hd
            · exact ha e he
  rw [findIdx?_bytes_append hp ha hc] at h
  exact ⟨a, c, b, rfl, Option.some.inj h, hc, ha⟩

theorem onChar_beq {a : UInt8} (ha : a.toNat < 128) (c : Char) :
    onChar (· == a) c = true ↔ c = Char.ofNat a.toNat := by
  have hvalid : a.toNat.isValidChar := Or.inl (by omega)
  simp only [onChar, Bool.and_eq_true, decide_eq_true_eq, beq_iff_eq]
  constructor
  · rintro ⟨hc, heq⟩
    have hval : c.toNat = a.toNat := by
      have := congrArg UInt8.toNat heq
      simp only [UInt8.toNat_ofNat'] at this
      omega
    rw [← hval]
    exact (Char.ofNat_toNat c).symm
  · rintro rfl
    have hval : (Char.ofNat a.toNat).toNat = a.toNat := by
      unfold Char.ofNat
      rw [dif_pos hvalid]
      rfl
    rw [hval]
    exact ⟨ha, by simp⟩

theorem exists_ascii_head {s : Str} {l rest : List UInt8}
    (hl : ∀ b ∈ l, b.toNat < 128) (h : bytes s = l ++ rest) :
    ∃ a t, s = a ++ t ∧ bytes a = l ∧ bytes t = rest ∧
      ∀ c ∈ a, c.toNat < 128 := by
  induction l generalizing s with
  | nil => exact ⟨[], s, rfl, rfl, h, by simp⟩
  | cons b l ih =>
      cases s with
      | nil => simp at h
      | cons c s =>
          by_cases hc : c.toNat < 128
          · rw [bytes_cons, utf8EncodeChar_ascii hc] at h
            simp only [List.cons_append, List.nil_append, List.cons.injEq] at h
            obtain ⟨hb, htail⟩ := h
            obtain ⟨a, t, rfl, ha, ht, hascii⟩ :=
              ih (fun d hd => hl d (List.mem_cons_of_mem _ hd)) htail
            refine ⟨c :: a, t, rfl, ?_, ht, ?_⟩
            · rw [bytes_cons, utf8EncodeChar_ascii hc, ha, hb]
              rfl
            · intro d hd
              rcases List.mem_cons.mp hd with rfl | hd
              · exact hc
              · exact hascii d hd
          · have hne := String.utf8EncodeChar_ne_nil (c := c)
            obtain ⟨d, ds, hds⟩ := List.exists_cons_of_ne_nil hne
            have hhigh := utf8EncodeChar_nonascii hc d (by simp [hds])
            rw [bytes_cons, hds] at h
            simp only [List.cons_append, List.cons.injEq] at h
            have hlow := hl b (by simp)
            rw [h.1] at hhigh
            omega

theorem append_cons_inj_of_first {p : Char → Bool} {c c' : Char} {a a' b b' : Str}
    (ha : ∀ d ∈ a, p d = false) (ha' : ∀ d ∈ a', p d = false) (hc : p c = true)
    (hc' : p c' = true) (h : a ++ c :: b = a' ++ c' :: b') : a = a' ∧ c = c' ∧ b = b' := by
  induction a generalizing a' with
  | nil =>
      cases a' with
      | nil => exact ⟨rfl, List.cons.inj h⟩
      | cons d a' =>
          obtain ⟨rfl, -⟩ := List.cons.inj h
          simp [ha' c (by simp)] at hc
  | cons d a ih =>
      cases a' with
      | nil =>
          obtain ⟨rfl, -⟩ := List.cons.inj h
          simp [ha d (by simp)] at hc'
      | cons e a' =>
          obtain ⟨rfl, htail⟩ := List.cons.inj h
          obtain ⟨rfl, hrest⟩ := ih (fun e he => ha e (by simp [he]))
            (fun e he => ha' e (by simp [he])) htail
          exact ⟨rfl, hrest⟩

theorem append_cons_inj_of_not_mem {c : Char} {a a' b b' : Str} (ha : c ∉ a)
    (ha' : c ∉ a') (h : a ++ c :: b = a' ++ c :: b') : a = a' ∧ b = b' := by
  have hother {s : Str} (hs : c ∉ s) : ∀ d ∈ s, (d == c) = false := by
    intro d hd
    simp only [beq_eq_false_iff_ne, ne_eq]
    rintro rfl
    exact hs hd
  obtain ⟨hhead, -, htail⟩ := append_cons_inj_of_first (p := (· == c)) (hother ha) (hother ha')
    (beq_self_eq_true c) (beq_self_eq_true c) h
  exact ⟨hhead, htail⟩

/-! ## Occurrences of a text in another -/

def find? (needle : Str) : Str → Option Nat
  | [] => if needle.isPrefixOf [] then some 0 else none
  | c :: s =>
      if needle.isPrefixOf (c :: s) then some 0
      else (find? needle s).map (· + c.utf8Size)

theorem find?_eq_none {needle s : Str} :
    find? needle s = none ↔ ¬ needle <:+: s := by
  induction s with
  | nil => cases needle <;> simp [find?]
  | cons c s ih =>
      simp only [find?]
      split
      · rename_i hpre
        have hpre := List.isPrefixOf_iff_prefix.mp hpre
        simpa using hpre.isInfix
      · rename_i hpre
        rw [List.isPrefixOf_iff_prefix] at hpre
        rw [Option.map_eq_none_iff, ih, List.infix_cons_iff]
        tauto

/-- The first occurrence, as a decomposition: no other occurrence starts earlier. -/
theorem find?_eq_some {needle s : Str} {i : Nat} (h : find? needle s = some i) :
    ∃ a b, s = a ++ (needle ++ b) ∧ byteLen a = i ∧
      ∀ a' b', s = a' ++ (needle ++ b') → a.length ≤ a'.length := by
  induction s generalizing i with
  | nil =>
      simp only [find?] at h
      split at h
      · rename_i hpre
        have hnil : needle = [] := by simpa using hpre
        cases h
        exact ⟨[], [], by simp [hnil], rfl, by simp⟩
      · contradiction
  | cons c s ih =>
      simp only [find?] at h
      split at h
      · rename_i hpre
        obtain ⟨b, hb⟩ := List.isPrefixOf_iff_prefix.mp hpre
        cases h
        exact ⟨[], b, by simp [hb], rfl, by simp⟩
      · rename_i hpre
        obtain ⟨j, hj, rfl⟩ := Option.map_eq_some_iff.mp h
        obtain ⟨a, b, rfl, rfl, hfirst⟩ := ih hj
        refine ⟨c :: a, b, rfl, by simp only [byteLen_cons]; omega, ?_⟩
        intro a' b' heq
        cases a' with
        | nil =>
            exact absurd (List.isPrefixOf_iff_prefix.mpr ⟨b', heq.symm⟩) hpre
        | cons d a' =>
            simp only [List.cons_append, List.cons.injEq] at heq
            simpa using hfirst a' b' heq.2

end Interlink.Foundation
