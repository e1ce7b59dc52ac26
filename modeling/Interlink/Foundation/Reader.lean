import Interlink.Foundation.Decimal
import Mathlib.Data.List.Infix
import Mathlib.Data.List.TakeWhile

/-!
# Reading texts from the left

A reader takes a part off the front of a text or fails, and a failure leaves the text as
it was.  A reader that stops at a character reads the same before that character as at
the end of the text.
-/

namespace Interlink.Foundation

abbrev Reader (α : Type) : Type := StateT (List Char) Option α

namespace Reader

variable {α β : Type} {a : α} {c d : Char} {s t rest : List Char} {reader : Reader α}
  {next : α → Reader β} {radix bound : Nat} {maxDigits : Option Nat} {zeroPrefix : Bool}

def parseWith (reader : Reader α) (s : List Char) : Option α :=
  match reader s with
  | some (a, []) => some a
  | _ => none

def givenChar (c : Char) : Reader Unit
  | d :: rest => if d = c then some ((), rest) else none
  | [] => none

def toDigit (radix : Nat) (c : Char) : Option Nat :=
  let value :=
    if c.isDigit then c.toNat - '0'.toNat
    else if c.isLower then c.toNat - 'a'.toNat + 10
    else if c.isUpper then c.toNat - 'A'.toNat + 10
    else radix
  if value < radix then some value else none

def digits (radix : Nat) (s : List Char) : List Char :=
  s.takeWhile fun c => (toDigit radix c).isSome

def value (radix : Nat) (s : List Char) : Nat :=
  s.foldl (fun n c => radix * n + (toDigit radix c).getD 0) 0

/--
All digits that come next, at most `maxDigits` of them, and a first zero only by itself
unless a zero prefix is allowed.
-/
def number (radix bound : Nat) (maxDigits : Option Nat) (zeroPrefix : Bool) : Reader Nat :=
  fun s =>
    let read := digits radix s
    if read = [] then none
    else if maxDigits.any (· < read.length) then none
    else if !zeroPrefix && read.head? = some '0' && 1 < read.length then none
    else if value radix read < bound then some (value radix read, s.drop read.length)
    else none

/-! ## What is left -/

theorem parseWith_eq_some : parseWith reader s = some a ↔ reader s = some (a, []) := by
  unfold parseWith
  split
  next b h => simp [h]
  next hne =>
    simp only [reduceCtorEq, false_iff]
    exact fun h => hne a h

theorem bind_eq_some {b : β} {next : α → Reader β} :
    (reader >>= next) s = some (b, rest) ↔
      ∃ a left, reader s = some (a, left) ∧ next a left = some (b, rest) := by
  change (reader s).bind (fun p => next p.1 p.2) = some (b, rest) ↔ _
  rw [Option.bind_eq_some_iff]
  constructor
  · rintro ⟨⟨a, left⟩, hreader, hnext⟩
    exact ⟨a, left, hreader, hnext⟩
  · rintro ⟨a, left, hreader, hnext⟩
    exact ⟨(a, left), hreader, hnext⟩

theorem pure_eq_some {b : α} : (pure a : Reader α) s = some (b, rest) ↔ a = b ∧ s = rest := by
  change some (a, s) = some (b, rest) ↔ _
  simp

theorem givenChar_eq_some : givenChar c s = some ((), rest) ↔ s = c :: rest := by
  cases s with
  | nil => simp [givenChar]
  | cons d s =>
      simp only [givenChar]
      split
      next hd => simp [hd]
      next hd => simp [hd]

theorem digits_isInitial (radix : Nat) (s : List Char) : digits radix s <+: s :=
  List.takeWhile_prefix _

theorem of_number {n : Nat} (h : number radix bound maxDigits zeroPrefix s = some (n, rest)) :
    digits radix s ≠ [] ∧ (∀ max, maxDigits = some max → (digits radix s).length ≤ max) ∧
      s = digits radix s ++ rest := by
  simp only [number] at h
  split at h
  next => cases h
  next hne =>
    split at h
    next => cases h
    next hmax =>
      split at h
      next => cases h
      next =>
        split at h
        next =>
          cases h
          refine ⟨hne, ?_, (List.prefix_iff_eq_append.mp (digits_isInitial radix s)).symm⟩
          rintro max rfl
          simpa using hmax
        next => cases h

/-! ## Decimal digits -/

theorem toDigit_of_isDigit (hradix : 10 ≤ radix) (h : c.isDigit = true) :
    toDigit radix c = some (c.toNat - '0'.toNat) := by
  have hnine := Decimal.toNat_le_of_isDigit h
  have hlt : c.toNat - 48 < radix := by omega
  simpa [toDigit, h] using hlt

theorem digits_eq_self (hradix : 10 ≤ radix) (h : ∀ c ∈ s, c.isDigit = true) :
    digits radix s = s :=
  List.takeWhile_eq_self_iff.mpr fun c hc => by rw [toDigit_of_isDigit hradix (h c hc)]; rfl

theorem value_eq_ofDigitChars (h : ∀ c ∈ s, c.isDigit = true) :
    value 10 s = Nat.ofDigitChars 10 s 0 := by
  refine List.foldl_ext _ _ _ fun n c hc => ?_
  rw [toDigit_of_isDigit (Nat.le_refl 10) (h c hc), Option.getD_some]

theorem number_decimal (hne : s ≠ []) (h : ∀ c ∈ s, c.isDigit = true)
    (hbound : Nat.ofDigitChars 10 s 0 < bound) :
    number 10 bound none true s = some (Nat.ofDigitChars 10 s 0, []) := by
  simp only [number, digits_eq_self (Nat.le_refl 10) h, value_eq_ofDigitChars h]
  simp [hne, hbound]

theorem number_eq_none {max : Nat} (hradix : 10 ≤ radix) (h : ∀ c ∈ s, c.isDigit = true)
    (hmax : max < s.length) : number radix bound (some max) zeroPrefix s = none := by
  cases hread : number radix bound (some max) zeroPrefix s with
  | none => rfl
  | some read =>
      have hlength := (of_number hread).2.1 max rfl
      rw [digits_eq_self hradix h] at hlength
      omega

def Shrinks (reader : Reader α) : Prop :=
  ∀ s a rest, reader s = some (a, rest) → rest <:+ s

theorem Shrinks.bind (h : Shrinks reader) (hnext : ∀ a, Shrinks (next a)) :
    Shrinks (reader >>= next) := by
  intro s b rest hrest
  obtain ⟨a, left, hreader, hleft⟩ := bind_eq_some.mp hrest
  exact (hnext a left b rest hleft).trans (h s a left hreader)

theorem shrinks_pure (a : α) : Shrinks (pure a : Reader α) := by
  intro s b rest h
  rw [(pure_eq_some.mp h).2]

theorem shrinks_givenChar (c : Char) : Shrinks (givenChar c) := by
  rintro s ⟨⟩ rest h
  rw [givenChar_eq_some.mp h]
  exact List.suffix_cons c rest

theorem shrinks_number : Shrinks (number radix bound maxDigits zeroPrefix) := by
  intro s n rest h
  obtain ⟨-, -, hs⟩ := of_number h
  rw [hs]
  exact List.suffix_append _ _

/-! ## Stopping -/

def Stops (c : Char) (reader : Reader α) : Prop :=
  ∀ s t, reader (s ++ c :: t) = (reader s).map fun r => (r.1, r.2 ++ c :: t)

theorem Stops.bind (h : Stops c reader) (hnext : ∀ a, Stops c (next a)) :
    Stops c (reader >>= next) := by
  intro s t
  change (reader (s ++ c :: t)).bind (fun p => next p.1 p.2) =
    ((reader s).bind fun p => next p.1 p.2).map _
  rw [h s t]
  cases reader s with
  | none => rfl
  | some p => exact hnext p.1 p.2 t

theorem stops_pure (c : Char) (a : α) : Stops c (pure a : Reader α) :=
  fun _ _ => rfl

theorem stops_givenChar (h : c ≠ d) : Stops c (givenChar d) := by
  intro s t
  cases s with
  | nil => simp [givenChar, h]
  | cons e s =>
      simp only [List.cons_append, givenChar]
      split <;> rfl

theorem digits_append (h : toDigit radix c = none) (s t : List Char) :
    digits radix (s ++ c :: t) = digits radix s := by
  induction s with
  | nil => simp [digits, h]
  | cons d s ih =>
      simp only [digits, List.cons_append, List.takeWhile_cons] at ih ⊢
      rw [ih]

theorem stops_number (h : toDigit radix c = none) :
    Stops c (number radix bound maxDigits zeroPrefix) := by
  intro s t
  have hle : (digits radix s).length ≤ s.length := (digits_isInitial radix s).length_le
  simp only [number, digits_append h, List.drop_append_of_le_length hle]
  split_ifs <;> rfl

theorem Stops.read_append (h : Stops c reader) (hs : reader s = some (a, rest)) (t : List Char) :
    reader (s ++ c :: t) = some (a, rest ++ c :: t) := by
  rw [h, hs]
  rfl

/-- A text that a reader takes as a whole has no character at which the reader stops. -/
theorem Stops.not_mem (h : Stops c reader) (hs : reader s = some (a, [])) : c ∉ s := by
  intro hmem
  obtain ⟨left, right, rfl⟩ := List.append_of_mem hmem
  rw [h] at hs
  obtain ⟨r, -, hr⟩ := Option.map_eq_some_iff.mp hs
  simp at hr

/-! ## An end that is never taken -/

def LeadsTo (c : Char) (t s : List Char) : Prop :=
  s = t ∨ ∃ left, s = left ++ c :: t

theorem LeadsTo.ne_nil (h : LeadsTo c t s) (ht : t ≠ []) : s ≠ [] := by
  rcases h with rfl | ⟨left, rfl⟩
  · exact ht
  · simp

theorem Stops.leadsTo (h : Stops c reader) (ht : reader t = none) (hs : LeadsTo c t s)
    (hread : reader s = some (a, rest)) : LeadsTo c t rest := by
  rcases hs with rfl | ⟨left, rfl⟩
  · rw [ht] at hread
    cases hread
  · rw [h] at hread
    obtain ⟨r, -, hr⟩ := Option.map_eq_some_iff.mp hread
    cases hr
    exact .inr ⟨r.2, rfl⟩

theorem leadsTo_givenChar (ht : ∀ rest, t ≠ c :: rest) (hs : LeadsTo c t s)
    (hread : givenChar c s = some ((), rest)) : LeadsTo c t rest := by
  obtain rfl := givenChar_eq_some.mp hread
  rcases hs with heq | ⟨left, heq⟩
  · exact absurd heq.symm (ht rest)
  · cases left with
    | nil =>
        cases heq
        exact .inl rfl
    | cons d left =>
        cases heq
        exact .inr ⟨left, rfl⟩

end Reader

end Interlink.Foundation
