import Mathlib.Algebra.Group.Nat.Defs
import Interlink.Foundation.Fallible

/-!
# Unsigned decimal numbers

`str::parse` for the unsigned types of a given bound, with the texts of its errors: an
optional plus sign and digits, read from the left until one is not a digit or the number
is too large.
-/

namespace Interlink.Foundation.Decimal

def push (bound n : Nat) (c : Char) : Except (List Char) Nat :=
  if c.isDigit then
    if 10 * n + (c.toNat - '0'.toNat) < bound then .ok (10 * n + (c.toNat - '0'.toNat))
    else .error "number too large to fit in target type".toList
  else .error "invalid digit found in string".toList

def parseUnsigned (bound : Nat) : List Char → Except (List Char) Nat
  | [] => .error "cannot parse integer from empty string".toList
  | ['+'] => .error "invalid digit found in string".toList
  | '+' :: digits => digits.foldlM (push bound) 0
  | digits => digits.foldlM (push bound) 0

variable {bound n m : Nat} {c : Char} {s digits : List Char}

theorem le_ofDigitChars (digits : List Char) (n : Nat) : n ≤ Nat.ofDigitChars 10 digits n := by
  induction digits generalizing n with
  | nil => exact Nat.le_refl n
  | cons c digits ih =>
      rw [Nat.ofDigitChars_cons]
      exact Nat.le_trans (by omega) (ih _)

theorem toNat_le_of_isDigit (h : c.isDigit = true) : c.toNat ≤ 57 := by
  simp only [Char.isDigit, Bool.and_eq_true, decide_eq_true_eq, UInt32.le_iff_toNat_le] at h
  exact h.2

theorem isDigit_toDigits (n : Nat) : ∀ c ∈ Nat.toDigits 10 n, c.isDigit = true :=
  fun _ hc => Nat.isDigit_of_mem_toDigits (by decide) (by decide) hc

theorem ofDigitChars_lt (h : ∀ c ∈ digits, c.isDigit = true) (n : Nat) :
    Nat.ofDigitChars 10 digits n < (n + 1) * 10 ^ digits.length := by
  induction digits generalizing n with
  | nil => simp
  | cons c digits ih =>
      have hnine := toNat_le_of_isDigit (h c (by simp))
      have hzero : '0'.toNat = 48 := rfl
      rw [Nat.ofDigitChars_cons, List.length_cons, Nat.pow_succ']
      calc Nat.ofDigitChars 10 digits (10 * n + (c.toNat - '0'.toNat))
          < (10 * n + (c.toNat - '0'.toNat) + 1) * 10 ^ digits.length :=
            ih (fun d hd => h d (by simp [hd])) _
        _ ≤ (n + 1) * 10 * 10 ^ digits.length := Nat.mul_le_mul_right _ (by omega)
        _ = (n + 1) * (10 * 10 ^ digits.length) := Nat.mul_assoc _ _ _

theorem push_eq_ok : push bound n c = .ok m ↔
    c.isDigit = true ∧ 10 * n + (c.toNat - '0'.toNat) = m ∧ m < bound := by
  unfold push
  split
  next hdigit =>
    split
    next hlt =>
      simp only [Except.ok.injEq, hdigit, true_and]
      constructor
      · rintro rfl
        exact ⟨rfl, hlt⟩
      · exact fun h => h.1
    next hge =>
      simp only [reduceCtorEq, hdigit, true_and, false_iff]
      rintro ⟨rfl, hlt⟩
      exact hge hlt
  next hdigit => simp [hdigit]

theorem foldlM_push_eq_ok (hn : n < bound) : digits.foldlM (push bound) n = .ok m ↔
    (∀ c ∈ digits, c.isDigit = true) ∧ Nat.ofDigitChars 10 digits n = m ∧ m < bound := by
  induction digits generalizing n with
  | nil =>
      simp only [List.foldlM_nil, Nat.ofDigitChars_nil, List.not_mem_nil, false_implies,
        implies_true, true_and]
      constructor
      · rintro ⟨⟩
        exact ⟨rfl, hn⟩
      · rintro ⟨rfl, -⟩
        rfl
  | cons c digits ih =>
      rw [List.foldlM_cons, List.forall_mem_cons, Nat.ofDigitChars_cons, bind_eq_ok]
      constructor
      · rintro ⟨next, hpush, hrest⟩
        obtain ⟨hdigit, rfl, hnext⟩ := push_eq_ok.mp hpush
        obtain ⟨hdigits, hvalue, hm⟩ := (ih hnext).mp hrest
        exact ⟨⟨hdigit, hdigits⟩, hvalue, hm⟩
      · rintro ⟨⟨hdigit, hdigits⟩, hvalue, hm⟩
        have hle := le_ofDigitChars digits (10 * n + (c.toNat - '0'.toNat))
        have hnext : 10 * n + (c.toNat - '0'.toNat) < bound := by omega
        exact ⟨_, push_eq_ok.mpr ⟨hdigit, rfl, hnext⟩, (ih hnext).mpr ⟨hdigits, hvalue, hm⟩⟩

theorem parseUnsigned_eq_ok (hbound : 0 < bound) : parseUnsigned bound s = .ok n ↔
    ∃ digits, (s = digits ∨ s = '+' :: digits) ∧ digits ≠ [] ∧
      (∀ c ∈ digits, c.isDigit = true) ∧ Nat.ofDigitChars 10 digits 0 = n ∧ n < bound := by
  have hplus : ∀ digits : List Char, (∀ c ∈ '+' :: digits, c.isDigit = true) → False := by
    intro digits h
    exact absurd (h '+' (by simp)) (by decide)
  unfold parseUnsigned
  split
  next => simp
  next =>
    simp only [reduceCtorEq, false_iff]
    rintro ⟨digits, rfl | heq, hne, hdigits, -⟩
    · exact hplus [] hdigits
    · cases heq
      exact hne rfl
  next digits hne =>
    rw [foldlM_push_eq_ok hbound]
    constructor
    · intro h
      exact ⟨digits, .inr rfl, fun hnil => hne (by rw [hnil]), h⟩
    · rintro ⟨other, rfl | heq, hother, hdigits, hvalue⟩
      · exact (hplus digits hdigits).elim
      · cases heq
        exact ⟨hdigits, hvalue⟩
  next hnil hplain hsigned =>
    rw [foldlM_push_eq_ok hbound]
    constructor
    · intro h
      exact ⟨s, .inl rfl, fun hs => hnil hs, h⟩
    · rintro ⟨digits, rfl | rfl, hne, hdigits, hvalue⟩
      · exact ⟨hdigits, hvalue⟩
      · exact (hsigned digits rfl).elim

theorem parseUnsigned_toDigits (h : n < bound) :
    parseUnsigned bound (Nat.toDigits 10 n) = .ok n :=
  (parseUnsigned_eq_ok (by omega)).mpr ⟨Nat.toDigits 10 n, .inl rfl, Nat.toDigits_ne_nil,
    isDigit_toDigits n, Nat.ofDigitChars_ten_toDigits, h⟩

end Interlink.Foundation.Decimal
