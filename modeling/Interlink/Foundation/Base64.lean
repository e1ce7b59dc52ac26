import Mathlib.Data.List.FinRange
import Mathlib.Data.Option.Basic

/-!
# Base64 without padding

Three bytes are written as four symbols, a last one or two bytes as two or three symbols
whose spare bits are zero.  The decoder is strict: it takes no other spare bits, so that
every text it accepts is the encoding of what it returns.
-/

namespace Interlink.Foundation.Base64

/-! ## Groups of six bits -/

def sextet₀ (a : UInt8) : Fin 64 := Fin.ofNat 64 (a.toNat / 4)

def sextet₁ (a b : UInt8) : Fin 64 := Fin.ofNat 64 (a.toNat % 4 * 16 + b.toNat / 16)

def sextet₂ (b c : UInt8) : Fin 64 := Fin.ofNat 64 (b.toNat % 16 * 4 + c.toNat / 64)

def sextet₃ (c : UInt8) : Fin 64 := Fin.ofNat 64 (c.toNat % 64)

def octet₀ (p q : Fin 64) : UInt8 := UInt8.ofNat (p.val * 4 + q.val / 16)

def octet₁ (q r : Fin 64) : UInt8 := UInt8.ofNat (q.val % 16 * 16 + r.val / 4)

def octet₂ (r s : Fin 64) : UInt8 := UInt8.ofNat (r.val % 4 * 64 + s.val)

def sextets : List UInt8 → List (Fin 64)
  | [] => []
  | [a] => [sextet₀ a, sextet₁ a 0]
  | [a, b] => [sextet₀ a, sextet₁ a b, sextet₂ b 0]
  | a :: b :: c :: rest => sextet₀ a :: sextet₁ a b :: sextet₂ b c :: sextet₃ c :: sextets rest

def octets? : List (Fin 64) → Option (List UInt8)
  | [] => some []
  | [_] => none
  | [p, q] => if q.val % 16 = 0 then some [octet₀ p q] else none
  | [p, q, r] => if r.val % 4 = 0 then some [octet₀ p q, octet₁ q r] else none
  | p :: q :: r :: s :: rest =>
      (octets? rest).map fun tail => octet₀ p q :: octet₁ q r :: octet₂ r s :: tail

section Bits

variable (a b c : UInt8) (p q r s : Fin 64)

theorem octet₀_sextet : octet₀ (sextet₀ a) (sextet₁ a b) = a := by
  have ha := a.toNat_lt
  have hb := b.toNat_lt
  apply UInt8.toNat_inj.mp
  simp only [octet₀, sextet₀, sextet₁, Fin.ofNat, UInt8.toNat_ofNat']
  omega

theorem octet₁_sextet : octet₁ (sextet₁ a b) (sextet₂ b c) = b := by
  have hb := b.toNat_lt
  have hc := c.toNat_lt
  apply UInt8.toNat_inj.mp
  simp only [octet₁, sextet₁, sextet₂, Fin.ofNat, UInt8.toNat_ofNat']
  omega

theorem octet₂_sextet : octet₂ (sextet₂ b c) (sextet₃ c) = c := by
  have hc := c.toNat_lt
  apply UInt8.toNat_inj.mp
  simp only [octet₂, sextet₂, sextet₃, Fin.ofNat, UInt8.toNat_ofNat']
  omega

theorem sextet₀_octet : sextet₀ (octet₀ p q) = p := by
  apply Fin.ext
  simp only [sextet₀, octet₀, Fin.ofNat, UInt8.toNat_ofNat']
  omega

theorem sextet₁_octet : sextet₁ (octet₀ p q) (octet₁ q r) = q := by
  apply Fin.ext
  simp only [sextet₁, octet₀, octet₁, Fin.ofNat, UInt8.toNat_ofNat']
  omega

theorem sextet₂_octet : sextet₂ (octet₁ q r) (octet₂ r s) = r := by
  apply Fin.ext
  simp only [sextet₂, octet₁, octet₂, Fin.ofNat, UInt8.toNat_ofNat']
  omega

theorem sextet₃_octet : sextet₃ (octet₂ r s) = s := by
  apply Fin.ext
  simp only [sextet₃, octet₂, Fin.ofNat, UInt8.toNat_ofNat']
  omega

theorem sextet₁_spare : (sextet₁ a 0).val % 16 = 0 := by
  have hzero : (0 : UInt8).toNat = 0 := rfl
  simp only [sextet₁, Fin.ofNat, hzero]
  omega

theorem sextet₂_spare : (sextet₂ b 0).val % 4 = 0 := by
  have hzero : (0 : UInt8).toNat = 0 := rfl
  simp only [sextet₂, Fin.ofNat, hzero]
  omega

variable {p q r}

theorem sextet₁_octet_spare (h : q.val % 16 = 0) : sextet₁ (octet₀ p q) 0 = q := by
  have hzero : (0 : UInt8).toNat = 0 := rfl
  apply Fin.ext
  simp only [sextet₁, octet₀, Fin.ofNat, UInt8.toNat_ofNat', hzero]
  omega

theorem sextet₂_octet_spare (h : r.val % 4 = 0) : sextet₂ (octet₁ q r) 0 = r := by
  have hzero : (0 : UInt8).toNat = 0 := rfl
  apply Fin.ext
  simp only [sextet₂, octet₁, Fin.ofNat, UInt8.toNat_ofNat', hzero]
  omega

end Bits

theorem octets?_sextets (data : List UInt8) : octets? (sextets data) = some data := by
  fun_induction sextets data with
  | case1 => rfl
  | case2 a => simp only [octets?, sextet₁_spare, if_true, octet₀_sextet]
  | case3 a b => simp only [octets?, sextet₂_spare, if_true, octet₀_sextet, octet₁_sextet]
  | case4 a b c rest ih =>
      simp only [octets?, ih, Option.map_some, octet₀_sextet, octet₁_sextet, octet₂_sextet]

theorem sextets_of_octets? {values : List (Fin 64)} {data : List UInt8}
    (h : octets? values = some data) : sextets data = values := by
  induction values using octets?.induct generalizing data with
  | case1 =>
      cases h
      rfl
  | case2 => cases h
  | case3 p q hspare =>
      simp only [octets?, hspare, if_true, Option.some.injEq] at h
      subst h
      simp only [sextets, sextet₀_octet, sextet₁_octet_spare hspare]
  | case4 p q hspare =>
      simp only [octets?, hspare, if_false] at h
      cases h
  | case5 p q r hspare =>
      simp only [octets?, hspare, if_true, Option.some.injEq] at h
      subst h
      simp only [sextets, sextet₀_octet, sextet₁_octet, sextet₂_octet_spare hspare]
  | case6 p q r hspare =>
      simp only [octets?, hspare, if_false] at h
      cases h
  | case7 p q r s rest ih =>
      obtain ⟨tail, htail, rfl⟩ := Option.map_eq_some_iff.mp h
      simp only [sextets, ih htail, sextet₀_octet, sextet₁_octet, sextet₂_octet, sextet₃_octet]

/-! ## Symbols -/

universe u

structure Alphabet (α : Type u) where
  symbol : Fin 64 → α
  injective : Function.Injective symbol

namespace Alphabet

variable {α : Type u} [DecidableEq α] (alphabet : Alphabet α)

def value? (x : α) : Option (Fin 64) :=
  (List.finRange 64).find? (alphabet.symbol · = x)

def encode (data : List UInt8) : List α := (sextets data).map alphabet.symbol

def decode? (text : List α) : Option (List UInt8) := do
  let values ← text.mapM alphabet.value?
  octets? values

variable {alphabet}

theorem symbol_of_value? {x : α} {v : Fin 64} (h : alphabet.value? x = some v) :
    alphabet.symbol v = x :=
  of_decide_eq_true (List.find?_some (p := fun v => decide (alphabet.symbol v = x)) h)

theorem value?_eq_some {x : α} {v : Fin 64} :
    alphabet.value? x = some v ↔ alphabet.symbol v = x := by
  constructor
  · exact symbol_of_value?
  · rintro rfl
    obtain ⟨v', hv'⟩ : ∃ v', alphabet.value? (alphabet.symbol v) = some v' := by
      rw [← Option.isSome_iff_exists, value?, List.find?_isSome]
      exact ⟨v, List.mem_finRange v, by simp⟩
    rw [hv', alphabet.injective (symbol_of_value? hv')]

theorem mapM_value? {text : List α} {values : List (Fin 64)} :
    text.mapM alphabet.value? = some values ↔ values.map alphabet.symbol = text := by
  induction text generalizing values with
  | nil =>
      rw [List.mapM_nil, List.map_eq_nil_iff]
      exact Option.some_inj.trans eq_comm
  | cons x text ih =>
      rw [List.mapM_cons]
      constructor
      · intro h
        obtain ⟨v, hv, htail⟩ := Option.bind_eq_some_iff.mp h
        obtain ⟨rest, hrest, hsome⟩ := Option.bind_eq_some_iff.mp htail
        cases hsome
        rw [List.map_cons, value?_eq_some.mp hv, ih.mp hrest]
      · intro h
        cases values with
        | nil => cases h
        | cons v rest =>
            obtain ⟨hv, hrest⟩ := List.cons.inj h
            rw [value?_eq_some.mpr hv, ih.mpr hrest]
            rfl

/-- A text is accepted just when it is an encoding, and then gives back what was encoded. -/
theorem decode?_eq_some {text : List α} {data : List UInt8} :
    alphabet.decode? text = some data ↔ text = alphabet.encode data := by
  constructor
  · intro h
    obtain ⟨values, hvalues, hdata⟩ := Option.bind_eq_some_iff.mp h
    rw [encode, sextets_of_octets? hdata, mapM_value?.mp hvalues]
  · rintro rfl
    exact Option.bind_eq_some_iff.mpr ⟨sextets data, mapM_value?.mpr rfl, octets?_sextets data⟩

end Alphabet

end Interlink.Foundation.Base64
