import Interlink.Foundation.Utf8

/-!
# Protocol detection

`ProtocolDetector::detect` looks at the first bytes of a plaintext stream.  It is called
on whatever the first read has returned, so what it finds should not depend on how many
bytes came in.
-/

namespace Interlink

open Interlink.Foundation

inductive DetectedProtocol where
  | http11
  | http2
  | tcp
  deriving DecidableEq, Repr

namespace ProtocolDetector

def isAsciiUppercase (b : UInt8) : Bool := 65 ≤ b && b ≤ 90

def preface : List UInt8 := bytes "PRI * HTTP/2".toList

/-- A method token of three to seven letters in front of the first space. -/
def sniffMethod (buf : List UInt8) : Bool :=
  match buf.findIdx? (· == 32) with
  | some pos => 3 ≤ pos && pos ≤ 7 && (buf.take pos).all isAsciiUppercase
  | none => false

def detect (buf : List UInt8) : DetectedProtocol :=
  if buf.length < 8 then .tcp
  else if preface.isPrefixOf buf then .http2
  else if 4 ≤ buf.length && buf.head?.any isAsciiUppercase && sniffMethod buf then .http11
  else .tcp

variable {buf rest : List UInt8}

theorem sniffMethod_append (h : 8 ≤ buf.length) (rest : List UInt8) :
    sniffMethod (buf ++ rest) = sniffMethod buf := by
  unfold sniffMethod
  rw [List.findIdx?_append]
  cases hpos : buf.findIdx? (· == 32) with
  | some pos =>
      have hlt : pos < buf.length := (List.findIdx?_eq_some_iff_getElem.mp hpos).1
      simp only [Option.some_or, List.take_append_of_le_length (Nat.le_of_lt hlt)]
  | none =>
      simp only [Option.none_or]
      cases rest.findIdx? (· == 32) with
      | none => rfl
      | some pos =>
          have hlate : ¬ pos + buf.length ≤ 7 := by omega
          simp [hlate]

theorem isPrefixOf_append (hpart : buf <+: preface → buf = preface) (rest : List UInt8) :
    preface.isPrefixOf (buf ++ rest) = preface.isPrefixOf buf := by
  rw [Bool.eq_iff_iff, List.isPrefixOf_iff_prefix, List.isPrefixOf_iff_prefix]
  constructor
  · intro hlong
    rcases List.prefix_or_prefix_of_prefix hlong (List.prefix_append buf rest) with hbuf | hbuf
    · exact hbuf
    · exact (hpart hbuf).symm ▸ List.prefix_refl preface
  · intro hbuf
    exact hbuf.trans (List.prefix_append buf rest)

theorem detect_part : ∀ n < 12, 8 ≤ n → detect (preface.take n) = .http11 := by
  decide

/--
Once eight bytes have been read, the bytes behind them make no difference just when what
has been read is not the beginning of the HTTP/2 preface, or is all of it.
-/
theorem detect_append_iff (h : 8 ≤ buf.length) :
    (∀ rest, detect (buf ++ rest) = detect buf) ↔ (buf <+: preface → buf = preface) := by
  constructor
  · rintro hsame ⟨rest, hrest⟩
    by_contra hne
    have hlong : detect (buf ++ rest) = .http2 := by
      rw [hrest]
      decide
    have hlength : buf.length < 12 := by
      have hsum := congrArg List.length hrest
      have htotal : preface.length = 12 := by decide
      rw [List.length_append, htotal] at hsum
      have hrest' : rest ≠ [] := by
        rintro rfl
        exact hne (by simpa using hrest)
      have := List.length_pos_iff.mpr hrest'
      omega
    have hshort : detect buf = .http11 := by
      have hpart := detect_part buf.length hlength h
      rwa [← hrest, List.take_left] at hpart
    have := hsame rest
    rw [hlong, hshort] at this
    cases this
  · intro hpart rest
    have hlength : ¬ (buf ++ rest).length < 8 := by
      rw [List.length_append]
      omega
    have hhead : (buf ++ rest).head? = buf.head? := by
      rw [List.head?_append_of_ne_nil]
      rintro rfl
      exact absurd h (by decide)
    have hfour : 4 ≤ (buf ++ rest).length ∧ 4 ≤ buf.length := by
      rw [List.length_append]
      omega
    simp only [detect, hlength, Nat.not_lt.mpr h, if_false, isPrefixOf_append hpart,
      sniffMethod_append h, hhead, hfour.1, hfour.2]

theorem get_detected :
    8 ≤ (bytes "GET /api".toList).length ∧ ∀ rest,
      detect (bytes "GET /api".toList ++ rest) = detect (bytes "GET /api".toList) :=
  ⟨by decide, (detect_append_iff (by decide)).mpr (by decide)⟩

theorem preface_detected_late :
    8 ≤ (bytes "PRI * HT".toList).length ∧
      detect (bytes "PRI * HT".toList) = .http11 ∧
      detect (bytes "PRI * HT".toList ++ bytes "TP/2.0\r\n\r\nSM\r\n\r\n".toList) = .http2 := by
  decide

end ProtocolDetector

end Interlink
