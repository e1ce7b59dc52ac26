import Interlink.Common.Error
import Interlink.Foundation.Words
import Interlink.Protocol.Detect

/-!
# HTTP/1.1 request lines

`validate_http11_request_line` cuts a line at its first two spaces and checks the three
parts.  A line that it accepts is exactly one of the grammar, and what the detector makes
of a stream that begins with such a line depends on the method alone.
-/

namespace Interlink

open Interlink.Foundation

namespace ProtocolDetector

/-! ## The validator -/

def http10 : List UInt8 := bytes "HTTP/1.0".toList

def http11 : List UInt8 := bytes "HTTP/1.1".toList

def isSpace (b : UInt8) : Bool := b == 32

def isMethodByte (b : UInt8) : Bool := isAsciiUppercase b || b == 45

/-- `strip_suffix(b"\r")`, or the whole. -/
def trimCr (version : List UInt8) : List UInt8 :=
  if version.getLast? = some 13 then version.dropLast else version

def validateHttp11RequestLine (line : List UInt8) : Except InterlinkError Unit :=
  match splitn isSpace 3 line with
  | [method, target, version] =>
      if method = [] ∨ ¬ method.all isMethodByte then
        .error (.protocol "invalid method token".toList)
      else if target = [] then .error (.protocol "empty request-target".toList)
      else if trimCr version ≠ http10 ∧ trimCr version ≠ http11 then
        .error (.protocol "unsupported HTTP version".toList)
      else .ok ()
  | _ => .error (.protocol "malformed request line".toList)

/-! ## The grammar -/

structure RequestLine where
  method : List UInt8
  target : List UInt8
  version : List UInt8
  carriageReturn : Bool
  method_ne_nil : method ≠ []
  method_bytes : ∀ b ∈ method, isMethodByte b = true
  target_ne_nil : target ≠ []
  target_bytes : ∀ b ∈ target, isSpace b = false
  version_known : version = http10 ∨ version = http11

namespace RequestLine

def ending (line : RequestLine) : List UInt8 :=
  line.version ++ if line.carriageReturn then [13] else []

def bytes (line : RequestLine) : List UInt8 :=
  line.method ++ 32 :: (line.target ++ 32 :: line.ending)

end RequestLine

theorem isSpace_of_isMethodByte {b : UInt8} (h : isMethodByte b = true) : isSpace b = false := by
  cases hspace : isSpace b with
  | false => rfl
  | true =>
      obtain rfl : b = 32 := by simpa [isSpace] using hspace
      exact absurd h (by decide)

variable {line : List UInt8}

/-! ## What is accepted -/

theorem trimCr_eq (version : List UInt8) :
    version = trimCr version ++ if version.getLast? = some 13 then [13] else [] := by
  unfold trimCr
  split
  · rename_i hlast
    exact (List.dropLast_append_getLast? 13 hlast).symm
  · exact (List.append_nil _).symm

namespace RequestLine

variable (request : RequestLine)

theorem method_space : ∀ b ∈ request.method, isSpace b = false :=
  fun b hb => isSpace_of_isMethodByte (request.method_bytes b hb)

theorem trimCr_ending : trimCr request.ending = request.version := by
  have hlast : request.version.getLast? ≠ some 13 := by
    rcases request.version_known with hversion | hversion <;> rw [hversion] <;> decide
  unfold trimCr ending
  cases request.carriageReturn with
  | true => simp
  | false => simp [hlast]

theorem splitn_bytes_append (rest : List UInt8) :
    splitn isSpace 3 (request.bytes ++ rest) =
      [request.method, request.target, request.ending ++ rest] := by
  have hsplit : request.bytes ++ rest =
      request.method ++ 32 :: (request.target ++ 32 :: (request.ending ++ rest)) := by
    simp [bytes]
  rw [hsplit, splitn_append 1 request.method_space rfl,
    splitn_append 0 request.target_bytes rfl]
  rfl

theorem validate : validateHttp11RequestLine request.bytes = .ok () := by
  have hparts := request.splitn_bytes_append []
  rw [List.append_nil, List.append_nil] at hparts
  have hmethod : ¬ (request.method = [] ∨ ¬ request.method.all isMethodByte) := by
    simpa [request.method_ne_nil] using request.method_bytes
  have hversion : ¬ (request.version ≠ http10 ∧ request.version ≠ http11) := by
    rintro ⟨h10, h11⟩
    exact request.version_known.elim h10 h11
  simp only [validateHttp11RequestLine, hparts, if_neg hmethod, if_neg request.target_ne_nil,
    request.trimCr_ending, if_neg hversion]

end RequestLine

theorem exists_requestLine (hok : validateHttp11RequestLine line = .ok ()) :
    ∃ request : RequestLine, request.bytes = line := by
  rcases splitn_three isSpace line with
    ⟨method, x, target, y, version, rfl, -, hx, htarget, hy, hsplit⟩ | ⟨-, hshort⟩
  · obtain rfl : x = 32 := by simpa [isSpace] using hx
    obtain rfl : y = 32 := by simpa [isSpace] using hy
    simp only [validateHttp11RequestLine, hsplit] at hok
    split_ifs at hok with hmethod hnil hversion
    push Not at hmethod
    refine ⟨{
      method
      target
      version := trimCr version
      carriageReturn := decide (version.getLast? = some 13)
      method_ne_nil := hmethod.1
      method_bytes := by simpa using hmethod.2
      target_ne_nil := hnil
      target_bytes := htarget
      version_known := by
        by_contra hother
        exact hversion (not_or.mp hother) }, ?_⟩
    simp only [RequestLine.bytes, RequestLine.ending, decide_eq_true_eq]
    rw [← trimCr_eq version]
  · simp only [validateHttp11RequestLine] at hok
    split at hok
    · rename_i hsplit
      rw [hsplit] at hshort
      exact absurd hshort (Nat.lt_irrefl 3)
    · cases hok

theorem malformed_iff :
    validateHttp11RequestLine line = .error (.protocol "malformed request line".toList) ↔
      line.countP isSpace < 2 := by
  rcases splitn_three isSpace line with
    ⟨method, x, target, y, version, rfl, -, hx, -, hy, hsplit⟩ | ⟨hfew, hshort⟩
  · have htwo : ¬ (method ++ x :: (target ++ y :: version)).countP isSpace < 2 := by
      rw [List.countP_append, List.countP_cons_of_pos hx, List.countP_append,
        List.countP_cons_of_pos hy]
      omega
    simp only [validateHttp11RequestLine, hsplit, htwo, iff_false]
    split_ifs <;> decide
  · simp only [hfew, iff_true, validateHttp11RequestLine]
    split
    · rename_i hsplit
      rw [hsplit] at hshort
      exact absurd hshort (Nat.lt_irrefl 3)
    · rfl

/-! ## What the detector makes of it -/

def pri : List UInt8 := bytes "PRI".toList

def star : List UInt8 := bytes "*".toList

def http2 : List UInt8 := bytes "HTTP/2".toList

namespace RequestLine

variable (request : RequestLine) (rest : List UInt8)

theorem length_version : request.version.length = 8 := by
  rcases request.version_known with hversion | hversion <;> rw [hversion] <;> decide

theorem length_bytes : 8 ≤ request.bytes.length := by
  simp only [bytes, ending, List.length_append, List.length_cons, request.length_version]
  omega

theorem not_preface : preface.isPrefixOf (request.bytes ++ rest) = false := by
  rw [Bool.eq_false_iff, Ne, List.isPrefixOf_iff_prefix]
  rintro ⟨tail, htail⟩
  have hpreface : preface ++ tail = pri ++ 32 :: (star ++ 32 :: (http2 ++ tail)) := rfl
  have hparts := congrArg (splitn isSpace 3) htail
  rw [hpreface, splitn_append 1 (not_sep_of_all (by decide)) rfl,
    splitn_append 0 (not_sep_of_all (by decide)) rfl, splitn_bytes_append] at hparts
  simp only [splitn, List.cons.injEq, and_true] at hparts
  have hsix : (http2 ++ tail).take 6 = (request.ending ++ rest).take 6 :=
    congrArg (List.take 6) hparts.2.2
  have hlength : 6 ≤ request.version.length := by
    rw [request.length_version]
    decide
  rw [List.take_append_of_le_length (by decide), ending, List.append_assoc,
    List.take_append_of_le_length hlength] at hsix
  rcases request.version_known with hknown | hknown <;> rw [hknown] at hsix <;>
    exact absurd hsix (by decide)

theorem sniffMethod_bytes :
    sniffMethod (request.bytes ++ rest) =
      (3 ≤ request.method.length && request.method.length ≤ 7 &&
        request.method.all isAsciiUppercase) := by
  have hsplit : request.bytes ++ rest =
      request.method ++ 32 :: (request.target ++ 32 :: (request.ending ++ rest)) := by
    simp [bytes]
  have hnone : request.method.findIdx? (· == 32) = none := by
    rw [List.findIdx?_eq_none_iff]
    exact request.method_space
  have hpos : (request.bytes ++ rest).findIdx? (· == 32) = some request.method.length := by
    rw [hsplit, List.findIdx?_append, hnone]
    simp [List.findIdx?_cons]
  simp only [sniffMethod, hpos]
  rw [hsplit, List.take_left]

end RequestLine

theorem RequestLine.detect_bytes_append (request : RequestLine) (rest : List UInt8) :
    detect (request.bytes ++ rest) =
      if 3 ≤ request.method.length ∧ request.method.length ≤ 7 ∧
        request.method.all isAsciiUppercase then .http11 else .tcp := by
  have hlength : 8 ≤ (request.bytes ++ rest).length :=
    Nat.le_trans request.length_bytes (by simp)
  have hfour : 4 ≤ (request.bytes ++ rest).length := by omega
  have hhead : request.method.all isAsciiUppercase = true →
      (request.bytes ++ rest).head?.any isAsciiUppercase = true := by
    intro hall
    obtain ⟨first, others, hmethod⟩ := List.exists_cons_of_ne_nil request.method_ne_nil
    simp only [RequestLine.bytes, hmethod, List.cons_append, List.head?_cons, Option.any_some]
    exact List.all_eq_true.mp hall first (by simp [hmethod])
  simp only [detect, Nat.not_lt.mpr hlength, if_false, request.not_preface rest,
    Bool.false_eq_true, hfour, decide_true, Bool.true_and, request.sniffMethod_bytes rest]
  by_cases hall : request.method.all isAsciiUppercase = true
  · simp only [hhead hall, hall, Bool.true_and, Bool.and_true, Bool.and_eq_true,
      decide_eq_true_eq, and_true]
  · simp [hall]

/--
A line is accepted just when it is a request line, is found malformed just when it has
fewer than two spaces, and a stream that begins with an accepted line is taken for
HTTP/1.1 just when its method is of three to seven letters: a method with a hyphen or
another length is accepted here and passed on as plain TCP.
-/
theorem requestLine_recognised :
    (∀ line, validateHttp11RequestLine line = .ok () ↔
        ∃ request : RequestLine, request.bytes = line) ∧
      (∀ line, validateHttp11RequestLine line = .error (.protocol "malformed request line".toList) ↔
        line.countP isSpace < 2) ∧
      ∀ (request : RequestLine) (rest : List UInt8),
        detect (request.bytes ++ rest) =
          if 3 ≤ request.method.length ∧ request.method.length ≤ 7 ∧
            request.method.all isAsciiUppercase then .http11 else .tcp := by
  refine ⟨fun line => ⟨exists_requestLine, ?_⟩, fun line => malformed_iff,
    RequestLine.detect_bytes_append⟩
  rintro ⟨request, rfl⟩
  exact request.validate

end ProtocolDetector

end Interlink
