import Interlink.Common.SocketText
import Interlink.Foundation.Decimal
import Interlink.Proxy.Construct

/-!
# The texts of upstream targets

An operator writes the default upstream as a host, alone or with a port.  A text that is
no socket address is cut at its last colon, which an IPv6 address without a port also has.
-/

namespace Interlink

open Interlink.Foundation

/-! ## Cutting at the last colon -/

section Split

variable {c : Char} {s name last : Str}

theorem rsplitOnce_append (h : c ∉ last) :
    rsplitOnce c (name ++ c :: last) = some (name, last) := by
  have hport : ((name ++ c :: last).reverse.takeWhile (· ≠ c)).reverse = last := by
    rw [List.reverse_append, List.reverse_cons, List.append_assoc,
      List.takeWhile_append_of_pos fun d hd => ?_]
    · simp
    · simp only [decide_eq_true_eq]
      rintro rfl
      exact h (List.mem_reverse.mp hd)
  simp only [rsplitOnce, hport]
  have hlength : (name ++ c :: last).length - last.length - 1 = name.length := by
    simp only [List.length_append, List.length_cons]
    omega
  rw [if_pos (by simp only [List.length_append, List.length_cons]; omega), hlength,
    List.take_left]

theorem rsplitOnce_of_not_mem (h : c ∉ s) : rsplitOnce c s = none := by
  have hall : s.reverse.takeWhile (· ≠ c) = s.reverse := by
    refine List.takeWhile_eq_self_iff.mpr fun d hd => ?_
    simp only [decide_eq_true_eq]
    rintro rfl
    exact h (List.mem_reverse.mp hd)
  simp only [rsplitOnce, hall, List.reverse_reverse]
  exact if_neg (Nat.lt_irrefl _)

theorem exists_last (h : c ∈ s) : ∃ name last, s = name ++ c :: last ∧ c ∉ last := by
  obtain ⟨last, name, hsplit, hlast⟩ := List.eq_append_cons_of_mem (List.mem_reverse.mpr h)
  refine ⟨name.reverse, last.reverse, ?_, fun hmem => hlast (List.mem_reverse.mp hmem)⟩
  rw [← List.reverse_reverse s, hsplit]
  simp

end Split

/-! ## Ports -/

section Ports

variable {s : Str}

theorem parsePort_eq_some {port : UInt16} : parsePort s = some port ↔
    ∃ digits, (s = digits ∨ s = '+' :: digits) ∧ digits ≠ [] ∧
      (∀ c ∈ digits, c.isDigit = true) ∧ Nat.ofDigitChars 10 digits 0 < 65536 ∧
        (Nat.ofDigitChars 10 digits 0).toUInt16 = port := by
  rw [parsePort, Option.map_eq_some_iff]
  constructor
  · rintro ⟨n, hparse, rfl⟩
    obtain ⟨digits, hs, hne, hdigits, rfl, hlt⟩ :=
      (Decimal.parseUnsigned_eq_ok (by decide)).mp (toOption_eq_some.mp hparse)
    exact ⟨digits, hs, hne, hdigits, hlt, rfl⟩
  · rintro ⟨digits, hs, hne, hdigits, hlt, rfl⟩
    have hparse := (Decimal.parseUnsigned_eq_ok (by decide)).mpr
      ⟨digits, hs, hne, hdigits, rfl, hlt⟩
    exact ⟨_, toOption_eq_some.mpr hparse, rfl⟩

theorem parsePort_toDigits (port : UInt16) :
    parsePort (Nat.toDigits 10 port.toNat) = some port := by
  have hlt : port.toNat < 65536 := port.toNat_lt
  rw [parsePort, Decimal.parseUnsigned_toDigits hlt]
  exact congrArg some port.ofNat_toNat

theorem parsePort_eq_none (hplus : '+' ∉ s)
    (h : ¬ (s ≠ [] ∧ ∀ c ∈ s, c.isDigit = true)) : parsePort s = none := by
  refine Option.eq_none_iff_forall_ne_some.mpr fun port hport => ?_
  obtain ⟨digits, rfl | rfl, hne, hdigits, -⟩ := parsePort_eq_some.mp hport
  · exact h ⟨hne, hdigits⟩
  · exact hplus List.mem_cons_self

end Ports

/-! ## Hosts and their texts -/

inductive HostKind where
  | dns
  | ipv4 (ip : BitVec 32)
  | ipv6 (ip : BitVec 128)
  deriving DecidableEq, Repr

namespace HostKind

def IsHost (name : Str) : HostKind → Prop
  | dns => name ≠ [] ∧ ':' ∉ name ∧ parseIpv4Addr name = none
  | ipv4 ip => parseIpv4Addr name = some ip
  | ipv6 ip => parseIpv6Addr name = some ip

/-- Brackets keep an IPv6 address apart from its port. -/
def usualText (name : Str) : HostKind → Option UInt16 → Str
  | ipv6 _, some port => hostText ('[' :: name ++ [']']) (some port)
  | _, port => hostText name port

def target (name : Str) : HostKind → Option UInt16 → UpstreamTarget
  | ipv4 ip, some port => .socket ⟨.v4 ip, port⟩
  | ipv6 ip, some port => .socket ⟨.v6 ip, port⟩
  | _, port => .host name port

instance (name : Str) (kind : HostKind) : Decidable (kind.IsHost name) := by
  cases kind <;> unfold IsHost <;> infer_instance

/-- The last group of an IPv6 address without a port is written with decimal digits. -/
def PortLike (name : Str) : HostKind → Option UInt16 → Prop
  | ipv6 _, none => ∃ head digits, name = head ++ ':' :: digits ∧ digits ≠ [] ∧
      ∀ c ∈ digits, c.isDigit = true
  | _, _ => False

end HostKind

namespace UpstreamTarget

variable {s name : Str}

theorem hostText_some (name : Str) (port : UInt16) :
    hostText name (some port) = name ++ ':' :: Nat.toDigits 10 port.toNat := by
  simp [hostText]

theorem fromConfig_socket {address : SocketAddr} (h : parseSocketAddr s = some address) :
    fromConfig parseSocketAddr (some s) = some (.socket address) := by
  have hne : s ≠ [] := by
    rintro rfl
    cases h
  simp [fromConfig, hne, h]

theorem fromConfig_of_not_mem (hne : s ≠ []) (h : ':' ∉ s) :
    fromConfig parseSocketAddr (some s) = some (.host s none) := by
  simp [fromConfig, hne, parseSocketAddr_of_not_mem h, rsplitOnce_of_not_mem h]

theorem fromConfig_append {last : Str} (hlast : ':' ∉ last)
    (h : parseSocketAddr (name ++ ':' :: last) = none) :
    fromConfig parseSocketAddr (some (name ++ ':' :: last)) =
      some ((parsePort last).elim (.host (name ++ ':' :: last) none) fun port =>
        .host name (some port)) := by
  have hne : name ++ ':' :: last ≠ [] := by simp
  rw [fromConfig, Option.filter_some, if_pos (decide_eq_true hne)]
  simp only [Option.map_some, h, rsplitOnce_append hlast]
  cases parsePort last with
  | none => rfl
  | some port => rfl

/--
The last group is taken for a port if it is written with decimal digits, of which there
are too few for it to be too large.
-/
theorem fromConfig_ipv6 {ip : BitVec 128} (h : parseIpv6Addr name = some ip) :
    fromConfig parseSocketAddr (some name) = some (.host name none) ↔
      ¬ HostKind.PortLike name (.ipv6 ip) none := by
  have hnone : parseSocketAddr name = none := parseSocketAddr_of_ipv6 h
  have hcount := AddrParser.two_le_count_of_readIpv6Addr (Reader.parseWith_eq_some.mp h)
  have hplus : '+' ∉ name :=
    not_mem_of_parseIpv6Addr h ⟨by decide, by decide, by decide, by decide⟩
  have hcolon : ':' ∈ name := List.count_pos_iff.mp (by omega)
  obtain ⟨head, last, rfl, hlast⟩ := exists_last hcolon
  have hlastPlus : '+' ∉ last := fun hmem => hplus (by simp [hmem])
  rw [fromConfig_append hlast hnone]
  by_cases hdigits : last ≠ [] ∧ ∀ c ∈ last, c.isDigit = true
  · have hlength : last.length ≤ 4 := length_le_four h hdigits.2
    have hlt : Nat.ofDigitChars 10 last 0 < 65536 :=
      calc Nat.ofDigitChars 10 last 0 < (0 + 1) * 10 ^ last.length :=
            Decimal.ofDigitChars_lt hdigits.2 0
        _ ≤ (0 + 1) * 10 ^ 4 := Nat.mul_le_mul_left _ (Nat.pow_le_pow_right (by decide) hlength)
        _ < 65536 := by decide
    have hport := parsePort_eq_some.mpr ⟨last, .inl rfl, hdigits.1, hdigits.2, hlt, rfl⟩
    rw [hport, Option.elim_some]
    refine iff_of_false ?_ (not_not_intro ⟨head, last, rfl, hdigits⟩)
    simp only [Option.some.injEq, host.injEq, reduceCtorEq, and_false, not_false_eq_true]
  · rw [parsePort_eq_none hlastPlus hdigits, Option.elim_none]
    refine iff_of_true rfl ?_
    rintro ⟨other, digits, heq, hother⟩
    have hcolon : ':' ∉ digits := fun hmem => absurd (hother.2 ':' hmem) (by decide)
    have hsame : rsplitOnce ':' (other ++ ':' :: digits) = some (other, digits) :=
      rsplitOnce_append hcolon
    rw [← heq, rsplitOnce_append hlast] at hsame
    cases hsame
    exact hdigits hother

theorem not_mem_toDigits (n : Nat) : ':' ∉ Nat.toDigits 10 n := by
  intro hmem
  exact absurd (Decimal.isDigit_toDigits n ':' hmem) (by decide)

theorem fromConfig_dns (hcolon : ':' ∉ name) (hname : parseIpv4Addr name = none) (port : UInt16) :
    fromConfig parseSocketAddr (some (hostText name (some port))) =
      some (.host name (some port)) := by
  have hlast := not_mem_toDigits port.toNat
  rw [hostText_some, fromConfig_append hlast (parseSocketAddr_of_name hcolon hlast hname),
    parsePort_toDigits, Option.elim_some]

/--
The text of a host gives the host back, except where the last group of an IPv6 address
can be taken for a port.
-/
theorem fromConfig_denotes_iff (name : Str) (kind : HostKind) (port : Option UInt16)
    (h : kind.IsHost name) :
    fromConfig parseSocketAddr (some (kind.usualText name port)) = some (kind.target name port) ↔
      ¬ kind.PortLike name port := by
  cases kind with
  | dns =>
      obtain ⟨hne, hcolon, hname⟩ := h
      cases port with
      | none => exact iff_of_true (fromConfig_of_not_mem hne hcolon) id
      | some port => exact iff_of_true (fromConfig_dns hcolon hname port) id
  | ipv4 ip =>
      have hcolon : ':' ∉ name := not_mem_of_parseIpv4Addr h (by decide) (by decide)
      have hne : name ≠ [] := by
        rintro rfl
        cases h
      cases port with
      | none => exact iff_of_true (fromConfig_of_not_mem hne hcolon) id
      | some port =>
          have hsocket := fromConfig_socket (parseSocketAddr_ipv4 h port)
          rw [← hostText_some] at hsocket
          exact iff_of_true hsocket id
  | ipv6 ip =>
      cases port with
      | none => exact fromConfig_ipv6 h
      | some port =>
          have hsocket := fromConfig_socket (parseSocketAddr_ipv6 h port)
          rw [← hostText_some] at hsocket
          exact iff_of_true hsocket id

theorem serviceAddress_denoted :
    HostKind.IsHost "10.96.0.1".toList (.ipv4 0x0A600001) ∧
      fromConfig parseSocketAddr (some "10.96.0.1:8080".toList) =
        some (.socket ⟨.v4 0x0A600001, 8080⟩) := by
  have hhost : HostKind.IsHost "10.96.0.1".toList (.ipv4 0x0A600001) := by decide
  exact ⟨hhost, (fromConfig_denotes_iff "10.96.0.1".toList (.ipv4 0x0A600001) (some 8080) hhost).mpr
    id⟩

theorem loopback_cut :
    HostKind.IsHost "::1".toList (.ipv6 1) ∧
      fromConfig parseSocketAddr (some (HostKind.usualText "::1".toList (.ipv6 1) none)) =
        some (.host ":".toList (some 1)) ∧
      fromConfig parseSocketAddr (some (HostKind.usualText "::1".toList (.ipv6 1) none)) ≠
        some (HostKind.target "::1".toList (.ipv6 1) none) := by
  decide

end UpstreamTarget

end Interlink
