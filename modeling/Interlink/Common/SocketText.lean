import Interlink.Common.Error
import Interlink.Foundation.Reader

/-!
# The texts of socket addresses

The parsers of IP and socket addresses of the standard library, which the proxies use
through `str::parse`.  The scope of an IPv6 address is read and not kept.
-/

namespace Interlink

open Interlink.Foundation

namespace AddrParser

/-! ## The parsers -/

def readOctet : Reader Nat := Reader.number 10 256 (some 3) false

def readIpv4Addr : Reader (BitVec 32) := do
  let a ← readOctet
  Reader.givenChar '.'
  let b ← readOctet
  Reader.givenChar '.'
  let c ← readOctet
  Reader.givenChar '.'
  let d ← readOctet
  return BitVec.ofNat 32 (((a * 256 + b) * 256 + c) * 256 + d)

def readGroup : Reader Nat := Reader.number 16 65536 (some 4) true

def readSeparator {α : Type} (first : Bool) (inner : Reader α) : Reader α :=
  if first then inner
  else do
    Reader.givenChar ':'
    inner

def groupsOfIpv4 (address : BitVec 32) : List Nat :=
  [address.toNat / 65536, address.toNat % 65536]

/--
A chunk of an IPv6 address with at most so many groups; an IPv4 address, which is two
groups, ends it.  The answer says whether it did.
-/
def readGroups (first : Bool) : Nat → Str → List Nat × Bool × Str
  | 0, s => ([], false, s)
  | slots + 1, s =>
      match (if 0 < slots then readSeparator first readIpv4Addr s else none) with
      | some (address, rest) => (groupsOfIpv4 address, true, rest)
      | none =>
          match readSeparator first readGroup s with
          | some (group, rest) =>
              let (groups, ipv4, rest) := readGroups false slots rest
              (group :: groups, ipv4, rest)
          | none => ([], false, s)

def ofGroups (groups : List Nat) : BitVec 128 :=
  BitVec.ofNat 128 (groups.foldl (fun n group => 65536 * n + group) 0)

def readIpv6Addr : Reader (BitVec 128) := fun s =>
  let (head, headIpv4, rest) := readGroups true 8 s
  if head.length = 8 then some (ofGroups head, rest)
  else if headIpv4 then none
  else
    match (do Reader.givenChar ':'; Reader.givenChar ':' : Reader Unit) rest with
    | some ((), rest) =>
        let (tail, _, rest) := readGroups true (7 - head.length) rest
        some (ofGroups (head ++ List.replicate (8 - head.length - tail.length) 0 ++ tail), rest)
    | none => none

def readIpAddr : Reader IpAddr := fun s =>
  ((readIpv4Addr s).map fun (address, rest) => (.v4 address, rest)).or
    ((readIpv6Addr s).map fun (address, rest) => (.v6 address, rest))

def readPort : Reader UInt16 := do
  Reader.givenChar ':'
  let port ← Reader.number 10 65536 none true
  return port.toUInt16

def readScopeId : Reader Nat := do
  Reader.givenChar '%'
  Reader.number 10 (2 ^ 32) none true

def readSocketAddrV4 : Reader SocketAddr := do
  let address ← readIpv4Addr
  let port ← readPort
  return ⟨.v4 address, port⟩

/-- A scope that cannot be read is no scope. -/
def skipScopeId : Reader Unit := fun s =>
  match readScopeId s with
  | some (_, rest) => some ((), rest)
  | none => some ((), s)

def readSocketAddrV6 : Reader SocketAddr := do
  Reader.givenChar '['
  let address ← readIpv6Addr
  skipScopeId
  Reader.givenChar ']'
  let port ← readPort
  return ⟨.v6 address, port⟩

def readSocketAddr : Reader SocketAddr := fun s =>
  (readSocketAddrV4 s).or (readSocketAddrV6 s)

end AddrParser

open AddrParser

def parseIpv4Addr (s : Str) : Option (BitVec 32) :=
  Reader.parseWith readIpv4Addr s

def parseIpv6Addr (s : Str) : Option (BitVec 128) :=
  Reader.parseWith readIpv6Addr s

def parseIpAddr (s : Str) : Option IpAddr :=
  Reader.parseWith readIpAddr s

def parseSocketAddr (s : Str) : Option SocketAddr :=
  Reader.parseWith readSocketAddr s

namespace AddrParser

variable {α : Type} {c : Char} {s t rest : Str} {first : Bool} {inner : Reader α} {slots : Nat}
  {groups : List Nat} {ipv4 : Bool}

/-! ## Characters at which the parsers stop -/

structure Foreign (c : Char) : Prop where
  decimal : Reader.toDigit 10 c = none
  hex : Reader.toDigit 16 c = none
  dot : c ≠ '.'
  colon : c ≠ ':'

theorem stops_readIpv4Addr (hdecimal : Reader.toDigit 10 c = none) (hdot : c ≠ '.') :
    Reader.Stops c readIpv4Addr := by
  have hoctet : Reader.Stops c readOctet := Reader.stops_number hdecimal
  have hgiven : Reader.Stops c (Reader.givenChar '.') := Reader.stops_givenChar hdot
  exact hoctet.bind fun _ => hgiven.bind fun _ => hoctet.bind fun _ => hgiven.bind fun _ =>
    hoctet.bind fun _ => hgiven.bind fun _ => hoctet.bind fun _ => Reader.stops_pure c _

theorem stops_readSeparator (hcolon : c ≠ ':') (h : Reader.Stops c inner) :
    Reader.Stops c (readSeparator first inner) := by
  cases first with
  | true => exact h
  | false => exact (Reader.stops_givenChar hcolon).bind fun _ => h

theorem readGroups_append (hc : Foreign c) (first : Bool) (slots : Nat) (s t : Str) :
    readGroups first slots (s ++ c :: t) =
      ((readGroups first slots s).1, (readGroups first slots s).2.1,
        (readGroups first slots s).2.2 ++ c :: t) := by
  induction slots generalizing first s with
  | zero => rfl
  | succ slots ih =>
      have hipv4 : Reader.Stops c (readSeparator first readIpv4Addr) :=
        stops_readSeparator hc.colon (stops_readIpv4Addr hc.decimal hc.dot)
      have hgroup : Reader.Stops c (readSeparator first readGroup) :=
        stops_readSeparator hc.colon (Reader.stops_number hc.hex)
      have hlast : (if 0 < slots then readSeparator first readIpv4Addr (s ++ c :: t) else none) =
          (if 0 < slots then readSeparator first readIpv4Addr s else none).map
            fun r => (r.1, r.2 ++ c :: t) := by
        split
        next => exact hipv4 s t
        next => rfl
      simp only [readGroups, hlast, hgroup s t]
      cases (if 0 < slots then readSeparator first readIpv4Addr s else none) with
      | some read => rfl
      | none =>
          cases readSeparator first readGroup s with
          | none => rfl
          | some read => simp only [Option.map_some, Option.map_none, ih]

theorem stops_readIpv6Addr (hc : Foreign c) : Reader.Stops c readIpv6Addr := by
  have hcolons : Reader.Stops c (do Reader.givenChar ':'; Reader.givenChar ':' : Reader Unit) :=
    (Reader.stops_givenChar hc.colon).bind fun _ => Reader.stops_givenChar hc.colon
  intro s t
  simp only [readIpv6Addr, readGroups_append hc]
  split
  next => rfl
  next =>
    split
    next => rfl
    next =>
      rw [hcolons]
      cases (do Reader.givenChar ':'; Reader.givenChar ':' : Reader Unit)
          (readGroups true 8 s).2.2 with
      | none => rfl
      | some read => simp only [Option.map_some, readGroups_append hc]

/-! ## What is left -/

theorem shrinks_readIpv4Addr : Reader.Shrinks readIpv4Addr := by
  have hoctet : Reader.Shrinks readOctet := Reader.shrinks_number
  have hgiven : Reader.Shrinks (Reader.givenChar '.') := Reader.shrinks_givenChar '.'
  exact hoctet.bind fun _ => hgiven.bind fun _ => hoctet.bind fun _ => hgiven.bind fun _ =>
    hoctet.bind fun _ => hgiven.bind fun _ => hoctet.bind fun _ => Reader.shrinks_pure _

theorem readGroups_cases (first : Bool) (slots : Nat) (s : Str) :
    (∃ address rest, readSeparator first readIpv4Addr s = some (address, rest) ∧
      readGroups first (slots + 1) s = (groupsOfIpv4 address, true, rest)) ∨
    (∃ group rest, readSeparator first readGroup s = some (group, rest) ∧
      readGroups first (slots + 1) s =
        (group :: (readGroups false slots rest).1, (readGroups false slots rest).2)) ∨
    readGroups first (slots + 1) s = ([], false, s) := by
  simp only [readGroups]
  split
  next address rest hlast =>
    split at hlast
    next => exact .inl ⟨address, rest, hlast, rfl⟩
    next => cases hlast
  next =>
    split
    next group rest hgroup => exact .inr (.inl ⟨group, rest, hgroup, rfl⟩)
    next => exact .inr (.inr rfl)

theorem shrinks_readSeparator (h : Reader.Shrinks inner) :
    Reader.Shrinks (readSeparator first inner) := by
  cases first with
  | true => exact h
  | false => exact (Reader.shrinks_givenChar ':').bind fun _ => h

theorem readGroups_suffix (first : Bool) (slots : Nat) (s : Str) :
    (readGroups first slots s).2.2 <:+ s := by
  induction slots generalizing first s with
  | zero => exact List.suffix_refl s
  | succ slots ih =>
      rcases readGroups_cases first slots s with ⟨address, rest, hread, heq⟩ |
        ⟨group, rest, hread, heq⟩ | heq
      · rw [heq]
        exact shrinks_readSeparator shrinks_readIpv4Addr s address rest hread
      · rw [heq]
        exact (ih false rest).trans
          (shrinks_readSeparator Reader.shrinks_number s group rest hread)
      · rw [heq]

theorem count_readSeparator {a : α} (hinner : Reader.Shrinks inner)
    (h : readSeparator first inner s = some (a, rest)) :
    rest.count ':' + 1 ≤ s.count ':' + first.toNat := by
  cases first with
  | true => exact Nat.add_le_add_right ((hinner s a rest h).sublist.count_le ':') 1
  | false =>
      obtain ⟨⟨⟩, left, hgiven, hleft⟩ := Reader.bind_eq_some.mp h
      rw [Reader.givenChar_eq_some.mp hgiven, List.count_cons_self]
      exact Nat.add_le_add_right ((hinner left a rest hleft).sublist.count_le ':') 1

/-- All groups but the first take a colon; an IPv4 address is two groups and takes one. -/
theorem count_readGroups (first : Bool) (slots : Nat) (s : Str) :
    (readGroups first slots s).2.2.count ':' + (readGroups first slots s).1.length ≤
      s.count ':' + first.toNat + (readGroups first slots s).2.1.toNat := by
  induction slots generalizing first s with
  | zero => simp [readGroups]
  | succ slots ih =>
      rcases readGroups_cases first slots s with ⟨address, rest, hread, heq⟩ |
        ⟨group, rest, hread, heq⟩ | heq
      · have hcount := count_readSeparator shrinks_readIpv4Addr hread
        rw [heq]
        simp only [groupsOfIpv4, List.length_cons, List.length_nil, Bool.toNat_true]
        omega
      · have hcount := count_readSeparator Reader.shrinks_number hread
        have hrest := ih false rest
        rw [heq]
        simp only [List.length_cons, Bool.toNat_false] at hrest ⊢
        omega
      · rw [heq]
        simp

theorem of_readIpv6Addr {address : BitVec 128} (h : readIpv6Addr s = some (address, rest)) :
    (readGroups true 8 s).1.length = 8 ∧ rest = (readGroups true 8 s).2.2 ∨
    (readGroups true 8 s).2.1 = false ∧ ∃ left slots,
      (readGroups true 8 s).2.2 = ':' :: ':' :: left ∧
        rest = (readGroups true slots left).2.2 := by
  simp only [readIpv6Addr] at h
  split at h
  next hlength =>
    cases h
    exact .inl ⟨hlength, rfl⟩
  next =>
    split at h
    next => cases h
    next hipv4 =>
      split at h
      next left hcolons =>
        cases h
        obtain ⟨⟨⟩, between, hfirst, hsecond⟩ := Reader.bind_eq_some.mp hcolons
        refine .inr ⟨Bool.eq_false_iff.mpr hipv4, left, _, ?_, rfl⟩
        rw [Reader.givenChar_eq_some.mp hfirst, Reader.givenChar_eq_some.mp hsecond]
      next => cases h

theorem two_le_count_of_readIpv6Addr {address : BitVec 128}
    (h : readIpv6Addr s = some (address, rest)) : rest.count ':' + 2 ≤ s.count ':' := by
  rcases of_readIpv6Addr h with ⟨hlength, rfl⟩ | ⟨-, left, slots, hcolons, rfl⟩
  · have hcount := count_readGroups true 8 s
    have hipv4 := Bool.toNat_le (readGroups true 8 s).2.1
    simp only [hlength, Bool.toNat_true] at hcount
    omega
  · have hleft := (readGroups_suffix true slots left).sublist.count_le ':'
    have hs := (readGroups_suffix true 8 s).sublist.count_le ':'
    rw [hcolons, List.count_cons_self, List.count_cons_self] at hs
    omega

theorem readGroups_of_ipv4 {address : BitVec 32}
    (h : readSeparator first readIpv4Addr s = some (address, rest)) (slots : Nat) :
    readGroups first (slots + 2) s = (groupsOfIpv4 address, true, rest) := by
  rw [readGroups, if_pos (Nat.succ_pos slots), h]

theorem readIpv4Addr_eq_none {address : BitVec 128} (h : readIpv6Addr s = some (address, rest)) :
    readIpv4Addr s = none := by
  cases hread : readIpv4Addr s with
  | none => rfl
  | some read =>
      have hfirst : readSeparator true readIpv4Addr s = some (read.1, read.2) := hread
      have hgroups := readGroups_of_ipv4 hfirst 6
      rcases of_readIpv6Addr h with ⟨hlength, -⟩ | ⟨hipv4, -⟩
      · rw [hgroups] at hlength
        cases hlength
      · rw [hgroups] at hipv4
        cases hipv4

/-! ## The last group -/

theorem readSeparator_leadsTo {a : α} (hinner : Reader.Stops ':' inner) (hnone : inner t = none)
    (hcolon : ∀ rest, t ≠ ':' :: rest) (hs : Reader.LeadsTo ':' t s)
    (h : readSeparator first inner s = some (a, rest)) : Reader.LeadsTo ':' t rest := by
  cases first with
  | true => exact hinner.leadsTo hnone hs h
  | false =>
      obtain ⟨⟨⟩, left, hgiven, hleft⟩ := Reader.bind_eq_some.mp h
      exact hinner.leadsTo hnone (Reader.leadsTo_givenChar hcolon hs hgiven) hleft

theorem readGroups_leadsTo (hipv4 : readIpv4Addr t = none) (hgroup : readGroup t = none)
    (hcolon : ∀ rest, t ≠ ':' :: rest) (first : Bool) (slots : Nat)
    (hs : Reader.LeadsTo ':' t s) : Reader.LeadsTo ':' t (readGroups first slots s).2.2 := by
  induction slots generalizing first s with
  | zero => exact hs
  | succ slots ih =>
      rcases readGroups_cases first slots s with ⟨address, rest, hread, heq⟩ |
        ⟨group, rest, hread, heq⟩ | heq
      · rw [heq]
        exact readSeparator_leadsTo (stops_readIpv4Addr (by decide) (by decide)) hipv4 hcolon hs
          hread
      · rw [heq]
        exact ih false (readSeparator_leadsTo (Reader.stops_number (by decide)) hgroup hcolon hs
          hread)
      · rw [heq]
        exact hs

theorem readIpv6Addr_leadsTo (hipv4 : readIpv4Addr t = none) (hgroup : readGroup t = none)
    (hcolon : ∀ rest, t ≠ ':' :: rest) {address : BitVec 128}
    (h : readIpv6Addr s = some (address, rest)) (hs : Reader.LeadsTo ':' t s) :
    Reader.LeadsTo ':' t rest := by
  have hhead := readGroups_leadsTo hipv4 hgroup hcolon true 8 hs
  rcases of_readIpv6Addr h with ⟨-, rfl⟩ | ⟨-, left, slots, hcolons, rfl⟩
  · exact hhead
  · rw [hcolons] at hhead
    have hsecond : Reader.LeadsTo ':' t (':' :: left) :=
      Reader.leadsTo_givenChar hcolon hhead (Reader.givenChar_eq_some.mpr rfl)
    exact readGroups_leadsTo hipv4 hgroup hcolon true slots
      (Reader.leadsTo_givenChar hcolon hsecond (Reader.givenChar_eq_some.mpr rfl))

end AddrParser

section Literals

variable {s : Str} {address : BitVec 128}

theorem not_mem_of_parseIpv4Addr {c : Char} {address : BitVec 32}
    (h : parseIpv4Addr s = some address) (hdecimal : Reader.toDigit 10 c = none) (hdot : c ≠ '.') :
    c ∉ s :=
  (stops_readIpv4Addr hdecimal hdot).not_mem (Reader.parseWith_eq_some.mp h)

theorem not_mem_of_parseIpv6Addr {c : Char} (h : parseIpv6Addr s = some address)
    (hc : Foreign c) : c ∉ s :=
  (stops_readIpv6Addr hc).not_mem (Reader.parseWith_eq_some.mp h)

theorem length_le_four {name digits : Str}
    (h : parseIpv6Addr (name ++ ':' :: digits) = some address)
    (hdigits : ∀ c ∈ digits, c.isDigit = true) : digits.length ≤ 4 := by
  by_contra hlong
  have hlong : 4 < digits.length := by omega
  have hoctet : readOctet digits = none := Reader.number_eq_none (by decide) hdigits (by omega)
  have hipv4 : readIpv4Addr digits = none := by
    change (readOctet digits).bind _ = none
    rw [hoctet]
    rfl
  have hgroup : readGroup digits = none := Reader.number_eq_none (by decide) hdigits hlong
  have hcolon : ∀ rest, digits ≠ ':' :: rest := by
    rintro rest rfl
    exact absurd (hdigits ':' (by simp)) (by decide)
  have hleads : Reader.LeadsTo ':' digits [] :=
    readIpv6Addr_leadsTo hipv4 hgroup hcolon (Reader.parseWith_eq_some.mp h)
      (.inr ⟨name, rfl⟩)
  exact hleads.ne_nil (by rintro rfl; cases hlong) rfl

end Literals

/-! ## Socket addresses -/

namespace AddrParser

variable {s rest : Str} {address : SocketAddr}

theorem readPort_toDigits (port : UInt16) :
    readPort (':' :: Nat.toDigits 10 port.toNat) = some (port, []) := by
  have hlt : Nat.ofDigitChars 10 (Nat.toDigits 10 port.toNat) 0 < 65536 := by
    rw [Nat.ofDigitChars_ten_toDigits]
    exact port.toNat_lt
  have hnumber := Reader.number_decimal Nat.toDigits_ne_nil (Decimal.isDigit_toDigits port.toNat)
    hlt
  rw [Nat.ofDigitChars_ten_toDigits] at hnumber
  refine Reader.bind_eq_some.mpr ⟨(), _, Reader.givenChar_eq_some.mpr rfl, ?_⟩
  refine Reader.bind_eq_some.mpr ⟨_, _, hnumber, ?_⟩
  exact Reader.pure_eq_some.mpr ⟨port.ofNat_toNat, rfl⟩

theorem of_readPort {port : UInt16} (h : readPort s = some (port, rest)) :
    ∃ left, s = ':' :: left := by
  obtain ⟨⟨⟩, left, hgiven, -⟩ := Reader.bind_eq_some.mp h
  exact ⟨left, Reader.givenChar_eq_some.mp hgiven⟩

theorem of_readSocketAddrV4 (h : readSocketAddrV4 s = some (address, rest)) :
    ∃ ip left, readIpv4Addr s = some (ip, ':' :: left) := by
  obtain ⟨ip, left, hip, h⟩ := Reader.bind_eq_some.mp h
  obtain ⟨port, _, hport, -⟩ := Reader.bind_eq_some.mp h
  obtain ⟨digits, rfl⟩ := of_readPort hport
  exact ⟨ip, digits, hip⟩

theorem skipScopeId_suffix (h : skipScopeId s = some ((), rest)) : rest <:+ s := by
  have hshrinks : Reader.Shrinks readScopeId :=
    (Reader.shrinks_givenChar '%').bind fun _ => Reader.shrinks_number
  unfold skipScopeId at h
  split at h
  next hread =>
    cases h
    exact hshrinks _ _ _ hread
  next =>
    cases h
    exact List.suffix_refl s

/--
A socket address of the sixth version has a bracket, at least two colons and the colon of
the port.
-/
theorem of_readSocketAddrV6 (h : readSocketAddrV6 s = some (address, rest)) :
    '[' ∈ s ∧ 3 ≤ s.count ':' := by
  obtain ⟨⟨⟩, inner, hopen, h⟩ := Reader.bind_eq_some.mp h
  obtain ⟨ip, left, hip, h⟩ := Reader.bind_eq_some.mp h
  obtain ⟨⟨⟩, bracket, hscope, h⟩ := Reader.bind_eq_some.mp h
  obtain ⟨⟨⟩, closed, hclose, h⟩ := Reader.bind_eq_some.mp h
  obtain ⟨port, _, hport, -⟩ := Reader.bind_eq_some.mp h
  obtain ⟨digits, rfl⟩ := of_readPort hport
  have hinner := two_le_count_of_readIpv6Addr hip
  have hleft := (skipScopeId_suffix hscope).sublist.count_le ':'
  rw [Reader.givenChar_eq_some.mp hclose, List.count_cons_of_ne (by decide),
    List.count_cons_self] at hleft
  rw [Reader.givenChar_eq_some.mp hopen, List.count_cons_of_ne (by decide)]
  exact ⟨List.mem_cons_self, by omega⟩

end AddrParser

section Sockets

variable {s : Str}

theorem of_parseSocketAddr {address : SocketAddr} (h : parseSocketAddr s = some address) :
    (∃ ip left, readIpv4Addr s = some (ip, ':' :: left)) ∨ '[' ∈ s ∧ 3 ≤ s.count ':' := by
  rcases Option.or_eq_some_iff.mp (Reader.parseWith_eq_some.mp h) with hv4 | ⟨-, hv6⟩
  · exact .inl (of_readSocketAddrV4 hv4)
  · exact .inr (of_readSocketAddrV6 hv6)

theorem parseSocketAddr_ipv4 {ip : BitVec 32} (h : parseIpv4Addr s = some ip) (port : UInt16) :
    parseSocketAddr (s ++ ':' :: Nat.toDigits 10 port.toNat) = some ⟨.v4 ip, port⟩ := by
  have hstops : Reader.Stops ':' readIpv4Addr := stops_readIpv4Addr (by decide) (by decide)
  have hip := hstops.read_append (Reader.parseWith_eq_some.mp h) (Nat.toDigits 10 port.toNat)
  have hv4 : readSocketAddrV4 (s ++ ':' :: Nat.toDigits 10 port.toNat) =
      some (⟨.v4 ip, port⟩, []) :=
    Reader.bind_eq_some.mpr ⟨ip, _, hip, Reader.bind_eq_some.mpr
      ⟨port, _, readPort_toDigits port, Reader.pure_eq_some.mpr ⟨rfl, rfl⟩⟩⟩
  exact Reader.parseWith_eq_some.mpr (Option.or_eq_some_iff.mpr (.inl hv4))

theorem parseSocketAddr_ipv6 {ip : BitVec 128} (h : parseIpv6Addr s = some ip) (port : UInt16) :
    parseSocketAddr (('[' :: s ++ [']']) ++ ':' :: Nat.toDigits 10 port.toNat) =
      some ⟨.v6 ip, port⟩ := by
  have hforeign : Foreign ']' := ⟨by decide, by decide, by decide, by decide⟩
  have hip := (stops_readIpv6Addr hforeign).read_append (Reader.parseWith_eq_some.mp h)
    (':' :: Nat.toDigits 10 port.toNat)
  have hscope : ∀ t, skipScopeId (']' :: t) = some ((), ']' :: t) := fun t => rfl
  have hv6 : readSocketAddrV6 ('[' :: (s ++ ']' :: ':' :: Nat.toDigits 10 port.toNat)) =
      some (⟨.v6 ip, port⟩, []) := by
    refine Reader.bind_eq_some.mpr ⟨(), _, Reader.givenChar_eq_some.mpr rfl, ?_⟩
    refine Reader.bind_eq_some.mpr ⟨ip, _, hip, ?_⟩
    refine Reader.bind_eq_some.mpr ⟨(), _, hscope _, ?_⟩
    refine Reader.bind_eq_some.mpr ⟨(), _, Reader.givenChar_eq_some.mpr rfl, ?_⟩
    refine Reader.bind_eq_some.mpr ⟨port, _, readPort_toDigits port, ?_⟩
    exact Reader.pure_eq_some.mpr ⟨rfl, rfl⟩
  have hv4 : readSocketAddrV4 ('[' :: (s ++ ']' :: ':' :: Nat.toDigits 10 port.toNat)) = none :=
    rfl
  have htext : ('[' :: s ++ [']']) ++ ':' :: Nat.toDigits 10 port.toNat =
      '[' :: (s ++ ']' :: ':' :: Nat.toDigits 10 port.toNat) := by simp
  rw [htext]
  exact Reader.parseWith_eq_some.mpr (Option.or_eq_some_iff.mpr (.inr ⟨hv4, hv6⟩))

/-! ## Texts that are no socket address -/

theorem parseSocketAddr_eq_none (hipv4 : ∀ ip left, readIpv4Addr s ≠ some (ip, ':' :: left))
    (hipv6 : '[' ∈ s → s.count ':' < 3) : parseSocketAddr s = none := by
  refine Option.eq_none_iff_forall_ne_some.mpr fun address h => ?_
  rcases of_parseSocketAddr h with ⟨ip, left, hread⟩ | ⟨hopen, hcount⟩
  · exact hipv4 ip left hread
  · exact absurd (hipv6 hopen) (by omega)

theorem parseSocketAddr_of_not_mem (h : ':' ∉ s) : parseSocketAddr s = none := by
  refine parseSocketAddr_eq_none (fun ip left hread => h ?_) fun _ => ?_
  · exact (shrinks_readIpv4Addr _ _ _ hread).subset List.mem_cons_self
  · rw [List.count_eq_zero.mpr h]
    decide

theorem parseSocketAddr_of_name {t : Str} (hs : ':' ∉ s) (ht : ':' ∉ t)
    (hname : parseIpv4Addr s = none) : parseSocketAddr (s ++ ':' :: t) = none := by
  refine parseSocketAddr_eq_none (fun ip left hread => ?_) fun _ => ?_
  · rw [stops_readIpv4Addr (by decide) (by decide) s t] at hread
    obtain ⟨⟨ip, rest⟩, hip, heq⟩ := Option.map_eq_some_iff.mp hread
    cases rest with
    | nil =>
        have hparse : parseIpv4Addr s = some ip := Reader.parseWith_eq_some.mpr hip
        rw [hname] at hparse
        cases hparse
    | cons c rest =>
        obtain ⟨-, hcons⟩ := Prod.mk.inj heq
        obtain ⟨rfl, -⟩ := List.cons.inj hcons
        exact hs ((shrinks_readIpv4Addr _ _ _ hip).subset List.mem_cons_self)
  · rw [List.count_append, List.count_cons_self, List.count_eq_zero.mpr hs,
      List.count_eq_zero.mpr ht]
    decide

theorem parseSocketAddr_of_ipv6 {ip : BitVec 128} (h : parseIpv6Addr s = some ip) :
    parseSocketAddr s = none := by
  have hopen : '[' ∉ s := not_mem_of_parseIpv6Addr h ⟨by decide, by decide, by decide, by decide⟩
  refine parseSocketAddr_eq_none (fun ip left hread => ?_) fun hmem => absurd hmem hopen
  rw [readIpv4Addr_eq_none (Reader.parseWith_eq_some.mp h)] at hread
  cases hread

end Sockets

end Interlink
