import Interlink.Common.Error

/-!
# Parsing SPIFFE URIs

`parse_spiffe_uri` searches the bytes of a URI and cuts the text at the
offsets it finds.  Its three phases are modelled one by one; the outer `none`
of each is a refused cut or index, that is a panic.  The results are that no
phase panics and that the accepted texts are exactly those of the form

`spiffe://<trust-domain>/ns/<namespace>/sa/<service-account>`

with the scheme in any case and the three segments free of the delimiters the
parser excludes from them.
-/

namespace Interlink

open Interlink.Foundation

structure SpiffeUriParts where
  trustDomain : Str
  «namespace» : Str
  serviceAccount : Str
  deriving DecidableEq, Repr

def toAsciiLowercase (s : Str) : Str := s.map Char.toLower

namespace SpiffeUri

def lowerByte (b : UInt8) : UInt8 := if 65 ≤ b ∧ b ≤ 90 then b + 32 else b

def eqIgnoreAsciiCase (first second : List UInt8) : Bool :=
  first.map lowerByte == second.map lowerByte

def isAsciiControl (b : UInt8) : Bool := b < 32 || b == 127

def isAsciiWhitespace (b : UInt8) : Bool :=
  b == 32 || b == 9 || b == 10 || b == 12 || b == 13

/-- The bytes `@ : [ ] \ ? #`, controls and whitespace, which end a bare trust domain. -/
def isForbiddenAuthorityByte (b : UInt8) : Bool :=
  isAsciiControl b || isAsciiWhitespace b || b == 64 || b == 58 || b == 91 ||
    b == 93 || b == 92 || b == 63 || b == 35

def isPathDelimiter (b : UInt8) : Bool := b == 47 || b == 63 || b == 35

def stripPrefix? (literal s : Str) : Option Str :=
  if literal.isPrefixOf s then some (s.drop literal.length) else none

def scheme : Str := "spiffe://".toList

def malformed (got : Str) : InterlinkError :=
  .identity ("malformed SPIFFE path: expected /ns/<ns>/sa/<sa>, got ".toList ++ got)

/-- The text before the first `://`, or the whole text. -/
def schemeOf (uri : Str) : Str :=
  match (find? "://".toList uri).bind (splitAtByte? uri) with
  | some (before, _) => before
  | none => uri

def stripScheme? (uri context : Str) : Option (Except InterlinkError Str) :=
  if byteLen uri < byteLen scheme then
    some (.error (.identity
      ("invalid ".toList ++ context ++ ": missing URI scheme separator".toList)))
  else if !eqIgnoreAsciiCase ((bytes uri).take (byteLen scheme)) (bytes scheme) then
    some (.error (.identity ("expected spiffe:// scheme, got ".toList ++ schemeOf uri)))
  else (slice? uri (byteLen scheme) (byteLen uri)).map .ok

def splitAuthority? (remainder : Str) :
    Option (Except InterlinkError (Str × Str)) :=
  match (bytes remainder).findIdx? (· == 47) with
  | none => some (.error (malformed "empty path".toList))
  | some authorityEnd =>
      (slice? remainder 0 authorityEnd).bind fun trustDomain =>
        if trustDomain = [] then
          some (.error (.identity "missing trust domain in SPIFFE URI".toList))
        else if (bytes trustDomain).any isForbiddenAuthorityByte then
          some (.error (.identity
            "SPIFFE URI authority must contain only a trust domain".toList))
        else
          (slice? remainder (authorityEnd + 1) (byteLen remainder)).map
            fun path => .ok (trustDomain, path)

def splitSegments? (path : Str) : Option (Except InterlinkError (Str × Str)) :=
  match (bytes path).findIdx? isPathDelimiter with
  | none => some (.error (malformed ("/ns/".toList ++ path)))
  | some namespaceEnd =>
      (bytes path)[namespaceEnd]?.bind fun delimiter =>
        if delimiter ≠ 47 then
          some (.error (.identity
            "SPIFFE URI must not contain a query or fragment".toList))
        else
          (slice? path 0 namespaceEnd).bind fun ns =>
            (slice? path (namespaceEnd + 1) (byteLen path)).bind fun rest =>
              match stripPrefix? "sa/".toList rest with
              | none => some (.error (malformed ("/ns/".toList ++ path)))
              | some serviceAccount =>
                  if ns = [] || serviceAccount = [] ||
                      (bytes serviceAccount).any isPathDelimiter then
                    some (.error (malformed ("/ns/".toList ++ path)))
                  else some (.ok (ns, serviceAccount))

def splitPath? (path : Str) : Option (Except InterlinkError (Str × Str)) :=
  match stripPrefix? "ns/".toList path with
  | none => some (.error (malformed ("/".toList ++ path)))
  | some path => splitSegments? path

end SpiffeUri

open SpiffeUri in
/-- `parse_spiffe_uri`; the outer `none` is a panic. -/
def parseSpiffeUri? (uri context : Str) :
    Option (Except InterlinkError SpiffeUriParts) :=
  (stripScheme? uri context).bind fun
    | .error e => some (.error e)
    | .ok remainder =>
        (splitAuthority? remainder).bind fun
          | .error e => some (.error e)
          | .ok (trustDomain, path) =>
              (splitPath? path).map fun
                | .error e => .error e
                | .ok (ns, serviceAccount) => .ok ⟨trustDomain, ns, serviceAccount⟩

namespace SpiffeUri

/-! ## The forms the phases accept -/

def IsTrustDomain (s : Str) : Prop :=
  s ≠ [] ∧ '/' ∉ s ∧ s.any (onChar isForbiddenAuthorityByte) = false

def IsSegment (s : Str) : Prop :=
  s ≠ [] ∧ '/' ∉ s ∧ '?' ∉ s ∧ '#' ∉ s

instance (s : Str) : Decidable (IsTrustDomain s) :=
  inferInstanceAs (Decidable (_ ∧ _))

instance (s : Str) : Decidable (IsSegment s) :=
  inferInstanceAs (Decidable (_ ∧ _))

theorem asciiOnly_slash : AsciiOnly (· == 47) := by
  intro b hb
  have : b = 47 := by simpa using hb
  simp [this]

theorem asciiOnly_pathDelimiter : AsciiOnly isPathDelimiter := by
  intro b hb
  simp only [isPathDelimiter, Bool.or_eq_true, beq_iff_eq] at hb
  rcases hb with (rfl | rfl) | rfl <;> decide

theorem asciiOnly_forbiddenAuthorityByte : AsciiOnly isForbiddenAuthorityByte := by
  intro b hb
  simp only [isForbiddenAuthorityByte, isAsciiControl, isAsciiWhitespace,
    Bool.or_eq_true, beq_iff_eq, decide_eq_true_eq, UInt8.lt_iff_toNat_lt] at hb
  rcases hb with (((((((((h | rfl) | (((rfl | rfl) | rfl) | rfl) | rfl) | rfl) |
    rfl) | rfl) | rfl) | rfl) | rfl) | rfl)
  · exact Nat.lt_trans h (by decide)
  all_goals decide

theorem onChar_slash (c : Char) : onChar (· == 47) c = true ↔ c = '/' :=
  onChar_beq (by decide) c

theorem onChar_pathDelimiter (c : Char) :
    onChar isPathDelimiter c = true ↔ c = '/' ∨ c = '?' ∨ c = '#' := by
  have hslash : onChar (· == 47) c = true ↔ c = '/' := onChar_beq (by decide) c
  have hquery : onChar (· == 63) c = true ↔ c = '?' := onChar_beq (by decide) c
  have hhash : onChar (· == 35) c = true ↔ c = '#' := onChar_beq (by decide) c
  rw [← hslash, ← hquery, ← hhash]
  simp only [onChar, isPathDelimiter, Bool.and_eq_true, Bool.or_eq_true]
  rw [and_or_left, and_or_left, or_assoc]

theorem isSegment_iff (s : Str) :
    IsSegment s ↔ s ≠ [] ∧ ∀ c ∈ s, onChar isPathDelimiter c = false := by
  have hfree : (∀ c ∈ s, onChar isPathDelimiter c = false) ↔
      '/' ∉ s ∧ '?' ∉ s ∧ '#' ∉ s := by
    simp only [← Bool.not_eq_true, onChar_pathDelimiter]
    constructor
    · intro h
      exact ⟨fun hc => h _ hc (by simp), fun hc => h _ hc (by simp),
        fun hc => h _ hc (by simp)⟩
    · rintro ⟨hslash, hquery, hhash⟩ c hc (rfl | rfl | rfl)
      · exact hslash hc
      · exact hquery hc
      · exact hhash hc
  rw [IsSegment, hfree]

theorem stripPrefix?_eq_some {literal s rest : Str} :
    stripPrefix? literal s = some rest ↔ s = literal ++ rest := by
  unfold stripPrefix?
  constructor
  · intro h
    split at h
    · rename_i hpre
      obtain ⟨t, rfl⟩ := List.isPrefixOf_iff_prefix.mp hpre
      simpa using h
    · contradiction
  · rintro rfl
    simp

/-! ## Each phase accepts exactly its form -/

/-- No panic, and `P` describes exactly the accepted result. -/
def Yields {α : Type} (result : Option (Except InterlinkError α))
    (P : α → Prop) : Prop :=
  ∃ r, result = some r ∧ ∀ a, r = .ok a ↔ P a

theorem Yields.error {α : Type} {e : InterlinkError} {P : α → Prop}
    (h : ∀ a, ¬ P a) : Yields (some (.error e)) P :=
  ⟨.error e, rfl, fun a => by simp [h a]⟩

theorem Yields.ok {α : Type} {a : α} {P : α → Prop}
    (h : ∀ b, P b ↔ b = a) : Yields (some (.ok a)) P :=
  ⟨.ok a, rfl, fun b => by rw [h b]; simp [eq_comm]⟩

theorem Yields.bind {α β : Type} {result : Option (Except InterlinkError α)}
    {next : Except InterlinkError α → Option (Except InterlinkError β)} {P : α → Prop}
    {Q : α → β → Prop} (h : Yields result P)
    (herror : ∀ e, next (.error e) = some (.error e))
    (hok : ∀ a, P a → Yields (next (.ok a)) (Q a)) :
    Yields (result.bind next) fun b => ∃ a, P a ∧ Q a b := by
  obtain ⟨r, rfl, hr⟩ := h
  cases r with
  | error e =>
      rw [Option.bind_some, herror]
      refine Yields.error fun b => ?_
      rintro ⟨a, ha, -⟩
      cases (hr a).mpr ha
  | ok a =>
      have honly : ∀ {other}, P other → other = a := fun hother =>
        (Except.ok.inj ((hr _).mpr hother)).symm
      obtain ⟨r', hr', hiff⟩ := hok a ((hr a).mp rfl)
      refine ⟨r', hr', fun b => (hiff b).trans ?_⟩
      constructor
      · exact fun hb => ⟨a, (hr a).mp rfl, hb⟩
      · rintro ⟨other, hother, hb⟩
        exact honly hother ▸ hb

theorem Yields.map {α β : Type} {result : Option (Except InterlinkError α)}
    {next : Except InterlinkError α → Except InterlinkError β} {P : α → Prop} {f : α → β}
    (h : Yields result P) (herror : ∀ e, next (.error e) = .error e)
    (hok : ∀ a, next (.ok a) = .ok (f a)) :
    Yields (result.map next) fun b => ∃ a, P a ∧ b = f a := by
  rw [Option.map_eq_bind]
  refine h.bind (fun e => congrArg some (herror e)) fun a _ => ?_
  rw [Function.comp_apply, hok a]
  exact Yields.ok fun b => Iff.rfl

theorem Yields.congr {α : Type} {result : Option (Except InterlinkError α)} {P Q : α → Prop}
    (h : Yields result P) (hPQ : ∀ a, P a ↔ Q a) : Yields result Q := by
  obtain ⟨r, hr, hiff⟩ := h
  exact ⟨r, hr, fun a => (hiff a).trans (hPQ a)⟩

private theorem toLower_ascii {c : Char} (h : c.toLower.toNat < 128) :
    c.toNat < 128 := by
  unfold Char.toLower at h
  split at h
  · rename_i hupper
    have hz : c.val ≤ 'Z'.val := hupper.2
    exact Nat.lt_of_le_of_lt (UInt32.le_iff_toNat_le.mp hz) (by decide)
  · exact h

private theorem lowerByte_ofNat {c : Char} (h : c.toNat < 128) :
    lowerByte (UInt8.ofNat c.toNat) = UInt8.ofNat c.toLower.toNat ∧
      c.toLower.toNat < 128 := by
  have hall : ∀ n < 128,
      lowerByte (UInt8.ofNat n) = UInt8.ofNat (Char.ofNat n).toLower.toNat ∧
        (Char.ofNat n).toLower.toNat < 128 := by
    decide
  simpa using hall c.toNat h

private theorem lowerByte_toNat_lt {b : UInt8} (h : (lowerByte b).toNat < 128) :
    b.toNat < 128 := by
  unfold lowerByte at h
  split at h
  · rename_i hupper
    exact Nat.lt_of_le_of_lt (UInt8.le_iff_toNat_le.mp hupper.2) (by decide)
  · exact h

private theorem bytes_ascii {s : Str} (h : ∀ c ∈ s, c.toNat < 128) :
    bytes s = s.map fun c => UInt8.ofNat c.toNat := by
  induction s with
  | nil => rfl
  | cons c s ih =>
      rw [bytes_cons, utf8EncodeChar_ascii (h c (by simp)),
        ih fun d hd => h d (List.mem_cons_of_mem c hd)]
      rfl

private theorem ofNat_toNat_injective {c d : Char} (hc : c.toNat < 128)
    (hd : d.toNat < 128) (h : UInt8.ofNat c.toNat = UInt8.ofNat d.toNat) :
    c = d := by
  have hnat := congrArg UInt8.toNat h
  simp only [UInt8.toNat_ofNat'] at hnat
  have heq : c.toNat = d.toNat := by omega
  rw [← Char.ofNat_toNat c, heq, Char.ofNat_toNat]

private theorem map_lowerByte_bytes {s : Str} (h : ∀ c ∈ s, c.toNat < 128) :
    (bytes s).map lowerByte = bytes (toAsciiLowercase s) := by
  have hlower : ∀ c ∈ toAsciiLowercase s, c.toNat < 128 := by
    intro c hc
    obtain ⟨d, hd, rfl⟩ := List.mem_map.mp hc
    exact (lowerByte_ofNat (h d hd)).2
  rw [bytes_ascii h, bytes_ascii hlower, toAsciiLowercase, List.map_map,
    List.map_map]
  apply List.map_congr_left
  intro c hc
  exact (lowerByte_ofNat (h c hc)).1

private theorem bytes_injective_ascii {s t : Str} (hs : ∀ c ∈ s, c.toNat < 128)
    (ht : ∀ c ∈ t, c.toNat < 128) (h : bytes s = bytes t) : s = t := by
  rw [bytes_ascii hs, bytes_ascii ht] at h
  induction s generalizing t with
  | nil => simpa using h.symm
  | cons c s ih =>
      cases t with
      | nil => simp at h
      | cons d t =>
          simp only [List.map_cons, List.cons.injEq] at h
          rw [ofNat_toNat_injective (hs c (by simp)) (ht d (by simp)) h.1,
            ih (fun e he => hs e (List.mem_cons_of_mem c he))
              (fun e he => ht e (List.mem_cons_of_mem d he)) h.2]

private theorem scheme_ascii : ∀ c ∈ scheme, c.toNat < 128 := by
  have hall : scheme.all (fun c => decide (c.toNat < 128)) = true := by decide
  simpa using hall

private theorem scheme_lower : toAsciiLowercase scheme = scheme := by decide

private theorem lower_eq_scheme {s : Str} :
    toAsciiLowercase s = scheme ↔
      (∀ c ∈ s, c.toNat < 128) ∧ eqIgnoreAsciiCase (bytes s) (bytes scheme) := by
  simp only [eqIgnoreAsciiCase, beq_iff_eq, map_lowerByte_bytes scheme_ascii,
    scheme_lower]
  constructor
  · intro h
    have hascii : ∀ c ∈ s, c.toNat < 128 := by
      intro c hc
      apply toLower_ascii
      apply scheme_ascii
      rw [← h]
      exact List.mem_map_of_mem hc
    exact ⟨hascii, by rw [map_lowerByte_bytes hascii, h]⟩
  · rintro ⟨hascii, heq⟩
    rw [map_lowerByte_bytes hascii] at heq
    apply bytes_injective_ascii _ scheme_ascii heq
    intro c hc
    obtain ⟨d, hd, rfl⟩ := List.mem_map.mp hc
    exact (lowerByte_ofNat (hascii d hd)).2

private theorem byteLen_scheme_of_lower {s : Str}
    (h : toAsciiLowercase s = scheme) : byteLen s = byteLen scheme := by
  obtain ⟨-, heq⟩ := lower_eq_scheme.mp h
  have hlen := congrArg List.length (beq_iff_eq.mp heq)
  simpa using hlen

theorem stripScheme?_yields (uri context : Str) :
    Yields (stripScheme? uri context) fun rest =>
      ∃ s, uri = s ++ rest ∧ toAsciiLowercase s = scheme := by
  unfold stripScheme?
  by_cases hshort : byteLen uri < byteLen scheme
  · rw [if_pos hshort]
    apply Yields.error
    rintro rest ⟨s, rfl, hs⟩
    rw [byteLen_append, byteLen_scheme_of_lower hs] at hshort
    omega
  · rw [if_neg hshort]
    have htake (s rest : Str) (hs : toAsciiLowercase s = scheme) :
        (bytes (s ++ rest)).take (byteLen scheme) = bytes s := by
      rw [← byteLen_scheme_of_lower hs, ← length_bytes, bytes_append]
      exact List.take_left
    by_cases hcase : eqIgnoreAsciiCase ((bytes uri).take (byteLen scheme))
        (bytes scheme)
    · rw [hcase]
      have hascii : ∀ b ∈ (bytes uri).take (byteLen scheme), b.toNat < 128 := by
        intro b hb
        apply lowerByte_toNat_lt
        have hmem := List.mem_map_of_mem (f := lowerByte) hb
        rw [beq_iff_eq.mp hcase, map_lowerByte_bytes scheme_ascii, scheme_lower]
          at hmem
        have hall : (bytes scheme).all (fun b => decide (b.toNat < 128)) = true := by decide
        exact of_decide_eq_true (List.all_eq_true.mp hall _ hmem)
      obtain ⟨s, rest, rfl, hs, -, hsascii⟩ := exists_ascii_head hascii
        (List.take_append_drop (byteLen scheme) (bytes uri)).symm
      have hlower : toAsciiLowercase s = scheme :=
        lower_eq_scheme.mpr ⟨hsascii, by rw [hs]; exact hcase⟩
      have hlen := byteLen_scheme_of_lower hlower
      rw [← hlen, slice?_suffix]
      apply Yields.ok
      intro rest'
      constructor
      · rintro ⟨s', heq, hs'⟩
        have hlen' : s.length = s'.length := by
          have h := congrArg List.length hlower
          have h' := congrArg List.length hs'
          simp only [toAsciiLowercase, List.length_map] at h h'
          omega
        exact (List.append_inj heq hlen').2.symm
      · rintro rfl
        exact ⟨s, rfl, hlower⟩
    · simp only [hcase, Bool.not_false, if_true]
      apply Yields.error
      rintro rest ⟨s, rfl, hs⟩
      rw [htake s rest hs] at hcase
      exact hcase (lower_eq_scheme.mp hs).2

private theorem slice?_after_slash (a b : Str) :
    slice? (a ++ '/' :: b) (byteLen a + 1) (byteLen (a ++ '/' :: b)) = some b := by
  have hsize : ('/' : Char).utf8Size = 1 := by decide
  simpa [hsize] using slice?_suffix (a ++ ['/']) b

theorem splitAuthority?_yields (remainder : Str) :
    Yields (splitAuthority? remainder) fun p =>
      remainder = p.1 ++ '/' :: p.2 ∧ IsTrustDomain p.1 := by
  unfold splitAuthority?
  cases hfind : (bytes remainder).findIdx? (· == 47) with
  | none =>
      have hfree := (findIdx?_bytes_eq_none asciiOnly_slash).mp hfind
      apply Yields.error
      rintro ⟨td, path⟩ ⟨rfl, -⟩
      have hslash := hfree '/' (by simp)
      rw [(onChar_slash '/').mpr rfl] at hslash
      contradiction
  | some authorityEnd =>
      obtain ⟨td, c, path, rfl, rfl, hc, hfree⟩ :=
        findIdx?_bytes_eq_some asciiOnly_slash hfind
      obtain rfl := (onChar_slash c).mp hc
      have htd : '/' ∉ td := by
        intro hmem
        have := hfree '/' hmem
        rw [hc] at this
        contradiction
      have hunique : ∀ td' path', td ++ '/' :: path = td' ++ '/' :: path' →
          '/' ∉ td' → td' = td ∧ path' = path := by
        intro td' path' heq htd'
        obtain ⟨rfl, rfl⟩ := append_cons_inj_of_not_mem htd htd' heq
        exact ⟨rfl, rfl⟩
      have hpath := slice?_after_slash td path
      simp only [slice?_head, Option.bind_some]
      by_cases hempty : td = []
      · rw [if_pos hempty]
        apply Yields.error
        rintro ⟨td', path'⟩ ⟨heq, hne, hslash, -⟩
        exact hne ((hunique td' path' heq hslash).1.trans hempty)
      · rw [if_neg hempty, any_bytes asciiOnly_forbiddenAuthorityByte]
        by_cases hforbidden : td.any (onChar isForbiddenAuthorityByte) = true
        · rw [if_pos hforbidden]
          apply Yields.error
          rintro ⟨td', path'⟩ ⟨heq, -, hslash, hclean⟩
          rw [(hunique td' path' heq hslash).1, hforbidden] at hclean
          contradiction
        · rw [if_neg hforbidden, hpath]
          apply Yields.ok
          rintro ⟨td', path'⟩
          constructor
          · rintro ⟨heq, -, hslash, -⟩
            obtain ⟨rfl, rfl⟩ := hunique td' path' heq hslash
            rfl
          · rintro h
            cases h
            exact ⟨rfl, hempty, htd, by simpa using hforbidden⟩

private theorem any_pathDelimiter (s : Str) :
    (bytes s).any isPathDelimiter = false ↔
      ∀ c ∈ s, onChar isPathDelimiter c = false := by
  rw [any_bytes asciiOnly_pathDelimiter, List.any_eq_false]
  simp

private theorem accepts_segments_iff {ns : Str} (hfree : ∀ c ∈ ns, onChar isPathDelimiter c = false)
    (sa : Str) : (decide (ns = []) || decide (sa = []) || (bytes sa).any isPathDelimiter) = false ↔
      IsSegment ns ∧ IsSegment sa := by
  have hns : IsSegment ns ↔ ns ≠ [] := by
    rw [isSegment_iff]
    exact and_iff_left hfree
  rw [hns, isSegment_iff sa, ← any_pathDelimiter]
  simp only [Bool.or_eq_false_iff, decide_eq_false_iff_not, ne_eq]
  exact and_assoc

theorem splitSegments?_yields (path : Str) :
    Yields (splitSegments? path) fun p =>
      path = p.1 ++ ("/sa/".toList ++ p.2) ∧ IsSegment p.1 ∧ IsSegment p.2 := by
  unfold splitSegments?
  cases hfind : (bytes path).findIdx? isPathDelimiter with
  | none =>
      have hfree := (findIdx?_bytes_eq_none asciiOnly_pathDelimiter).mp hfind
      apply Yields.error
      rintro ⟨ns, sa⟩ ⟨rfl, -⟩
      have hslash := hfree '/' (by simp)
      rw [(onChar_pathDelimiter '/').mpr (by simp)] at hslash
      contradiction
  | some namespaceEnd =>
      obtain ⟨ns, c, rest, rfl, rfl, hc, hfree⟩ :=
        findIdx?_bytes_eq_some asciiOnly_pathDelimiter hfind
      have hascii : c.toNat < 128 := by
        simp only [onChar, Bool.and_eq_true, decide_eq_true_eq] at hc
        exact hc.1
      have hbyte : (bytes (ns ++ c :: rest))[byteLen ns]? =
          some (UInt8.ofNat c.toNat) := by
        rw [bytes_append, bytes_cons, utf8EncodeChar_ascii hascii,
          List.getElem?_append_right (by simp)]
        simp
      have hfirst : ∀ ns' sa', ns ++ c :: rest = ns' ++ ("/sa/".toList ++ sa') →
          IsSegment ns' → c = '/' ∧ ns' = ns ∧ rest = "sa/".toList ++ sa' := by
        intro ns' sa' heq hns'
        obtain ⟨hhead, hslash, htail⟩ := append_cons_inj_of_first hfree
          ((isSegment_iff ns').mp hns').2 hc ((onChar_pathDelimiter '/').mpr (by simp)) heq
        exact ⟨hslash, hhead.symm, htail⟩
      simp only [hbyte, Option.bind_some]
      by_cases hslash : c = '/'
      · subst hslash
        rw [if_neg (by decide), slice?_head, Option.bind_some,
          slice?_after_slash, Option.bind_some]
        cases hstrip : stripPrefix? "sa/".toList rest with
        | none =>
            apply Yields.error
            rintro ⟨ns', sa'⟩ ⟨heq, hns', -⟩
            obtain ⟨-, -, hrest⟩ := hfirst ns' sa' heq hns'
            rw [stripPrefix?_eq_some.mpr hrest] at hstrip
            contradiction
        | some sa =>
            obtain rfl := stripPrefix?_eq_some.mp hstrip
            have haccept := accepts_segments_iff hfree sa
            by_cases hbad : (decide (ns = []) || decide (sa = []) ||
                (bytes sa).any isPathDelimiter) = true
            · simp only [hbad, if_true]
              apply Yields.error
              rintro ⟨ns', sa'⟩ ⟨heq, hns', hsa'⟩
              obtain ⟨-, rfl, hrest⟩ := hfirst ns' sa' heq hns'
              obtain rfl := List.append_cancel_left hrest
              rw [haccept.mpr ⟨hns', hsa'⟩] at hbad
              contradiction
            · simp only [hbad, Bool.false_eq_true, if_false]
              apply Yields.ok
              rintro ⟨ns', sa'⟩
              constructor
              · rintro ⟨heq, hns', -⟩
                obtain ⟨-, rfl, hrest⟩ := hfirst ns' sa' heq hns'
                obtain rfl := List.append_cancel_left hrest
                rfl
              · intro h
                cases h
                obtain ⟨hn, hs⟩ := haccept.mp (by simpa using hbad)
                exact ⟨rfl, hn, hs⟩
      · have hne : UInt8.ofNat c.toNat ≠ 47 := by
          intro h
          apply hslash
          exact (onChar_slash c).mp (by simp [onChar, hascii, h])
        rw [if_pos hne]
        apply Yields.error
        rintro ⟨ns', sa'⟩ ⟨heq, hns', -⟩
        exact hslash (hfirst ns' sa' heq hns').1

theorem splitPath?_yields (path : Str) :
    Yields (splitPath? path) fun p =>
      path = "ns/".toList ++ (p.1 ++ ("/sa/".toList ++ p.2)) ∧
        IsSegment p.1 ∧ IsSegment p.2 := by
  unfold splitPath?
  cases hstrip : stripPrefix? "ns/".toList path with
  | none =>
      apply Yields.error
      rintro ⟨ns, sa⟩ ⟨heq, -⟩
      rw [stripPrefix?_eq_some.mpr heq] at hstrip
      contradiction
  | some rest =>
      obtain rfl := stripPrefix?_eq_some.mp hstrip
      obtain ⟨r, hr, hiff⟩ := splitSegments?_yields rest
      refine ⟨r, hr, ?_⟩
      intro p
      simp only [hiff p, List.append_cancel_left_eq]

end SpiffeUri

/-- The texts the parser accepts, with the parts it returns. -/
def SpiffeUriParts.Spells (parts : SpiffeUriParts) (uri : Str) : Prop :=
  ∃ s, uri = s ++ (parts.trustDomain ++ ("/ns/".toList ++ (parts.namespace ++
      ("/sa/".toList ++ parts.serviceAccount)))) ∧
    toAsciiLowercase s = SpiffeUri.scheme ∧
    SpiffeUri.IsTrustDomain parts.trustDomain ∧
    SpiffeUri.IsSegment parts.namespace ∧
    SpiffeUri.IsSegment parts.serviceAccount

open SpiffeUri in
theorem parseSpiffeUri?_yields (uri context : Str) :
    Yields (parseSpiffeUri? uri context) fun parts => parts.Spells uri := by
  have hphases : Yields (parseSpiffeUri? uri context) fun parts =>
      ∃ remainder, (∃ s, uri = s ++ remainder ∧ toAsciiLowercase s = scheme) ∧
        ∃ authority : Str × Str, (remainder = authority.1 ++ '/' :: authority.2 ∧
          IsTrustDomain authority.1) ∧
        ∃ path : Str × Str, (authority.2 = "ns/".toList ++ (path.1 ++ ("/sa/".toList ++ path.2)) ∧
          IsSegment path.1 ∧ IsSegment path.2) ∧ parts = ⟨authority.1, path.1, path.2⟩ :=
    (stripScheme?_yields uri context).bind (fun _ => rfl) fun remainder _ =>
      (splitAuthority?_yields remainder).bind (fun _ => rfl) fun authority _ =>
        (splitPath?_yields authority.2).map (fun _ => rfl) fun _ => rfl
  refine hphases.congr fun parts => ?_
  constructor
  · rintro ⟨_, ⟨s, rfl, hscheme⟩, ⟨td, _⟩, ⟨rfl, htd⟩, ⟨ns, sa⟩, ⟨rfl, hns, hsa⟩, rfl⟩
    exact ⟨s, rfl, hscheme, htd, hns, hsa⟩
  · rintro ⟨s, rfl, hscheme, htd, hns, hsa⟩
    exact ⟨_, ⟨s, rfl, hscheme⟩, (parts.trustDomain, _), ⟨rfl, htd⟩,
      (parts.namespace, parts.serviceAccount), ⟨rfl, hns, hsa⟩, rfl⟩

theorem parseSpiffeUri?_isSome (uri context : Str) :
    (parseSpiffeUri? uri context).isSome := by
  obtain ⟨r, hr, -⟩ := parseSpiffeUri?_yields uri context
  simp [hr]

def parseSpiffeUri (uri context : Str) : Except InterlinkError SpiffeUriParts :=
  (parseSpiffeUri? uri context).get (parseSpiffeUri?_isSome uri context)

theorem parseSpiffeUri_eq_ok {uri context : Str} {parts : SpiffeUriParts} :
    parseSpiffeUri uri context = .ok parts ↔ parts.Spells uri := by
  obtain ⟨r, hr, hiff⟩ := parseSpiffeUri?_yields uri context
  refine Iff.trans ?_ (hiff parts)
  simp [parseSpiffeUri, hr]

end Interlink
