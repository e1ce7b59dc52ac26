import Interlink.Foundation.Checked
import Interlink.Common.SegmentGlob
import Interlink.Common.SpiffeUri

/-!
# The slices of the identity code

`parse_spiffe_uri`, `SegmentGlob::new`, `SegmentGlob::matches` and
`matches_multi` cut texts at byte offsets that they find by searching bytes and
go on from by adding lengths.  Here each is written with every access it makes:
the slices, the items and ranges it takes of a list, the differences, and the
sums that are used as offsets.  The searches are those on the encoded bytes.
The result is that each makes valid accesses only and returns what its model
without accesses returns.
-/

namespace Interlink

open Interlink.Foundation

namespace SpiffeUri

/-! ## Parsing a URI -/

def checkedStripScheme (uri context : Str) : Checked (Except InterlinkError Str) :=
  if byteLen uri < byteLen scheme then
    return .error (.identity
      ("invalid ".toList ++ context ++ ": missing URI scheme separator".toList))
  else if !eqIgnoreAsciiCase ((bytes uri).take (byteLen scheme)) (bytes scheme) then
    return .error (.identity ("expected spiffe:// scheme, got ".toList ++ schemeOf uri))
  else do
    let remainder ← Checked.slice uri (byteLen scheme) (byteLen uri)
    return .ok remainder

def checkedSplitAuthority (remainder : Str) :
    Checked (Except InterlinkError (Str × Str)) :=
  match (bytes remainder).findIdx? (· == 47) with
  | none => return .error (malformed "empty path".toList)
  | some authorityEnd => do
      let trustDomain ← Checked.slice remainder 0 authorityEnd
      if trustDomain = [] then
        return .error (.identity "missing trust domain in SPIFFE URI".toList)
      else if (bytes trustDomain).any isForbiddenAuthorityByte then
        return .error (.identity
          "SPIFFE URI authority must contain only a trust domain".toList)
      else
        let start ← Checked.offset remainder (authorityEnd + 1)
        let path ← Checked.slice remainder start (byteLen remainder)
        return .ok (trustDomain, path)

def checkedSplitSegments (path : Str) : Checked (Except InterlinkError (Str × Str)) :=
  match (bytes path).findIdx? isPathDelimiter with
  | none => return .error (malformed ("/ns/".toList ++ path))
  | some namespaceEnd => do
      let delimiter ← Checked.item (bytes path) namespaceEnd
      if delimiter ≠ 47 then
        return .error (.identity "SPIFFE URI must not contain a query or fragment".toList)
      else
        let ns ← Checked.slice path 0 namespaceEnd
        let start ← Checked.offset path (namespaceEnd + 1)
        let rest ← Checked.slice path start (byteLen path)
        match stripPrefix? "sa/".toList rest with
        | none => return .error (malformed ("/ns/".toList ++ path))
        | some serviceAccount =>
            if ns = [] || serviceAccount = [] ||
                (bytes serviceAccount).any isPathDelimiter then
              return .error (malformed ("/ns/".toList ++ path))
            else return .ok (ns, serviceAccount)

def checkedSplitPath (path : Str) : Checked (Except InterlinkError (Str × Str)) :=
  match stripPrefix? "ns/".toList path with
  | none => return .error (malformed ("/".toList ++ path))
  | some path => checkedSplitSegments path

theorem checkedStripScheme_value (uri context : Str) :
    (checkedStripScheme uri context).value = stripScheme? uri context := by
  unfold checkedStripScheme stripScheme?
  split
  · rfl
  · split
    · rfl
    · simp [Option.map_eq_bind]

private theorem lt_of_findIdx? {p : UInt8 → Bool} {s : Str} {i : Nat}
    (h : (bytes s).findIdx? p = some i) : i + 1 ≤ byteLen s := by
  obtain ⟨hlt, -⟩ := List.findIdx?_eq_some_iff_getElem.mp h
  rw [length_bytes] at hlt
  omega

theorem checkedSplitAuthority_value (remainder : Str) :
    (checkedSplitAuthority remainder).value = splitAuthority? remainder := by
  unfold checkedSplitAuthority splitAuthority?
  cases hfind : (bytes remainder).findIdx? (· == 47) with
  | none => rfl
  | some authorityEnd =>
      have hoffset := Checked.value_offset (lt_of_findIdx? hfind)
      simp only [Checked.value_bind, Checked.value_slice]
      congr 1
      funext trustDomain
      split
      · rfl
      · split
        · rfl
        · simp [hoffset, Option.map_eq_bind]

theorem checkedSplitSegments_value (path : Str) :
    (checkedSplitSegments path).value = splitSegments? path := by
  unfold checkedSplitSegments splitSegments?
  cases hfind : (bytes path).findIdx? isPathDelimiter with
  | none => rfl
  | some namespaceEnd =>
      have hoffset := Checked.value_offset (lt_of_findIdx? hfind)
      simp only [Checked.value_bind, Checked.value_item]
      congr 1
      funext delimiter
      split
      · rfl
      · simp only [Checked.value_bind, Checked.value_slice, hoffset, Option.bind_some]
        congr 1
        funext ns
        congr 1
        funext rest
        cases stripPrefix? "sa/".toList rest with
        | none => rfl
        | some serviceAccount =>
            dsimp only
            split <;> rfl

theorem checkedSplitPath_value (path : Str) :
    (checkedSplitPath path).value = splitPath? path := by
  unfold checkedSplitPath splitPath?
  cases stripPrefix? "ns/".toList path with
  | none => rfl
  | some rest => exact checkedSplitSegments_value rest

end SpiffeUri

open SpiffeUri in
def checkedParseSpiffeUri (uri context : Str) :
    Checked (Except InterlinkError SpiffeUriParts) := do
  match ← checkedStripScheme uri context with
  | .error e => return .error e
  | .ok remainder =>
      match ← checkedSplitAuthority remainder with
      | .error e => return .error e
      | .ok (trustDomain, path) =>
          match ← checkedSplitPath path with
          | .error e => return .error e
          | .ok (ns, serviceAccount) => return .ok ⟨trustDomain, ns, serviceAccount⟩

open SpiffeUri in
theorem checkedParseSpiffeUri_value (uri context : Str) :
    (checkedParseSpiffeUri uri context).value = parseSpiffeUri? uri context := by
  unfold checkedParseSpiffeUri parseSpiffeUri?
  rw [Checked.value_bind, checkedStripScheme_value]
  congr 1
  funext stripped
  cases stripped with
  | error e => rfl
  | ok remainder =>
      rw [Checked.value_bind, checkedSplitAuthority_value]
      congr 1
      funext authority
      cases authority with
      | error e => rfl
      | ok authority =>
          obtain ⟨trustDomain, path⟩ := authority
          rw [Checked.value_bind, checkedSplitPath_value]
          dsimp only
          cases splitPath? path with
          | none => rfl
          | some segments => cases segments <;> rfl

theorem checkedParseSpiffeUri_completes (uri context : Str) :
    (checkedParseSpiffeUri uri context).Completes (parseSpiffeUri uri context) := by
  apply Checked.completes_of_value
  rw [checkedParseSpiffeUri_value, parseSpiffeUri, Option.some_get]

namespace SegmentGlob

/-! ## Compiling a pattern -/

/-- One turn of the loop over the wildcards; the next part starts after the wildcard. -/
def checkedClosePart (pattern : Str) (state : List (Nat × Nat) × Nat) (index : Nat) :
    Checked (List (Nat × Nat) × Nat) := do
  let start ← Checked.offset pattern (index + 1)
  return (if state.2 ≠ index then state.1 ++ [(state.2, index)] else state.1, start)

def checkedParts (pattern : Str) : Checked (List (Nat × Nat)) := do
  let state ← (byteIndices 42 0 (bytes pattern)).foldlM (checkedClosePart pattern) ([], 0)
  return if state.2 ≠ byteLen pattern then state.1 ++ [(state.2, byteLen pattern)]
    else state.1

/-- `SegmentGlob::new` with the accesses it makes; it returns the shape. -/
def checkedNew (pattern : Str) : Checked SegmentGlobKind :=
  if (bytes pattern).countP (· == 42) = 0 then return .exact
  else do
    let parts ← checkedParts pattern
    return shapeOf (pattern.head? != some '*') (pattern.getLast? != some '*') parts

theorem byteIndices_bytes (base : Nat) (s : Str) :
    byteIndices 42 base (bytes s) = matchIndices '*' base s := by
  have hascii : AsciiOnly (· == 42) := by
    intro b hb
    have : b = 42 := by simpa using hb
    simp [this]
  induction s generalizing base with
  | nil => rfl
  | cons c s ih =>
      by_cases hc : c = '*'
      · subst hc
        have hencode : String.utf8EncodeChar '*' = [42] := by decide
        have hsize : ('*' : Char).utf8Size = 1 := by decide
        simp [matchIndices, byteIndices, hencode, hsize, ih]
      · have hother : (42 : UInt8) ∉ String.utf8EncodeChar c := by
          intro hmem
          have hany : (String.utf8EncodeChar c).any (· == 42) = true :=
            List.any_eq_true.mpr ⟨42, hmem, rfl⟩
          rw [any_utf8EncodeChar hascii] at hany
          exact hc ((onChar_beq (by decide) c).mp hany)
        rw [bytes_cons, byteIndices_append_of_not_mem hother, String.length_utf8EncodeChar, ih]
        simp [matchIndices, hc]

theorem checkedParts_value (pattern : Str) :
    (checkedParts pattern).value = some (parts pattern) := by
  have hturn : ∀ index ∈ byteIndices 42 0 (bytes pattern), ∀ state,
      (checkedClosePart pattern state index).value = some (closePart state index) := by
    intro index hindex state
    have hlt := lt_of_mem_byteIndices hindex
    rw [Nat.zero_add, length_bytes] at hlt
    rw [checkedClosePart, Checked.value_bind, Checked.value_offset (by omega)]
    rfl
  rw [checkedParts, Checked.value_bind, Checked.value_foldlM hturn, Option.bind_some,
    byteIndices_bytes]
  rfl

theorem checkedNew_value (pattern : Str) :
    (checkedNew pattern).value = some (kindOf pattern) := by
  rw [checkedNew, kindOf]
  split
  · rfl
  · rw [Checked.value_bind, checkedParts_value]
    rfl

/-! ## Matching a value -/

def checkedAnchorStart (pattern value : Str) (parts : List (Nat × Nat)) :
    Bool → Checked (Option (Nat × Nat))
  | false => return some (0, 0)
  | true => do
      let part ← Checked.item parts 0
      let literal ← Checked.slice pattern part.1 part.2
      return if startsWith value literal then some (byteLen literal, 1) else none

def checkedAnchorEnd (pattern value : Str) (parts : List (Nat × Nat)) :
    Bool → Checked (Option (Nat × Nat))
  | false => return some (byteLen value, parts.length)
  | true => do
      let last ← Checked.difference parts.length 1
      let part ← Checked.item parts last
      let literal ← Checked.slice pattern part.1 part.2
      if endsWith value literal then
        let searchEnd ← Checked.difference (byteLen value) (byteLen literal)
        return some (searchEnd, last)
      else return none

def checkedSearchParts (pattern value : Str) (searchEnd : Nat) :
    List (Nat × Nat) → Nat → Checked Bool
  | [], _ => return true
  | (start, stop) :: parts, searchStart => do
      let literal ← Checked.slice pattern start stop
      let window ← Checked.slice value searchStart searchEnd
      match findBytes? (bytes literal) (bytes window) with
      | none => return false
      | some found =>
          let next ← Checked.offset value (searchStart + (found + byteLen literal))
          checkedSearchParts pattern value searchEnd parts next

def checkedMatchesMulti (pattern value : Str) (parts : List (Nat × Nat))
    (anchoredStart anchoredEnd : Bool) : Checked Bool := do
  match ← checkedAnchorStart pattern value parts anchoredStart with
  | none => return false
  | some (searchStart, first) =>
      match ← checkedAnchorEnd pattern value parts anchoredEnd with
      | none => return false
      | some (searchEnd, last) =>
          if searchEnd < searchStart then return false
          else
            let inner ← Checked.range parts first last
            checkedSearchParts pattern value searchEnd inner searchStart

def checkedMatches (glob : SegmentGlob) (value : Str) : Checked Bool :=
  match glob.kind with
  | .any => return true
  | .exact => return bytes value == bytes glob.pattern
  | .prefixed stop => do
      let literal ← Checked.slice glob.pattern 0 stop
      return startsWith value literal
  | .suffixed start => do
      let literal ← Checked.slice glob.pattern start (byteLen glob.pattern)
      return endsWith value literal
  | .contains start stop => do
      let literal ← Checked.slice glob.pattern start stop
      return (findBytes? (bytes literal) (bytes value)).isSome
  | .prefixSuffix prefixEnd suffixStart => do
      let head ← Checked.slice glob.pattern 0 prefixEnd
      let tail ← Checked.slice glob.pattern suffixStart (byteLen glob.pattern)
      let both ← Checked.offset glob.pattern (byteLen head + byteLen tail)
      return decide (both ≤ byteLen value) && startsWith value head && endsWith value tail
  | .multi parts anchoredStart anchoredEnd =>
      checkedMatchesMulti glob.pattern value parts anchoredStart anchoredEnd

theorem checkedAnchorStart_value (pattern value : Str) (parts : List (Nat × Nat))
    (anchored : Bool) :
    (checkedAnchorStart pattern value parts anchored).value =
      anchorStart pattern value parts anchored := by
  cases anchored with
  | false => rfl
  | true =>
      simp only [checkedAnchorStart, anchorStart, Checked.value_bind, Checked.value_item,
        Checked.value_slice, Checked.value_pure, startsWith_eq, Option.bind_eq_bind]
      congr 1
      funext part
      congr 1
      funext literal
      split <;> rfl

theorem checkedAnchorEnd_value (pattern value : Str) (parts : List (Nat × Nat))
    (anchored : Bool) :
    (checkedAnchorEnd pattern value parts anchored).value =
      anchorEnd pattern value parts anchored := by
  cases anchored with
  | false => rfl
  | true =>
      cases parts with
      | nil => rfl
      | cons part parts =>
          have hlast := Checked.value_difference (Nat.le_add_left 1 parts.length)
          simp only [checkedAnchorEnd, anchorEnd, List.length_cons, Checked.value_bind, hlast,
            Checked.value_item, Checked.value_slice, Option.bind_some, Option.bind_eq_bind]
          congr 1
          funext part
          congr 1
          funext literal
          rw [endsWith_eq]
          split
          next hsuffix =>
            obtain ⟨front, rfl⟩ := List.isSuffixOf_iff_suffix.mp hsuffix
            rw [Checked.value_bind, Checked.value_difference (by simp)]
            rfl
          next => rfl

theorem checkedSearchParts_value (pattern value : Str) (searchEnd : Nat)
    (parts : List (Nat × Nat)) (searchStart : Nat) :
    (checkedSearchParts pattern value searchEnd parts searchStart).value =
      searchParts pattern value searchEnd parts searchStart := by
  induction parts generalizing searchStart with
  | nil => rfl
  | cons part parts ih =>
      simp only [checkedSearchParts, searchParts, Checked.value_bind, Checked.value_slice,
        Option.bind_eq_bind]
      congr 1
      funext literal
      cases hwindow : slice? value searchStart searchEnd with
      | none => rfl
      | some window =>
          simp only [Option.bind_some, findBytes?_bytes]
          cases hfind : find? literal window with
          | none => rfl
          | some found =>
              -- the literal ends inside the window, and the window inside the value
              obtain ⟨hstop, hlen⟩ := byteLen_of_slice? hwindow
              obtain ⟨a, b, rfl, rfl, -⟩ := find?_eq_some hfind
              simp only [byteLen_append] at hstop
              simp only [Checked.value_bind]
              rw [Checked.value_offset (by omega), Option.bind_some, ih]

private theorem anchorEnd_le {pattern value : Str} {parts : List (Nat × Nat)}
    {anchored : Bool} {searchEnd last : Nat}
    (h : anchorEnd pattern value parts anchored = some (some (searchEnd, last))) :
    last ≤ parts.length := by
  cases anchored with
  | false =>
      cases h
      exact Nat.le_refl _
  | true =>
      simp only [anchorEnd, Option.bind_eq_bind, Option.bind_eq_some_iff] at h
      obtain ⟨part, -, literal, -, hresult⟩ := h
      split at hresult
      · cases hresult
        exact Nat.sub_le _ _
      · cases hresult

theorem checkedMatchesMulti_value (pattern value : Str) (parts : List (Nat × Nat))
    (anchoredStart anchoredEnd : Bool) :
    (checkedMatchesMulti pattern value parts anchoredStart anchoredEnd).value =
      matchesMulti? pattern value parts anchoredStart anchoredEnd := by
  rw [checkedMatchesMulti, matchesMulti?, Checked.value_bind, checkedAnchorStart_value]
  congr 1
  funext start
  cases start with
  | none => rfl
  | some start =>
      obtain ⟨searchStart, first⟩ := start
      rw [Checked.value_bind, checkedAnchorEnd_value]
      dsimp only
      cases hend : anchorEnd pattern value parts anchoredEnd with
      | none => rfl
      | some found =>
          cases found with
          | none => rfl
          | some found =>
              obtain ⟨searchEnd, last⟩ := found
              have hrange : (Checked.range parts first last).value =
                  if last < first then none else some ((parts.take last).drop first) :=
                Checked.value_range (anchorEnd_le hend)
              simp only [Option.bind_some]
              split
              · rfl
              · rw [Checked.value_bind, hrange]
                split
                · rfl
                · rw [Option.bind_some, checkedSearchParts_value]

private theorem shapeOf_eq_prefixSuffix {anchoredStart anchoredEnd : Bool}
    {parts : List (Nat × Nat)} {prefixEnd suffixStart : Nat}
    (h : shapeOf anchoredStart anchoredEnd parts = .prefixSuffix prefixEnd suffixStart) :
    ∃ start stop, parts = [(start, prefixEnd), (suffixStart, stop)] := by
  unfold shapeOf at h
  split at h
  · cases h
  · split at h
    · cases h
    · split at h <;> cases h
  · split at h
    · cases h
      exact ⟨_, _, rfl⟩
    · cases h
  · cases h

/-- The prefix and the suffix of a pattern are two of its parts, so they fit into it. -/
private theorem prefixSuffix_fit {pattern head tail : Str} {prefixEnd suffixStart : Nat}
    (hkind : kindOf pattern = .prefixSuffix prefixEnd suffixStart)
    (hhead : slice? pattern 0 prefixEnd = some head)
    (htail : slice? pattern suffixStart (byteLen pattern) = some tail) :
    byteLen head + byteLen tail ≤ byteLen pattern := by
  rw [kindOf] at hkind
  split at hkind
  · cases hkind
  · obtain ⟨start, stop, hparts⟩ := shapeOf_eq_prefixSuffix hkind
    have hordered := parts_pairwise pattern
    rw [hparts] at hordered
    have hle : prefixEnd ≤ suffixStart := by simpa using hordered
    obtain ⟨hheadLen, -⟩ := byteLen_of_slice? hhead
    obtain ⟨htailLen, -⟩ := byteLen_of_slice? htail
    omega

theorem checkedMatches_value (glob : SegmentGlob) (value : Str) :
    (glob.checkedMatches value).value = glob.matches? value := by
  unfold checkedMatches matches?
  cases hkind : glob.kind with
  | any => rfl
  | exact =>
      have hbytes : (bytes value == bytes glob.pattern) = (value == glob.pattern) := by
        rw [Bool.eq_iff_iff, beq_iff_eq, beq_iff_eq]
        exact ⟨bytes_injective, congrArg bytes⟩
      simp [hbytes]
  | prefixed stop => simp [startsWith_eq]
  | suffixed start => simp [endsWith_eq]
  | contains start stop => simp [findBytes?_bytes]
  | prefixSuffix prefixEnd suffixStart =>
      simp only [Checked.value_bind, Checked.value_slice, Checked.value_pure, startsWith_eq,
        endsWith_eq, Option.bind_eq_bind]
      cases hhead : slice? glob.pattern 0 prefixEnd with
      | none => rfl
      | some head =>
          cases htail : slice? glob.pattern suffixStart (byteLen glob.pattern) with
          | none => rfl
          | some tail =>
              have hfit := prefixSuffix_fit (glob.compiled ▸ hkind) hhead htail
              simp only [Option.bind_some, Checked.value_offset hfit]
  | multi parts anchoredStart anchoredEnd =>
      exact checkedMatchesMulti_value glob.pattern value parts anchoredStart anchoredEnd

end SegmentGlob

/--
The accesses of the identity code are all valid, for every URI, every pattern and every
value: each slice lies in its text, in order and between two character boundaries, and
nothing else that could be refused is.
-/
theorem accesses_valid (uri context pattern value : Str) (glob : SegmentGlob) :
    (checkedParseSpiffeUri uri context).Completes (parseSpiffeUri uri context) ∧
      (SegmentGlob.checkedNew pattern).Completes (SegmentGlob.new pattern).kind ∧
      (∀ part ∈ SegmentGlob.parts pattern, (Access.slice pattern part.1 part.2).Valid) ∧
      (glob.checkedMatches value).Completes (glob.matches value) := by
  refine ⟨checkedParseSpiffeUri_completes uri context, ?_, ?_, ?_⟩
  · exact Checked.completes_of_value (SegmentGlob.checkedNew_value pattern)
  · intro part hpart
    have hslice := List.mem_map_of_mem (f := fun r => slice? pattern r.1 r.2) hpart
    rw [SegmentGlob.slice_parts, List.mem_map] at hslice
    obtain ⟨literal, -, hliteral⟩ := hslice
    apply slice?_isSome_iff.mp
    rw [← hliteral]
    rfl
  · apply Checked.completes_of_value
    rw [SegmentGlob.checkedMatches_value, SegmentGlob.matches, Option.some_get]

section Example

private def accented : SegmentGlob := .new "é*ß*ü".toList

theorem accented_accesses_valid :
    (accented.checkedMatches "éaßü".toList).accesses =
        [.item 3 0, .slice "é*ß*ü".toList 0 2, .difference 3 1, .item 3 2,
          .slice "é*ß*ü".toList 6 8, .difference 7 2, .range 3 1 2,
          .slice "é*ß*ü".toList 3 5, .slice "éaßü".toList 2 5, .offset "éaßü".toList 5] ∧
      ∀ access ∈ (accented.checkedMatches "éaßü".toList).accesses, access.Valid := by
  refine ⟨by decide +kernel, ?_⟩
  obtain ⟨-, -, -, hmatches⟩ :=
    accesses_valid [] [] [] "éaßü".toList accented
  exact hmatches.valid

end Example

end Interlink
