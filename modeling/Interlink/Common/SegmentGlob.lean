import Interlink.Foundation.Glob
import Interlink.Common.Error

/-!
# Compiled segment globs

`SegmentGlob::new` compiles the pattern of one SPIFFE path segment to one of
seven shapes, each of which keeps byte ranges into the pattern text;
`SegmentGlob::matches` cuts those ranges out of the pattern and compares them
with a value.  A cut that Rust would refuse is `none` here.  The main results
are that no cut is ever refused and that every shape decides membership in the
language of the glob.
-/

namespace Interlink

open Interlink.Foundation

inductive SegmentGlobKind where
  | any
  | exact
  | prefixed (stop : Nat)
  | suffixed (start : Nat)
  | contains (start stop : Nat)
  | prefixSuffix (prefixEnd suffixStart : Nat)
  | multi (parts : List (Nat × Nat)) (anchoredStart anchoredEnd : Bool)
  deriving DecidableEq, Repr

namespace SegmentGlob

/-- The byte offsets at which a character occurs, as `str::match_indices` lists them. -/
def matchIndices (c : Char) : Nat → Str → List Nat
  | _, [] => []
  | base, d :: s =>
      if d = c then base :: matchIndices c (base + d.utf8Size) s
      else matchIndices c (base + d.utf8Size) s

/-- One turn of the loop over the wildcards: close the part that ends at `index`. -/
def closePart (state : List (Nat × Nat) × Nat) (index : Nat) :
    List (Nat × Nat) × Nat :=
  (if state.2 ≠ index then state.1 ++ [(state.2, index)] else state.1, index + 1)

def parts (pattern : Str) : List (Nat × Nat) :=
  let state := (matchIndices '*' 0 pattern).foldl closePart ([], 0)
  if state.2 ≠ byteLen pattern then state.1 ++ [(state.2, byteLen pattern)]
  else state.1

def shapeOf (anchoredStart anchoredEnd : Bool) : List (Nat × Nat) → SegmentGlobKind
  | [] => .any
  | [(start, stop)] =>
      if anchoredStart then .prefixed stop
      else if anchoredEnd then .suffixed start
      else .contains start stop
  | [(start, prefixEnd), (suffixStart, stop)] =>
      if anchoredStart && anchoredEnd then .prefixSuffix prefixEnd suffixStart
      else .multi [(start, prefixEnd), (suffixStart, stop)] anchoredStart anchoredEnd
  | parts => .multi parts anchoredStart anchoredEnd

/-- The shape `SegmentGlob::new` chooses. -/
def kindOf (pattern : Str) : SegmentGlobKind :=
  if (bytes pattern).countP (· == 42) = 0 then .exact
  else shapeOf (pattern.head? != some '*') (pattern.getLast? != some '*') (parts pattern)

end SegmentGlob

/--
A pattern with its shape.  Both fields are private in the source and `new` is
the only constructor, so the shape is always the one compiled from the text.
-/
structure SegmentGlob where
  pattern : Str
  kind : SegmentGlobKind
  compiled : kind = SegmentGlob.kindOf pattern
  deriving DecidableEq

namespace SegmentGlob

def new (pattern : Str) : SegmentGlob := ⟨pattern, kindOf pattern, rfl⟩

def searchParts (pattern value : Str) (searchEnd : Nat) :
    List (Nat × Nat) → Nat → Option Bool
  | [], _ => some true
  | (start, stop) :: parts, searchStart => do
      let literal ← slice? pattern start stop
      let window ← slice? value searchStart searchEnd
      match find? literal window with
      | none => some false
      | some offset =>
          searchParts pattern value searchEnd parts
            (searchStart + (offset + byteLen literal))

/-- The check at an anchored start: `none` inside means the prefix does not match. -/
def anchorStart (pattern value : Str) (parts : List (Nat × Nat)) :
    Bool → Option (Option (Nat × Nat))
  | false => some (some (0, 0))
  | true => do
      let (start, stop) ← parts[0]?
      let literal ← slice? pattern start stop
      if literal.isPrefixOf value then some (some (byteLen literal, 1))
      else some none

def anchorEnd (pattern value : Str) (parts : List (Nat × Nat)) :
    Bool → Option (Option (Nat × Nat))
  | false => some (some (byteLen value, parts.length))
  | true => do
      let (start, stop) ← parts[parts.length - 1]?
      let literal ← slice? pattern start stop
      if literal.isSuffixOf value then
        some (some (byteLen value - byteLen literal, parts.length - 1))
      else some none

/-- `matches_multi`; the outer `none` is a panic. -/
def matchesMulti? (pattern value : Str) (parts : List (Nat × Nat))
    (anchoredStart anchoredEnd : Bool) : Option Bool :=
  (anchorStart pattern value parts anchoredStart).bind fun
    | none => some false
    | some (searchStart, first) =>
        (anchorEnd pattern value parts anchoredEnd).bind fun
          | none => some false
          | some (searchEnd, last) =>
              if searchEnd < searchStart then some false
              else if last < first then none
              else searchParts pattern value searchEnd
                ((parts.take last).drop first) searchStart

/-- `SegmentGlob::matches`; the outer `none` is a panic. -/
def matches? (glob : SegmentGlob) (value : Str) : Option Bool :=
  match glob.kind with
  | .any => some true
  | .exact => some (value == glob.pattern)
  | .prefixed stop => do
      let literal ← slice? glob.pattern 0 stop
      some (literal.isPrefixOf value)
  | .suffixed start => do
      let literal ← slice? glob.pattern start (byteLen glob.pattern)
      some (literal.isSuffixOf value)
  | .contains start stop => do
      let literal ← slice? glob.pattern start stop
      some (find? literal value).isSome
  | .prefixSuffix prefixEnd suffixStart => do
      let head ← slice? glob.pattern 0 prefixEnd
      let tail ← slice? glob.pattern suffixStart (byteLen glob.pattern)
      some (decide (byteLen head + byteLen tail ≤ byteLen value) &&
        head.isPrefixOf value && tail.isSuffixOf value)
  | .multi parts anchoredStart anchoredEnd =>
      matchesMulti? glob.pattern value parts anchoredStart anchoredEnd

/-! ## The parts are the literal segments

The ranges found by the loop over the wildcards cut out of the pattern exactly
its non-empty segments, in order.
-/

private def ranges : Nat → List Str → List (Nat × Nat)
  | _, [] => []
  | base, segment :: rest =>
      (if segment = [] then [] else [(base, base + byteLen segment)]) ++
        ranges (base + byteLen segment + 1) rest

private theorem utf8Size_star : ('*' : Char).utf8Size = 1 := by decide

private theorem matchIndices_literal {s : Str} (h : '*' ∉ s) (base : Nat) :
    matchIndices '*' base s = [] := by
  induction s generalizing base with
  | nil => rfl
  | cons d s ih =>
      have hd : d ≠ '*' := by
        rintro rfl
        exact h (by simp)
      simp only [matchIndices, hd, if_false]
      exact ih (fun hs => h (List.mem_cons_of_mem d hs)) _

private theorem matchIndices_append {s : Str} (h : '*' ∉ s) (rest : Str)
    (base : Nat) :
    matchIndices '*' base (s ++ '*' :: rest) =
      (base + byteLen s) :: matchIndices '*' (base + byteLen s + 1) rest := by
  induction s generalizing base with
  | nil => simp [matchIndices, utf8Size_star]
  | cons d s ih =>
      have hd : d ≠ '*' := by
        rintro rfl
        exact h (by simp)
      simp only [List.cons_append, matchIndices, hd, if_false, byteLen_cons]
      rw [ih (fun hs => h (List.mem_cons_of_mem d hs))]
      simp only [Nat.add_assoc]

private theorem foldl_closePart (segs : List Str) (hne : segs ≠ [])
    (hstar : ∀ segment ∈ segs, '*' ∉ segment)
    (acc : List (Nat × Nat)) (base : Nat) :
    let pattern := ['*'].intercalate segs
    let state := (matchIndices '*' base pattern).foldl closePart (acc, base)
    (if state.2 ≠ base + byteLen pattern then
      state.1 ++ [(state.2, base + byteLen pattern)] else state.1) =
        acc ++ ranges base segs := by
  induction segs generalizing acc base with
  | nil => contradiction
  | cons segment rest ih =>
      have hsegment := hstar segment (by simp)
      cases rest with
      | nil =>
          simp only [List.intercalate_singleton, matchIndices_literal hsegment,
            List.foldl_nil, ranges, List.append_nil]
          by_cases hnil : segment = []
          · simp [hnil]
          · have hpos : byteLen segment ≠ 0 := fun h => hnil (byteLen_eq_zero.mp h)
            simp [hnil, hpos]
      | cons next rest =>
          have hrest := ih (by simp)
            (fun s hs => hstar s (List.mem_cons_of_mem _ hs))
            (closePart (acc, base) (base + byteLen segment)).1
            (base + byteLen segment + 1)
          simp only [List.intercalate_cons_cons, List.append_assoc,
            List.singleton_append, matchIndices_append hsegment,
            List.foldl_cons, byteLen_append, byteLen_cons, utf8Size_star]
          have hlen (n : Nat) : base + (byteLen segment + (1 + n)) =
              base + byteLen segment + 1 + n := by omega
          rw [hlen]
          refine hrest.trans ?_
          by_cases hnil : segment = []
          · simp [closePart, ranges, hnil]
          · have hpos : byteLen segment ≠ 0 := fun h => hnil (byteLen_eq_zero.mp h)
            simp [closePart, ranges, hnil, hpos]

private theorem parts_eq_ranges (pattern : Str) :
    parts pattern = ranges 0 (Glob.segments '*' pattern) := by
  have h := foldl_closePart (Glob.segments '*' pattern)
    (Glob.segments_ne_nil '*' pattern)
    (fun _ hs => Glob.not_mem_segments hs) [] 0
  simpa [Glob.intercalate_segments, parts] using h

private theorem slice_ranges (pre : Str) (segs : List Str) :
    (ranges (byteLen pre) segs).map
        (fun r => slice? (pre ++ ['*'].intercalate segs) r.1 r.2) =
      (segs.filter (· ≠ [])).map some := by
  induction segs generalizing pre with
  | nil => rfl
  | cons segment rest ih =>
      have htail : (ranges (byteLen pre + byteLen segment + 1) rest).map
          (fun r => slice? (pre ++ ['*'].intercalate (segment :: rest)) r.1 r.2) =
            (rest.filter (· ≠ [])).map some := by
        cases rest with
        | nil => rfl
        | cons next rest =>
            have hnext := ih (pre ++ (segment ++ ['*']))
            simpa [List.intercalate_cons_cons, utf8Size_star, Nat.add_assoc]
              using hnext
      have hhead (tail : Str) :
          slice? (pre ++ (segment ++ tail)) (byteLen pre)
            (byteLen pre + byteLen segment) = some segment :=
        slice?_append pre segment tail
      obtain ⟨tail, hpattern⟩ :
          ∃ tail, ['*'].intercalate (segment :: rest) = segment ++ tail := by
        cases rest with
        | nil => exact ⟨[], by simp⟩
        | cons next rest =>
            exact ⟨['*'] ++ ['*'].intercalate (next :: rest), by
              simp [List.intercalate_cons_cons]⟩
      rw [ranges, List.map_append, htail, hpattern]
      by_cases hnil : segment = []
      · simp [hnil]
      · simp [hnil, hhead]

theorem slice_parts (pattern : Str) :
    (parts pattern).map (fun r => slice? pattern r.1 r.2) =
      ((Glob.segments '*' pattern).filter (· ≠ [])).map some := by
  have h := slice_ranges [] (Glob.segments '*' pattern)
  simpa [parts_eq_ranges, Glob.intercalate_segments] using h

private theorem le_of_mem_ranges {base : Nat} {segs : List Str} {r : Nat × Nat}
    (h : r ∈ ranges base segs) : base ≤ r.1 := by
  induction segs generalizing base with
  | nil => simp [ranges] at h
  | cons segment rest ih =>
      rw [ranges, List.mem_append] at h
      rcases h with h | h
      · split at h
        · simp at h
        · rw [List.mem_singleton.mp h]
      · have := ih h
        omega

private theorem ranges_pairwise (base : Nat) (segs : List Str) :
    (ranges base segs).Pairwise fun first second => first.2 ≤ second.1 := by
  induction segs generalizing base with
  | nil => simp [ranges]
  | cons segment rest ih =>
      rw [ranges, List.pairwise_append]
      refine ⟨?_, ih _, ?_⟩
      · split <;> simp
      · intro first hfirst second hsecond
        have hle := le_of_mem_ranges hsecond
        split at hfirst
        · simp at hfirst
        · rw [List.mem_singleton.mp hfirst]
          omega

theorem parts_pairwise (pattern : Str) :
    (parts pattern).Pairwise fun first second => first.2 ≤ second.1 := by
  rw [parts_eq_ranges]
  exact ranges_pairwise 0 _

/-! ## The anchored search -/

theorem exists_middle {first last value : Str} (hfirst : first <+: value)
    (hlast : last <:+ value)
    (hlen : byteLen first + byteLen last ≤ byteLen value) :
    ∃ m, value = first ++ (m ++ last) := by
  obtain ⟨u, hu⟩ := hlast
  have hupre : u <+: value := ⟨last, hu⟩
  rcases List.prefix_or_prefix_of_prefix hfirst hupre with h | h
  · obtain ⟨m, rfl⟩ := h
    exact ⟨m, by rw [← hu, List.append_assoc]⟩
  · obtain ⟨x, rfl⟩ := h
    have hx : byteLen x = 0 := by
      rw [← hu] at hlen
      simp only [byteLen_append] at hlen
      omega
    have hxnil := byteLen_eq_zero.mp hx
    subst hxnil
    exact ⟨[], by simpa using hu.symm⟩

private theorem searchParts_spec {pattern : Str} {parts : List (Nat × Nat)}
    {literals : List Str}
    (hcut : parts.map (fun r => slice? pattern r.1 r.2) = literals.map some)
    (pre window post : Str) :
    ∃ b, searchParts pattern (pre ++ (window ++ post))
        (byteLen pre + byteLen window) parts (byteLen pre) = some b ∧
      (b = true ↔ window ∈ Glob.between literals) := by
  induction parts generalizing literals pre window with
  | nil =>
      have hnil : literals = [] := by simpa using hcut.symm
      subst hnil
      exact ⟨true, rfl, by simp [Glob.mem_between_nil]⟩
  | cons part parts ih =>
      cases literals with
      | nil => simp at hcut
      | cons literal literals =>
          simp only [List.map_cons, List.cons.injEq] at hcut
          obtain ⟨hliteral, hcut⟩ := hcut
          simp only [searchParts, hliteral, slice?_append, Option.bind_eq_bind,
            Option.bind_some]
          cases hfind : find? literal window with
          | none =>
              refine ⟨false, rfl, ?_⟩
              have hmiss := Glob.not_mem_between_cons literals
                (find?_eq_none.mp hfind)
              simp [hmiss]
          | some offset =>
              obtain ⟨a, b, rfl, rfl, hfirst⟩ := find?_eq_some hfind
              have hstep := ih hcut (pre ++ (a ++ literal)) b
              simp only [byteLen_append, List.append_assoc, Nat.add_assoc]
                at hstep hfind ⊢
              obtain ⟨found, hsearch, hmem⟩ := hstep
              refine ⟨found, hsearch, ?_⟩
              rw [hmem, Glob.mem_between_cons_iff_of_first hfirst]

private def layout (anchoredStart anchoredEnd : Bool) (first last : Str)
    (inner : List Str) : List Str :=
  (if anchoredStart then [first] else []) ++
    (inner ++ if anchoredEnd then [last] else [])

section Anchors

variable {pattern first last : Str} {inner : List Str}
  {parts : List (Nat × Nat)} {anchoredStart anchoredEnd : Bool}
  (hcut : parts.map (fun r => slice? pattern r.1 r.2) =
    (layout anchoredStart anchoredEnd first last inner).map some)

include hcut

private theorem parts_length :
    parts.length = anchoredStart.toNat + (inner.length + anchoredEnd.toNat) := by
  have h := congrArg List.length hcut
  cases anchoredStart <;> cases anchoredEnd <;> simp [layout] at h <;>
    simp [h] <;> omega

private theorem anchorStart_eq (hstart : anchoredStart = false → first = [])
    (value : Str) :
    anchorStart pattern value parts anchoredStart =
      some (if first.isPrefixOf value then
        some (byteLen first, anchoredStart.toNat) else none) := by
  cases anchoredStart with
  | false => simp [anchorStart, hstart rfl]
  | true =>
      cases parts with
      | nil => simp [layout] at hcut
      | cons part parts =>
          simp only [layout, if_true, List.cons_append, List.nil_append,
            List.map_cons, List.cons.injEq] at hcut
          by_cases hpre : first <+: value <;>
            simp [anchorStart, hcut.1, hpre]

private theorem anchorEnd_eq (hend : anchoredEnd = false → last = [])
    (value : Str) :
    anchorEnd pattern value parts anchoredEnd =
      some (if last.isSuffixOf value then
        some (byteLen value - byteLen last, parts.length - anchoredEnd.toNat)
        else none) := by
  cases anchoredEnd with
  | false => simp [anchorEnd, hend rfl]
  | true =>
      have hlength := parts_length hcut
      have hlast : (parts.map (fun r => slice? pattern r.1 r.2))[parts.length - 1]? =
          some (some last) := by
        rw [hcut, hlength]
        cases anchoredStart <;> simp [layout]
      rw [List.getElem?_map, Option.map_eq_some_iff] at hlast
      obtain ⟨part, hpart, hslice⟩ := hlast
      by_cases hsuf : last <:+ value <;>
        simp [anchorEnd, hpart, hslice, hsuf]

private theorem inner_cut :
    ((parts.take (parts.length - anchoredEnd.toNat)).drop
        anchoredStart.toNat).map (fun r => slice? pattern r.1 r.2) =
      inner.map some := by
  have hlength := parts_length hcut
  rw [List.map_drop, List.map_take, hcut, hlength]
  cases anchoredStart <;> cases anchoredEnd <;>
    simp [layout, Nat.add_comm 1]

private theorem matchesMulti?_spec
    (hstart : anchoredStart = false → first = [])
    (hend : anchoredEnd = false → last = []) (value : Str) :
    ∃ b, matchesMulti? pattern value parts anchoredStart anchoredEnd = some b ∧
      (b = true ↔
        ∃ m, value = first ++ (m ++ last) ∧ m ∈ Glob.between inner) := by
  have hlength := parts_length hcut
  rw [matchesMulti?, anchorStart_eq hcut hstart]
  by_cases hpre : first <+: value
  · rw [if_pos (List.isPrefixOf_iff_prefix.mpr hpre)]
    simp only [Option.bind_some]
    rw [anchorEnd_eq hcut hend]
    by_cases hsuf : last <:+ value
    · rw [if_pos (List.isSuffixOf_iff_suffix.mpr hsuf)]
      simp only [Option.bind_some]
      have hsuflen : byteLen last ≤ byteLen value := by
        obtain ⟨u, rfl⟩ := hsuf
        simp
      by_cases hroom : byteLen value - byteLen last < byteLen first
      · rw [if_pos hroom]
        refine ⟨false, rfl, ?_⟩
        constructor
        · intro h
          contradiction
        · rintro ⟨m, rfl, -⟩
          simp only [byteLen_append] at hroom
          omega
      · rw [if_neg hroom, if_neg (by omega)]
        obtain ⟨m, rfl⟩ := exists_middle hpre hsuf (by omega)
        obtain ⟨b, hsearch, hmem⟩ :=
          searchParts_spec (inner_cut hcut) first m last
        have hstop : byteLen (first ++ (m ++ last)) - byteLen last =
            byteLen first + byteLen m := by
          simp only [byteLen_append]
          omega
        rw [hstop]
        refine ⟨b, hsearch, hmem.trans ?_⟩
        constructor
        · intro hm
          exact ⟨m, rfl, hm⟩
        · rintro ⟨m', heq, hm'⟩
          have hmm : m = m' := by simpa using heq
          exact hmm ▸ hm'
    · rw [if_neg (fun h => hsuf (List.isSuffixOf_iff_suffix.mp h))]
      refine ⟨false, rfl, ?_⟩
      constructor
      · intro h
        contradiction
      · rintro ⟨m, rfl, -⟩
        exact absurd ⟨first ++ m, by simp⟩ hsuf
  · rw [if_neg (fun h => hpre (List.isPrefixOf_iff_prefix.mp h))]
    refine ⟨false, rfl, ?_⟩
    constructor
    · intro h
      contradiction
    · rintro ⟨m, rfl, -⟩
      exact absurd (List.prefix_append _ _) hpre

end Anchors

/-! ## Shape of a pattern with a wildcard -/

private theorem countP_star_eq_zero {pattern : Str} :
    (bytes pattern).countP (· == 42) = 0 ↔ '*' ∉ pattern := by
  have hascii : AsciiOnly (· == 42) := by
    intro b hb
    have : b = 42 := by simpa using hb
    simp [this]
  have hany : (bytes pattern).countP (· == 42) = 0 ↔
      (bytes pattern).any (· == 42) = false := by
    simp [List.countP_eq_zero]
  have hstar (c : Char) : onChar (· == 42) c = true ↔ c = '*' :=
    onChar_beq (by decide) c
  rw [hany, any_bytes hascii, List.any_eq_false]
  constructor
  · intro h hmem
    exact h '*' hmem ((hstar '*').mpr rfl)
  · intro h c hc htrue
    exact h ((hstar c).mp htrue ▸ hc)

private theorem exists_first (first : Str) (rest : List Str) (hrest : rest ≠ []) :
    ∃ tail, ['*'].intercalate (first :: rest) = first ++ '*' :: tail := by
  cases rest with
  | nil => contradiction
  | cons next rest =>
      exact ⟨['*'].intercalate (next :: rest), by
        simp [List.intercalate_cons_cons]⟩

private theorem exists_last (first : Str) (middle : List Str) (last : Str) :
    ∃ head, ['*'].intercalate (first :: (middle ++ [last])) =
      head ++ '*' :: last := by
  induction middle generalizing first with
  | nil => exact ⟨first, by simp [List.intercalate_cons_cons]⟩
  | cons next middle ih =>
      obtain ⟨head, hhead⟩ := ih next
      exact ⟨first ++ '*' :: head, by
        simp [List.intercalate_cons_cons, hhead]⟩

private theorem ranges_ends (base : Nat) (first : Str) (middle : List Str)
    (last : Str) (hlast : last ≠ []) :
    ∃ init, ranges base (first :: (middle ++ [last])) =
      init ++ [(base + byteLen (['*'].intercalate (first :: (middle ++ [last]))) -
          byteLen last,
        base + byteLen (['*'].intercalate (first :: (middle ++ [last]))))] := by
  induction middle generalizing base first with
  | nil =>
      refine ⟨if first = [] then [] else [(base, base + byteLen first)], ?_⟩
      simp [ranges, hlast, List.intercalate_cons_cons, utf8Size_star]
      omega
  | cons next middle ih =>
      obtain ⟨init, hinit⟩ := ih (base + byteLen first + 1) next
      refine ⟨(if first = [] then [] else [(base, base + byteLen first)]) ++ init,
        ?_⟩
      rw [List.cons_append, ranges, hinit, List.append_assoc]
      simp [List.intercalate_cons_cons, utf8Size_star]
      omega

/--
What the shape of a glob with a wildcard rests on: its first segment, its last
segment and the inner literals give the language; the anchors say whether the
first and the last are empty; and the parts cut out these literals, starting
and ending at the ends of the pattern.
-/
private structure Shape (pattern first last : Str) (inner : List Str) : Prop where
  mem_language : ∀ value, value ∈ Glob.language '*' pattern ↔
    ∃ m, value = first ++ (m ++ last) ∧ m ∈ Glob.between inner
  cut : (parts pattern).map (fun r => slice? pattern r.1 r.2) =
    (layout (decide (first ≠ [])) (decide (last ≠ [])) first last inner).map some
  anchoredStart : (pattern.head? != some '*') = decide (first ≠ [])
  anchoredEnd : (pattern.getLast? != some '*') = decide (last ≠ [])
  head_cut : first ≠ [] → ∃ rest, parts pattern = (0, byteLen first) :: rest ∧
    slice? pattern 0 (byteLen first) = some first
  tail_cut : last ≠ [] → ∃ start init,
    parts pattern = init ++ [(start, byteLen pattern)] ∧
      slice? pattern start (byteLen pattern) = some last

private theorem exists_shape {pattern : Str} (hstar : '*' ∈ pattern) :
    ∃ first last inner, Shape pattern first last inner := by
  obtain ⟨first, rest, hsegments⟩ :=
    List.exists_cons_of_ne_nil (Glob.segments_ne_nil '*' pattern)
  have hpattern := Glob.intercalate_segments '*' pattern
  have hfree : ∀ segment ∈ Glob.segments '*' pattern, '*' ∉ segment :=
    fun _ h => Glob.not_mem_segments h
  rw [hsegments] at hpattern hfree
  have hrest : rest ≠ [] := by
    rintro rfl
    rw [List.intercalate_singleton] at hpattern
    exact hfree first (by simp) (hpattern ▸ hstar)
  obtain ⟨middle, last, rfl⟩ : ∃ middle last, rest = middle ++ [last] :=
    ⟨rest.dropLast, rest.getLast hrest,
      (List.dropLast_append_getLast hrest).symm⟩
  have hfirst : '*' ∉ first := hfree first (by simp)
  have hlast : '*' ∉ last := hfree last (by simp)
  obtain ⟨tail, htail⟩ := exists_first first (middle ++ [last]) hrest
  obtain ⟨head, hhead⟩ := exists_last first middle last
  refine ⟨first, last, middle.filter (· ≠ []), ?_, ?_, ?_, ?_, ?_, ?_⟩
  · intro value
    have hlanguage := Glob.language_intercalate first last middle hfree
    rw [hpattern] at hlanguage
    rw [hlanguage, Glob.mem_affixed, Glob.between_filter_ne_nil]
  · rw [slice_parts, hsegments]
    by_cases hfirst : first = [] <;> by_cases hlast : last = [] <;>
      simp [layout, hfirst, hlast]
  · rw [← hpattern, htail]
    cases first with
    | nil => simp
    | cons c first =>
        have hc : c ≠ '*' := fun h => hfirst (by simp [h])
        simp [hc]
  · rw [← hpattern, hhead]
    rcases List.eq_nil_or_concat last with rfl | ⟨init, c, rfl⟩
    · simp
    · have hc : c ≠ '*' := fun h => hlast (by simp [h])
      have hgetLast : (head ++ '*' :: (init.concat c)).getLast? = some c := by
        rw [List.concat_eq_append]
        exact List.getLast?_eq_some_iff.mpr ⟨head ++ '*' :: init, by simp⟩
      rw [hgetLast]
      simp [hc]
  · intro hne
    refine ⟨ranges (0 + byteLen first + 1) (middle ++ [last]), ?_, ?_⟩
    · rw [parts_eq_ranges, hsegments]
      simp [ranges, hne]
    · rw [← hpattern, htail]
      exact slice?_head first _
  · intro hne
    obtain ⟨init, hinit⟩ := ranges_ends 0 first middle last hne
    rw [hpattern, Nat.zero_add] at hinit
    refine ⟨byteLen pattern - byteLen last, init, ?_, ?_⟩
    · rw [parts_eq_ranges, hsegments, hinit]
    · have hcut : pattern = (head ++ ['*']) ++ last := by
        rw [← hpattern, hhead]
        simp
      have hstart : byteLen pattern - byteLen last = byteLen (head ++ ['*']) := by
        rw [hcut, byteLen_append]
        omega
      rw [hstart]
      nth_rewrite 1 [hcut]
      rw [hcut]
      exact slice?_suffix (head ++ ['*']) last

/-! ## Every shape decides the language -/

section Shapes

variable {pattern first last : Str} {inner : List Str}
  (shape : Shape pattern first last inner)

include shape

private theorem Shape.of_no_part (hparts : parts pattern = []) :
    first = [] ∧ last = [] ∧ inner = [] := by
  have hcut := shape.cut
  rw [hparts] at hcut
  by_cases hfirst : first = [] <;> by_cases hlast : last = [] <;>
    simp_all [layout]

private theorem Shape.any_spec (hparts : parts pattern = []) (value : Str) :
    value ∈ Glob.language '*' pattern := by
  obtain ⟨rfl, rfl, rfl⟩ := shape.of_no_part hparts
  rw [shape.mem_language]
  exact ⟨value, by simp, Glob.mem_between_nil value⟩

private theorem Shape.prefixed_spec {start stop : Nat}
    (hparts : parts pattern = [(start, stop)]) (hfirst : first ≠ [])
    (value : Str) :
    ∃ literal, slice? pattern 0 stop = some literal ∧
      (literal.isPrefixOf value = true ↔
        value ∈ Glob.language '*' pattern) := by
  obtain ⟨rest, hpartsStart, hslice⟩ := shape.head_cut hfirst
  have hstop : stop = byteLen first := by
    rw [hparts] at hpartsStart
    simp_all
  have hlength := parts_length shape.cut
  simp only [hparts, hfirst, ne_eq, not_false_eq_true, decide_true,
    Bool.toNat_true, List.length_singleton] at hlength
  have hinner : inner = [] := List.length_eq_zero_iff.mp (by omega)
  have hlast : last = [] := by
    by_contra h
    simp [h] at hlength
  refine ⟨first, by rw [hstop, hslice], ?_⟩
  rw [shape.mem_language, hinner, hlast, List.isPrefixOf_iff_prefix]
  constructor
  · rintro ⟨u, rfl⟩
    exact ⟨u, by simp, Glob.mem_between_nil u⟩
  · rintro ⟨m, rfl, -⟩
    exact List.prefix_append first _

private theorem Shape.suffixed_spec {start stop : Nat}
    (hparts : parts pattern = [(start, stop)]) (hfirst : first = [])
    (hlast : last ≠ []) (value : Str) :
    ∃ literal, slice? pattern start (byteLen pattern) = some literal ∧
      (literal.isSuffixOf value = true ↔
        value ∈ Glob.language '*' pattern) := by
  obtain ⟨start', init, hpartsEnd, hslice⟩ := shape.tail_cut hlast
  have hstart : start' = start := by
    rw [hparts] at hpartsEnd
    cases init with
    | nil => simp_all
    | cons x init => simp at hpartsEnd
  have hlength := parts_length shape.cut
  simp only [hparts, hfirst, hlast, ne_eq, not_true_eq_false, decide_false,
    not_false_eq_true, decide_true, Bool.toNat_true, Bool.toNat_false,
    List.length_singleton] at hlength
  have hinner : inner = [] := List.length_eq_zero_iff.mp (by omega)
  refine ⟨last, by rw [← hstart, hslice], ?_⟩
  rw [shape.mem_language, hinner, hfirst, List.isSuffixOf_iff_suffix]
  constructor
  · rintro ⟨u, rfl⟩
    exact ⟨u, rfl, Glob.mem_between_nil u⟩
  · rintro ⟨m, rfl, -⟩
    exact List.suffix_append m last

private theorem Shape.contains_spec {start stop : Nat}
    (hparts : parts pattern = [(start, stop)]) (hfirst : first = [])
    (hlast : last = []) (value : Str) :
    ∃ literal, slice? pattern start stop = some literal ∧
      ((find? literal value).isSome = true ↔
        value ∈ Glob.language '*' pattern) := by
  have hcut := shape.cut
  simp only [hparts, hfirst, hlast, layout, List.map_cons, List.map_nil, ne_eq,
    not_true_eq_false, decide_false, Bool.false_eq_true, if_false,
    List.nil_append, List.append_nil] at hcut
  obtain ⟨literal, rfl⟩ : ∃ literal, inner = [literal] := by
    have hlength := congrArg List.length hcut
    exact List.length_eq_one_iff.mp (by simpa using hlength.symm)
  refine ⟨literal, by simpa using hcut, ?_⟩
  have hfind : (find? literal value).isSome = true ↔ literal <:+: value := by
    rw [Option.isSome_iff_ne_none, Ne, find?_eq_none, not_not]
  rw [shape.mem_language, hfirst, hlast, hfind]
  constructor
  · rintro ⟨u, v, rfl⟩
    exact ⟨u ++ (literal ++ v), by simp, Glob.mem_between_cons.mpr
      ⟨u, v, rfl, Glob.mem_between_nil v⟩⟩
  · rintro ⟨m, rfl, hm⟩
    obtain ⟨u, v, rfl, -⟩ := Glob.mem_between_cons.mp hm
    exact ⟨u, v, by simp⟩

private theorem Shape.prefixSuffix_spec {start prefixEnd suffixStart stop : Nat}
    (hparts : parts pattern = [(start, prefixEnd), (suffixStart, stop)])
    (hfirst : first ≠ []) (hlast : last ≠ []) (value : Str) :
    ∃ head tail, slice? pattern 0 prefixEnd = some head ∧
      slice? pattern suffixStart (byteLen pattern) = some tail ∧
      ((decide (byteLen head + byteLen tail ≤ byteLen value) &&
          head.isPrefixOf value && tail.isSuffixOf value) = true ↔
        value ∈ Glob.language '*' pattern) := by
  obtain ⟨rest, hpartsStart, hhead⟩ := shape.head_cut hfirst
  obtain ⟨start', init, hpartsEnd, htail⟩ := shape.tail_cut hlast
  have hprefixEnd : prefixEnd = byteLen first := by
    rw [hparts] at hpartsStart
    simp_all
  have hsuffixStart : suffixStart = start' := by
    have h := congrArg List.getLast? hpartsEnd
    rw [hparts] at h
    simpa using congrArg (Option.map Prod.fst) h
  have hlength := parts_length shape.cut
  simp only [hparts, hfirst, hlast, ne_eq, not_false_eq_true, decide_true,
    Bool.toNat_true, List.length_cons, List.length_nil] at hlength
  have hinner : inner = [] := List.length_eq_zero_iff.mp (by omega)
  refine ⟨first, last, by rw [hprefixEnd, hhead], by rw [hsuffixStart, htail], ?_⟩
  rw [shape.mem_language, hinner]
  simp only [Bool.and_eq_true, decide_eq_true_eq,
    List.isPrefixOf_iff_prefix, List.isSuffixOf_iff_suffix]
  constructor
  · rintro ⟨⟨hroom, hpre⟩, hsuf⟩
    obtain ⟨m, rfl⟩ := exists_middle hpre hsuf hroom
    exact ⟨m, rfl, Glob.mem_between_nil m⟩
  · rintro ⟨m, rfl, -⟩
    refine ⟨⟨?_, List.prefix_append _ _⟩, ⟨first ++ m, by simp⟩⟩
    simp only [byteLen_append]
    omega

private theorem Shape.multi_spec (value : Str) :
    ∃ b, matchesMulti? pattern value (parts pattern) (decide (first ≠ []))
        (decide (last ≠ [])) = some b ∧
      (b = true ↔ value ∈ Glob.language '*' pattern) := by
  rw [shape.mem_language]
  exact matchesMulti?_spec shape.cut (by simp) (by simp) value

end Shapes

private theorem matches?_spec_star {pattern : Str} (hstar : '*' ∈ pattern)
    (value : Str) :
    ∃ b, (new pattern).matches? value = some b ∧
      (b = true ↔ value ∈ Glob.language '*' pattern) := by
  obtain ⟨first, last, inner, shape⟩ := exists_shape hstar
  have hcount : ¬ (bytes pattern).countP (· == 42) = 0 := fun h =>
    countP_star_eq_zero.mp h hstar
  have hmulti := shape.multi_spec value
  simp only [matches?, new, kindOf, shapeOf, hcount, if_false, shape.anchoredStart,
    shape.anchoredEnd]
  rcases hparts : parts pattern with - | ⟨⟨start, stop⟩, - | ⟨⟨suffixStart, suffixStop⟩, - |
    ⟨third, rest⟩⟩⟩
  case nil =>
      have hmem := shape.any_spec hparts value
      exact ⟨true, rfl, by simp [hmem]⟩
  case cons.nil =>
      by_cases hfirst : first = []
      · by_cases hlast : last = []
        · obtain ⟨literal, hslice, hiff⟩ :=
            shape.contains_spec hparts hfirst hlast value
          exact ⟨_, by simp [hfirst, hlast, hslice], hiff⟩
        · obtain ⟨literal, hslice, hiff⟩ :=
            shape.suffixed_spec hparts hfirst hlast value
          exact ⟨literal.isSuffixOf value, by simp [hfirst, hlast, hslice], hiff⟩
      · obtain ⟨literal, hslice, hiff⟩ :=
          shape.prefixed_spec hparts hfirst value
        exact ⟨literal.isPrefixOf value, by simp [hfirst, hslice], hiff⟩
  case cons.cons.nil =>
      by_cases hboth : first ≠ [] ∧ last ≠ []
      · obtain ⟨head, tail, hhead, htail, hiff⟩ :=
          shape.prefixSuffix_spec hparts hboth.1 hboth.2 value
        refine ⟨_, ?_, hiff⟩
        simp [hboth.1, hboth.2, hhead, htail]
      · have hnot : (decide (first ≠ []) && decide (last ≠ [])) = false := by
          simpa using hboth
        rw [hparts] at hmulti
        simpa only [hnot, Bool.false_eq_true, if_false] using hmulti
  case cons.cons.cons =>
      rw [hparts] at hmulti
      exact hmulti

theorem matches?_spec (glob : SegmentGlob) (value : Str) :
    ∃ b, glob.matches? value = some b ∧
      (b = true ↔ value ∈ Glob.language '*' glob.pattern) := by
  obtain ⟨pattern, kind, rfl⟩ := glob
  by_cases hstar : '*' ∈ pattern
  · exact matches?_spec_star hstar value
  · have hcount := countP_star_eq_zero.mpr hstar
    refine ⟨value == pattern, by simp [matches?, kindOf, hcount], ?_⟩
    rw [Glob.language_literal hstar, beq_iff_eq]
    rfl

theorem matches?_isSome (glob : SegmentGlob) (value : Str) :
    (glob.matches? value).isSome := by
  obtain ⟨b, hb, -⟩ := matches?_spec glob value
  simp [hb]

def «matches» (glob : SegmentGlob) (value : Str) : Bool :=
  (glob.matches? value).get (matches?_isSome glob value)

theorem matches_iff (glob : SegmentGlob) (value : Str) :
    glob.matches value = true ↔ value ∈ Glob.language '*' glob.pattern := by
  obtain ⟨b, hb, hmem⟩ := matches?_spec glob value
  rw [← hmem]
  simp [SegmentGlob.matches, hb]

/--
Whatever shape `new` has chosen, a value matches just when it is put together from one
word for each character of the pattern: any word for a star, and itself for every other
character.
-/
theorem new_matches_iff (pattern value : Str) :
    (new pattern).matches value = true ↔
      ∃ words : List Str,
        List.Forall₂ (Glob.StandsFor '*') pattern words ∧ value = words.flatten := by
  rw [matches_iff, ← Glob.mem_language_iff]
  rfl

end SegmentGlob

end Interlink
