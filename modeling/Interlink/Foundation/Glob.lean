import Mathlib.Computability.Language

/-!
# Glob languages

A glob is a word in which one symbol, the wildcard, stands for any word and
every other symbol for itself.  Cutting a glob at its wildcards leaves a list
of literal segments; the language is then a prefix, the inner literals in
order with anything between them, and a suffix.  The greedy rules at the end
say that such a list of literals may be matched one by one, each at its first
occurrence.
-/

namespace Interlink.Foundation.Glob

variable {α : Type*}

/-! ## Literals with anything between them -/

def between : List (List α) → Language α
  | [] => ⊤
  | literal :: literals => ⊤ * ({literal} * between literals)

theorem mem_between_nil (w : List α) : w ∈ between ([] : List (List α)) :=
  trivial

theorem mem_between_cons {w literal : List α} {literals : List (List α)} :
    w ∈ between (literal :: literals) ↔
      ∃ u v, w = u ++ (literal ++ v) ∧ v ∈ between literals := by
  constructor
  · rintro ⟨u, -, x, ⟨y, rfl, v, hv, rfl⟩, rfl⟩
    exact ⟨u, v, rfl, hv⟩
  · rintro ⟨u, v, rfl, hv⟩
    exact ⟨u, trivial, literal ++ v, ⟨literal, rfl, v, hv, rfl⟩, rfl⟩

theorem append_mem_between (u : List α) {w : List α}
    {literals : List (List α)} (h : w ∈ between literals) :
    u ++ w ∈ between literals := by
  cases literals with
  | nil => exact mem_between_nil _
  | cons literal literals =>
      obtain ⟨u', v, rfl, hv⟩ := mem_between_cons.mp h
      exact mem_between_cons.mpr ⟨u ++ u', v, by simp, hv⟩

theorem between_filter_ne_nil [DecidableEq α] (literals : List (List α)) :
    between (literals.filter (· ≠ [])) = between literals := by
  induction literals with
  | nil => rfl
  | cons literal literals ih =>
      by_cases hnil : literal = []
      · subst hnil
        have hskip : between ([] :: literals) = between literals := by
          ext w
          constructor
          · intro hw
            obtain ⟨u, v, rfl, hv⟩ := mem_between_cons.mp hw
            exact append_mem_between u hv
          · intro hw
            exact mem_between_cons.mpr ⟨[], w, rfl, hw⟩
        rw [hskip]
        simpa using ih
      · rw [List.filter_cons_of_pos (by simpa using hnil)]
        simp only [between]
        rw [ih]

/-! ### The greedy rules -/

theorem not_mem_between_cons {w literal : List α} (literals : List (List α))
    (h : ¬ literal <:+: w) : w ∉ between (literal :: literals) := by
  intro hw
  obtain ⟨u, v, rfl, -⟩ := mem_between_cons.mp hw
  exact h ⟨u, v, by simp⟩

/-- The first literal may be taken at its first occurrence. -/
theorem mem_between_cons_iff_of_first {a b literal : List α}
    {literals : List (List α)}
    (hfirst : ∀ a' b', a ++ (literal ++ b) = a' ++ (literal ++ b') →
      a.length ≤ a'.length) :
    a ++ (literal ++ b) ∈ between (literal :: literals) ↔
      b ∈ between literals := by
  constructor
  · intro hw
    obtain ⟨u, v, heq, hv⟩ := mem_between_cons.mp hw
    have hle := hfirst u v heq
    have hsuffix : v <:+ b := by
      have hv' : v <:+ a ++ (literal ++ b) := by
        rw [heq]
        exact (List.suffix_append literal v).trans (List.suffix_append u _)
      have hb' : b <:+ a ++ (literal ++ b) :=
        (List.suffix_append literal b).trans (List.suffix_append a _)
      apply List.suffix_of_suffix_length_le hv' hb'
      have hlen := congrArg List.length heq
      simp only [List.length_append] at hlen
      omega
    obtain ⟨x, rfl⟩ := hsuffix
    exact append_mem_between x hv
  · intro hb
    exact mem_between_cons.mpr ⟨a, b, rfl, hb⟩

/-! ### Affixes -/

theorem mem_affixed {w first last : List α} {middle : List (List α)} :
    w ∈ ({first} * (between middle * {last}) : Language α) ↔
      ∃ m, w = first ++ (m ++ last) ∧ m ∈ between middle := by
  constructor
  · rintro ⟨x, rfl, y, ⟨m, hm, z, rfl, rfl⟩, rfl⟩
    exact ⟨m, rfl, hm⟩
  · rintro ⟨m, rfl, hm⟩
    exact ⟨first, rfl, m ++ last, ⟨m, hm, last, rfl, rfl⟩, rfl⟩

/-! ## The language of a glob -/

variable [DecidableEq α]

/-- The words a glob stands for. -/
def language (wild : α) (pattern : List α) : Language α :=
  (pattern.map fun a => if a = wild then ⊤ else {[a]}).prod

theorem language_append (wild : α) (p q : List α) :
    language wild (p ++ q) = language wild p * language wild q := by
  simp [language]

theorem language_literal {wild : α} {p : List α} (h : wild ∉ p) :
    language wild p = {p} := by
  induction p with
  | nil => rfl
  | cons a p ih =>
      have hne : a ≠ wild := by
        rintro rfl
        exact h (by simp)
      have htail := ih (fun hp => h (List.mem_cons_of_mem a hp))
      have hcons : language wild (a :: p) = {[a]} * language wild p := by
        simp [language, hne]
      rw [hcons, htail]
      ext w
      constructor
      · rintro ⟨x, rfl, y, rfl, rfl⟩
        rfl
      · rintro rfl
        exact ⟨[a], rfl, p, rfl, rfl⟩

theorem language_wild (wild : α) : language wild [wild] = ⊤ := by
  simp [language]

/-- The wildcard stands for any word, every other symbol for itself. -/
def StandsFor (wild a : α) (word : List α) : Prop :=
  a = wild ∨ word = [a]

theorem mem_language_singleton {wild a : α} {word : List α} :
    word ∈ language wild [a] ↔ StandsFor wild a word := by
  by_cases ha : a = wild
  · subst ha
    rw [language_wild]
    exact iff_of_true trivial (.inl rfl)
  · rw [language_literal (by simpa using Ne.symm ha)]
    constructor
    · intro hword
      exact .inr hword
    · rintro (heq | hword)
      · exact absurd heq ha
      · exact hword

/-- A word of the language is put together from one word for each symbol of the glob. -/
theorem mem_language_iff {wild : α} {pattern w : List α} :
    w ∈ language wild pattern ↔
      ∃ words, List.Forall₂ (StandsFor wild) pattern words ∧ w = words.flatten := by
  induction pattern generalizing w with
  | nil =>
      constructor
      · intro hw
        exact ⟨[], .nil, hw⟩
      · rintro ⟨words, hwords, rfl⟩
        cases hwords
        rfl
  | cons a pattern ih =>
      rw [← List.singleton_append, language_append]
      constructor
      · rintro ⟨word, hword, rest, hrest, rfl⟩
        obtain ⟨words, hwords, rfl⟩ := ih.mp hrest
        exact ⟨word :: words, .cons (mem_language_singleton.mp hword) hwords, rfl⟩
      · rintro ⟨words, hwords, rfl⟩
        cases hwords with
        | @cons _ word _ words hword hwords =>
            refine ⟨word, mem_language_singleton.mpr hword, words.flatten, ?_, rfl⟩
            exact ih.mpr ⟨words, hwords, rfl⟩

theorem flatMap_mem_language (wild : α) (word pattern : List α) :
    pattern.flatMap (fun a => if a = wild then word else [a]) ∈ language wild pattern := by
  induction pattern with
  | nil => exact rfl
  | cons a pattern ih =>
      rw [List.flatMap_cons, ← List.singleton_append, language_append]
      refine ⟨_, ?_, _, ih, rfl⟩
      by_cases ha : a = wild
      · rw [ha, language_wild]
        trivial
      · rw [if_neg ha, language_literal (by simpa using Ne.symm ha)]
        rfl

theorem self_mem_language (wild : α) (pattern : List α) : pattern ∈ language wild pattern := by
  have hself : pattern.flatMap (fun a => if a = wild then [wild] else [a]) = pattern := by
    induction pattern with
    | nil => rfl
    | cons a pattern ih =>
        rw [List.flatMap_cons, ih]
        split
        next ha => rw [ha, List.singleton_append]
        next => rw [List.singleton_append]
  have hmem := flatMap_mem_language wild [wild] pattern
  rwa [hself] at hmem

theorem language_subset_self_iff {wild other : α} (hother : other ≠ wild) (pattern : List α) :
    (∀ w ∈ language wild pattern, w = pattern) ↔ wild ∉ pattern := by
  constructor
  · intro h hwild
    have heq := h _ (flatMap_mem_language wild [other] pattern)
    rw [← heq, List.mem_flatMap] at hwild
    obtain ⟨a, -, ha⟩ := hwild
    split at ha
    next => exact hother (List.mem_singleton.mp ha).symm
    next hne => exact hne (List.mem_singleton.mp ha).symm
  · intro hwild w hw
    rw [language_literal hwild] at hw
    exact hw

def segments (wild : α) (pattern : List α) : List (List α) :=
  pattern.splitOn wild

theorem intercalate_segments (wild : α) (pattern : List α) :
    [wild].intercalate (segments wild pattern) = pattern :=
  List.intercalate_splitOn wild

theorem segments_ne_nil (wild : α) (pattern : List α) :
    segments wild pattern ≠ [] :=
  List.splitOn_ne_nil wild pattern

theorem segments_cons (wild a : α) (pattern : List α) :
    segments wild (a :: pattern) =
      if a = wild then [] :: segments wild pattern
      else (segments wild pattern).modifyHead (List.cons a) := by
  simp [segments, List.splitOn, List.splitOnP_cons_eq_if_modifyHead]

theorem not_mem_segments {wild : α} {pattern segment : List α}
    (h : segment ∈ segments wild pattern) : wild ∉ segment := by
  induction pattern generalizing segment with
  | nil =>
      have hnil : segment = [] := by simpa [segments] using h
      simp [hnil]
  | cons a pattern ih =>
      rw [segments_cons] at h
      split at h
      · rcases List.mem_cons.mp h with rfl | h
        · simp
        · exact ih h
      · rename_i hne
        obtain ⟨first, rest, hsplit⟩ :=
          List.exists_cons_of_ne_nil (segments_ne_nil wild pattern)
        rw [hsplit, List.modifyHead_cons] at h
        rcases List.mem_cons.mp h with rfl | h
        · have hfirst : wild ∉ first := ih (by simp [hsplit])
          simp only [List.mem_cons, not_or]
          exact ⟨fun heq => hne heq.symm, hfirst⟩
        · exact ih (by simp [hsplit, h])

theorem language_intercalate {wild : α} (first last : List α)
    (middle : List (List α))
    (hwild : ∀ segment ∈ first :: (middle ++ [last]), wild ∉ segment) :
    language wild ([wild].intercalate (first :: (middle ++ [last]))) =
      {first} * (between middle * {last}) := by
  have hfirst : language wild first = {first} :=
    language_literal (hwild first (by simp))
  induction middle generalizing first with
  | nil =>
      have hlast : language wild last = {last} :=
        language_literal (hwild last (by simp))
      simp only [List.nil_append, List.intercalate_cons_cons,
        List.intercalate_singleton, language_append, language_wild, hfirst,
        hlast, between, mul_assoc]
  | cons second middle ih =>
      have htail : ∀ segment ∈ second :: (middle ++ [last]), wild ∉ segment := by
        intro segment hsegment
        exact hwild segment (by simpa using Or.inr hsegment)
      have hsecond : language wild second = {second} :=
        language_literal (htail second (by simp))
      rw [List.cons_append, List.intercalate_cons_cons, language_append,
        language_append, ih second htail hsecond, hfirst, language_wild]
      simp only [between, mul_assoc]

end Interlink.Foundation.Glob
