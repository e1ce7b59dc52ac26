import Mathlib.Data.List.Basic
import Mathlib.Data.List.TakeWhile

/-!
# Words

The parts of a list between separators: all but the empty ones, or the first few and
what is left.
-/

namespace Interlink.Foundation

universe u

variable {α : Type u} {sep : α → Bool} {x : α} {w l tail lead : List α} {ws : List (List α)}

/-- One part more than there are separators. -/
def splitAtEach (sep : α → Bool) : List α → List (List α)
  | [] => [[]]
  | x :: xs =>
      if sep x then [] :: splitAtEach sep xs else (splitAtEach sep xs).modifyHead (x :: ·)

def words (sep : α → Bool) (l : List α) : List (List α) :=
  (splitAtEach sep l).filter (!·.isEmpty)

@[simp]
theorem words_nil : words sep [] = [] :=
  rfl

theorem words_cons_sep (h : sep x = true) : words sep (x :: l) = words sep l := by
  simp [words, splitAtEach, h]

theorem words_lead_append (h : ∀ x ∈ lead, sep x = true) : words sep (lead ++ l) = words sep l := by
  induction lead with
  | nil => rfl
  | cons x lead ih =>
      rw [List.cons_append, words_cons_sep (h x (by simp)), ih fun y hy => h y (by simp [hy])]

theorem splitAtEach_append (h : ∀ x ∈ w, sep x = false) :
    splitAtEach sep (w ++ l) = (splitAtEach sep l).modifyHead (w ++ ·) := by
  induction w with
  | nil => exact (congrFun List.modifyHead_id _).symm
  | cons x w ih =>
      have hx : sep x = false := h x (by simp)
      simp [splitAtEach, hx, ih fun y hy => h y (by simp [hy]), Function.comp_def]

theorem splitAtEach_eq_nil_cons (h : ∀ x ∈ l.head?, sep x = true) :
    ∃ parts, splitAtEach sep l = [] :: parts ∧ parts.filter (!·.isEmpty) = words sep l := by
  cases l with
  | nil => exact ⟨[], rfl, rfl⟩
  | cons x l =>
      have hx : sep x = true := h x (by simp)
      exact ⟨splitAtEach sep l, by simp [splitAtEach, hx], (words_cons_sep hx).symm⟩

theorem words_append (hne : w ≠ []) (hw : ∀ x ∈ w, sep x = false)
    (htail : ∀ x ∈ tail.head?, sep x = true) : words sep (w ++ tail) = w :: words sep tail := by
  obtain ⟨parts, hparts, hfilter⟩ := splitAtEach_eq_nil_cons htail
  have hempty : (!w.isEmpty) = true := by simpa using hne
  rw [words, splitAtEach_append hw, hparts]
  simp [hempty, hfilter]

theorem sep_of_head?_dropWhile (h : x ∈ (l.dropWhile (!sep ·)).head?) : sep x = true := by
  have hhead := List.head?_dropWhile_not (!sep ·) l
  rw [Option.mem_def.mp h] at hhead
  simpa using hhead

theorem words_eq_cons :
    words sep l = w :: ws ↔ ∃ lead tail, l = lead ++ (w ++ tail) ∧ (∀ x ∈ lead, sep x = true) ∧
      w ≠ [] ∧ (∀ x ∈ w, sep x = false) ∧ (∀ x ∈ tail.head?, sep x = true) ∧
      words sep tail = ws := by
  constructor
  · intro h
    induction l with
    | nil => cases h
    | cons x l ih =>
        cases hx : sep x with
        | true =>
            obtain ⟨lead, tail, rfl, hlead, hrest⟩ := ih (by rwa [words_cons_sep hx] at h)
            exact ⟨x :: lead, tail, rfl, by simpa [hx] using hlead, hrest⟩
        | false =>
            -- The word goes on to the next separator.
            have hword : ∀ y ∈ x :: l.takeWhile (!sep ·), sep y = false := by
              intro y hy
              rcases List.mem_cons.mp hy with rfl | hy
              · exact hx
              · simpa using List.mem_takeWhile_imp hy
            have hsplit : x :: l = (x :: l.takeWhile (!sep ·)) ++ l.dropWhile (!sep ·) := by
              simp [List.takeWhile_append_dropWhile]
            rw [hsplit, words_append (List.cons_ne_nil _ _) hword
              fun y hy => sep_of_head?_dropWhile hy] at h
            obtain ⟨rfl, rfl⟩ := List.cons.inj h
            exact ⟨[], _, hsplit, by simp, List.cons_ne_nil _ _, hword,
              fun y hy => sep_of_head?_dropWhile hy, rfl⟩
  · rintro ⟨lead, tail, rfl, hlead, hne, hw, htail, rfl⟩
    rw [words_lead_append hlead, words_append hne hw htail]

/-! ## All parts -/

theorem not_sep_of_all (h : w.all (!sep ·) = true) : ∀ x ∈ w, sep x = false := by
  simpa using h

theorem exists_sep (sep : α → Bool) (l : List α) :
    (∀ y ∈ l, sep y = false) ∨
      ∃ w x rest, l = w ++ x :: rest ∧ (∀ y ∈ w, sep y = false) ∧ sep x = true := by
  induction l with
  | nil => exact .inl (by simp)
  | cons y l ih =>
      cases hy : sep y with
      | true => exact .inr ⟨[], y, l, rfl, by simp, hy⟩
      | false =>
          rcases ih with hall | ⟨w, x, rest, rfl, hw, hx⟩
          · exact .inl (by simpa [hy] using hall)
          · exact .inr ⟨y :: w, x, rest, rfl, by simpa [hy] using hw, hx⟩

theorem splitAtEach_of_not_sep (h : ∀ x ∈ w, sep x = false) : splitAtEach sep w = [w] := by
  have hw := splitAtEach_append (l := []) h
  rw [List.append_nil] at hw
  rw [hw]
  simp [splitAtEach]

theorem splitAtEach_append_cons (h : ∀ x ∈ w, sep x = false) (hx : sep x = true) :
    splitAtEach sep (w ++ x :: l) = w :: splitAtEach sep l := by
  rw [splitAtEach_append h]
  simp [splitAtEach, hx]

theorem splitAtEach_ne_nil (l : List α) : splitAtEach sep l ≠ [] := by
  rcases exists_sep sep l with hl | ⟨first, x, rest, rfl, hfirst, hx⟩
  · simp [splitAtEach_of_not_sep hl]
  · simp [splitAtEach_append_cons hfirst hx]

theorem splitAtEach_eq_cons :
    splitAtEach sep l = w :: ws ↔ (∀ x ∈ w, sep x = false) ∧
      (l = w ∧ ws = [] ∨ ∃ x rest, sep x = true ∧ l = w ++ x :: rest ∧
        splitAtEach sep rest = ws) := by
  constructor
  · intro h
    rcases exists_sep sep l with hl | ⟨first, x, rest, rfl, hfirst, hx⟩
    · rw [splitAtEach_of_not_sep hl] at h
      obtain ⟨rfl, rfl⟩ := List.cons.inj h
      exact ⟨hl, .inl ⟨rfl, rfl⟩⟩
    · rw [splitAtEach_append_cons hfirst hx] at h
      obtain ⟨rfl, rfl⟩ := List.cons.inj h
      exact ⟨hfirst, .inr ⟨x, rest, hx, rfl, rfl⟩⟩
  · rintro ⟨hw, ⟨rfl, rfl⟩ | ⟨x, rest, hx, rfl, rfl⟩⟩
    · exact splitAtEach_of_not_sep hw
    · exact splitAtEach_append_cons hw hx

/-! ## The first parts -/

/-- At most `n` parts, the last of which is all that is left. -/
def splitn (sep : α → Bool) : Nat → List α → List (List α)
  | 0, _ => []
  | 1, l => [l]
  | n + 2, l =>
      match l.dropWhile (!sep ·) with
      | [] => [l]
      | _ :: rest => l.takeWhile (!sep ·) :: splitn sep (n + 1) rest

theorem splitn_of_not_sep (n : Nat) (h : ∀ y ∈ l, sep y = false) :
    splitn sep (n + 1) l = [l] := by
  cases n with
  | zero => rfl
  | succ n =>
      have hnil : l.dropWhile (!sep ·) = [] := by
        simpa [List.dropWhile_eq_nil_iff] using h
      simp [splitn, hnil]

theorem splitn_append (n : Nat) (hw : ∀ y ∈ w, sep y = false) (hx : sep x = true) :
    splitn sep (n + 2) (w ++ x :: l) = w :: splitn sep (n + 1) l := by
  have hdrop : (w ++ x :: l).dropWhile (!sep ·) = x :: l := by
    rw [List.dropWhile_append_of_pos (by simpa using hw)]
    simp [hx]
  have htake : (w ++ x :: l).takeWhile (!sep ·) = w := by
    rw [List.takeWhile_append_of_pos (by simpa using hw)]
    simp [hx]
  simp [splitn, hdrop, htake]

theorem splitn_three (sep : α → Bool) (l : List α) :
    (∃ a x b y c, l = a ++ x :: (b ++ y :: c) ∧ (∀ z ∈ a, sep z = false) ∧ sep x = true ∧
        (∀ z ∈ b, sep z = false) ∧ sep y = true ∧ splitn sep 3 l = [a, b, c]) ∨
      (l.countP sep < 2 ∧ (splitn sep 3 l).length < 3) := by
  rcases exists_sep sep l with hnone | ⟨a, x, rest, rfl, ha, hx⟩
  · refine .inr ⟨?_, by rw [splitn_of_not_sep 2 hnone]; simp⟩
    rw [List.countP_eq_zero.mpr (by simpa using hnone)]
    exact Nat.zero_lt_two
  · have hcount : (a ++ x :: rest).countP sep = rest.countP sep + 1 := by
      rw [List.countP_append, List.countP_cons_of_pos hx,
        List.countP_eq_zero.mpr (by simpa using ha), Nat.zero_add]
    rcases exists_sep sep rest with hnone | ⟨b, y, c, rfl, hb, hy⟩
    · refine .inr ⟨?_, ?_⟩
      · rw [hcount, List.countP_eq_zero.mpr (by simpa using hnone)]
        exact Nat.one_lt_two
      · rw [splitn_append 1 ha hx, splitn_of_not_sep 1 hnone]
        exact Nat.lt_succ_self _
    · exact .inl ⟨a, x, b, y, c, rfl, ha, hx, hb, hy, by
        rw [splitn_append 1 ha hx, splitn_append 0 hb hy]; rfl⟩

end Interlink.Foundation
