import Mathlib.Data.List.MinMax
import Mathlib.Data.List.Sort
import Mathlib.Data.List.Nodup

/-!
# Selecting from a list

The first element that a partial function accepts, and the least element under a key.
Taking the least element away again and again lists the elements in the order of a stable
sort.
-/

namespace Interlink.Foundation.Selection

universe u v

variable {α : Type u} {β : Type v}

/-! ## The first that is found -/

/-- The first value found is the same in every order just when all values found are equal. -/
theorem findSome?_perm_iff {f : α → Option β} {l : List α} :
    (∀ l' : List α, l'.Perm l → l'.findSome? f = l.findSome? f) ↔
      ∀ a ∈ l, ∀ b ∈ l, ∀ x y, f a = some x → f b = some y → x = y := by
  constructor
  · intro hsame a ha b hb x y hx hy
    have hfront : ∀ c ∈ l, ∀ z, f c = some z → l.findSome? f = some z := by
      intro c hc z hz
      obtain ⟨left, right, rfl⟩ := List.append_of_mem hc
      rw [← hsame (c :: (left ++ right)) List.perm_middle.symm, List.findSome?_cons, hz]
    exact Option.some.inj ((hfront a ha x hx).symm.trans (hfront b hb y hy))
  · intro hagree l' hperm
    cases hl : l.findSome? f with
    | none =>
        rw [List.findSome?_eq_none_iff] at hl ⊢
        intro a ha
        exact hl a (hperm.mem_iff.mp ha)
    | some x =>
        obtain ⟨a, ha, hx⟩ := List.exists_of_findSome?_eq_some hl
        cases hl' : l'.findSome? f with
        | none =>
            have hnone := List.findSome?_eq_none_iff.mp hl' a (hperm.mem_iff.mpr ha)
            rw [hnone] at hx
            cases hx
        | some y =>
            obtain ⟨b, hb, hy⟩ := List.exists_of_findSome?_eq_some hl'
            rw [hagree a ha b (hperm.mem_iff.mp hb) x y hx hy]

theorem findSome?_flatMap {γ : Type*} (f : β → Option γ) (g : α → List β) (l : List α) :
    (l.flatMap g).findSome? f = l.findSome? fun a => (g a).findSome? f := by
  induction l with
  | nil => rfl
  | cons a l ih =>
      rw [List.flatMap_cons, List.findSome?_append, ih, List.findSome?_cons]
      cases (g a).findSome? f <;> rfl

/-! ## The least again and again -/

variable [LinearOrder β] {f : α → β} {l : List α} {a : α}

def ranked (f : α → β) (l : List α) : List α :=
  l.insertionSort fun a b => f a ≤ f b

theorem ranked_cons (f : α → β) (a : α) (l : List α) :
    ranked f (a :: l) = List.orderedInsert (fun a b => f a ≤ f b) a (ranked f l) :=
  rfl

theorem argmin_eq_head?_ranked (f : α → β) (l : List α) : l.argmin f = (ranked f l).head? := by
  induction l with
  | nil => rfl
  | cons a l ih =>
      rw [List.argmin_cons, ih, ranked_cons]
      cases ranked f l with
      | nil => rfl
      | cons c rest =>
          by_cases hlt : f c < f a
          · simp [hlt, not_le_of_gt hlt]
          · simp [hlt, le_of_not_gt hlt]

theorem ranked_filter {κ : Type*} [DecidableEq κ] {key : α → κ} (hkeys : (l.map key).Nodup)
    (h : l.argmin f = some a) :
    ranked f (l.filter fun b => key b ≠ key a) = (ranked f l).tail := by
  induction l with
  | nil => cases h
  | cons c l ih =>
      rw [List.map_cons, List.nodup_cons] at hkeys
      obtain ⟨hc, hkeys⟩ := hkeys
      have hne : ∀ b ∈ l, key b ≠ key c := by
        intro b hb heq
        exact hc (heq ▸ List.mem_map_of_mem hb)
      have hhead := argmin_eq_head?_ranked f l
      rw [List.argmin_cons] at h
      rw [ranked_cons]
      cases hleast : l.argmin f with
      | none =>
          obtain rfl := List.argmin_eq_none.mp hleast
          rw [hleast] at h
          obtain rfl : c = a := Option.some.inj h
          simp [ranked]
      | some b =>
          rw [hleast] at h hhead
          obtain ⟨rest, hrest⟩ := List.head?_eq_some_iff.mp hhead.symm
          by_cases hlt : f b < f c
          · obtain rfl : b = a := by simpa [hlt] using h
            have hkeep : key c ≠ key b := (hne b (List.argmin_mem hleast)).symm
            rw [List.filter_cons_of_pos (by simpa using hkeep), ranked_cons, ih hkeys hleast,
              hrest, List.orderedInsert_cons, if_neg (not_le_of_gt hlt)]
            rfl
          · obtain rfl : c = a := by simpa [hlt] using h
            have hall : l.filter (fun b => key b ≠ key c) = l :=
              List.filter_eq_self.mpr fun b hb => by simpa using hne b hb
            rw [List.filter_cons_of_neg (by simp), hall, hrest, List.orderedInsert_cons,
              if_pos (le_of_not_gt hlt)]
            rfl

end Interlink.Foundation.Selection
