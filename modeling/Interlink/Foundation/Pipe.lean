import Mathlib.Data.List.Basic

/-!
# A pipe

One end puts items in, the other takes them out in the same order and hands them on,
perhaps after holding some of them.  What has been handed on is always an initial part of
what was put in.
-/

namespace Interlink.Foundation.Pipe

universe u

variable {α : Type u} {sent got held held' moved given taken buffer rest : List α}
  {ended ended' : Prop}

section Pass

variable [BEq α]

def pass (given taken buffer : List α) : Option (List α) :=
  taken.isPrefixOf? (buffer ++ given)

theorem append_eq_of_pass [LawfulBEq α] (h : pass given taken buffer = some rest) :
    taken ++ rest = buffer ++ given :=
  List.isPrefixOf?_eq_some_iff_append_eq.mp h

end Pass

/--
What was put in is what was handed on, what is held and what is in the pipe, or the taking
end is over and may have lost what it held.
-/
def Flow (sent got held buffer : List α) (ended : Prop) : Prop :=
  sent = got ++ (held ++ buffer) ∨ ended ∧ got <+: sent

namespace Flow

theorem empty (ended : Prop) : Flow ([] : List α) [] [] [] ended :=
  .inl rfl

theorem isPrefix (h : Flow sent got held buffer ended) : got <+: sent := by
  rcases h with rfl | ⟨-, hprefix⟩
  · exact List.prefix_append ..
  · exact hprefix

theorem exchange (h : Flow sent got held buffer ended)
    (hpass : taken ++ rest = buffer ++ given) (hover : ended → ended' ∧ moved = [])
    (hmove : held ++ taken = moved ++ held' ∨ ended' ∧ moved <+: held ++ taken) :
    Flow (sent ++ given) (got ++ moved) held' rest ended' := by
  rcases h with rfl | ⟨hended, hprefix⟩
  · have hsent : got ++ (held ++ buffer) ++ given = got ++ (held ++ taken ++ rest) := by
      rw [List.append_assoc, List.append_assoc held, ← hpass, List.append_assoc]
    rw [hsent]
    rcases hmove with hmove | ⟨hended, hmoved⟩
    · left
      rw [hmove]
      simp only [List.append_assoc]
    · refine .inr ⟨hended, (List.prefix_append_right_inj got).mpr ?_⟩
      exact hmoved.trans (List.prefix_append ..)
  · obtain ⟨hended, rfl⟩ := hover hended
    refine .inr ⟨hended, ?_⟩
    rw [List.append_nil]
    exact hprefix.trans (List.prefix_append ..)

end Flow

end Interlink.Foundation.Pipe
