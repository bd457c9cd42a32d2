import Mathlib.Data.List.Basic

/-! Histories: what the last event of some kind has been. -/

namespace KeyedCoding

variable {α : Type} {counts such : α → Prop} {history : List α} {event : α}

/-- Of the events that count, the last one is such an event. -/
def LastOf (counts such : α → Prop) (history : List α) : Prop :=
  ∃ earlier event later, history = earlier ++ event :: later ∧ such event ∧
    ∀ other ∈ later, ¬counts other

/-- Where nothing has happened there is no last event. -/
theorem not_lastOf_nil : ¬LastOf counts such [] := by
  -- The last event would have to be one of none.
  rintro ⟨earlier, event, later, whole, -⟩
  exact absurd whole (by simp)

/-- One more event is the last one, or else it does not count and an earlier one is the last. -/
theorem lastOf_concat_iff :
    LastOf counts such (history ++ [event]) ↔
      such event ∨ ¬counts event ∧ LastOf counts such history := by
  constructor
  · rintro ⟨earlier, last, later, whole, holds, silent⟩
    -- The new event is the last one itself, or it is the end of what comes later.
    rcases List.eq_nil_or_concat later with rfl | ⟨rest, final, rfl⟩
    · obtain ⟨-, same⟩ := List.append_inj' whole rfl
      cases same
      exact .inl holds
    · rw [List.concat_eq_append] at whole silent
      have ends : history ++ [event] = (earlier ++ last :: rest) ++ [final] := by simpa using whole
      obtain ⟨rfl, same⟩ := List.append_inj' ends rfl
      cases same
      rw [List.forall_mem_append, List.forall_mem_singleton] at silent
      exact .inr ⟨silent.2, earlier, last, rest, rfl, holds, silent.1⟩
  · rintro (holds | ⟨silent, earlier, last, later, rfl, holds, others⟩)
    · exact ⟨history, event, [], rfl, holds, by simp⟩
    · refine ⟨earlier, last, later ++ [event], by simp, holds, ?_⟩
      rw [List.forall_mem_append, List.forall_mem_singleton]
      exact ⟨others, silent⟩

end KeyedCoding
