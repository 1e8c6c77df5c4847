import Mathlib.Data.List.Perm.Basic
import Mathlib.Tactic

/-!
# Sets in a fixed array

An array holds a set of values when one more value marks the slots that are vacant.
A value is put into the first vacant slot and taken out of the first slot that has it.
-/

namespace VacantSlots

variable {α : Type*} [DecidableEq α] (vacant : α)

def occupied (slots : List α) : List α := slots.filter (· ≠ vacant)

/-- Nothing when every slot is taken. -/
def claim : List α → α → Option (List α)
  | [], _ => none
  | slot :: slots, x => if slot = vacant then some (x :: slots) else (claim slots x).map (slot :: ·)

def vacate : List α → α → List α
  | [], _ => []
  | slot :: slots, x => if slot = x then vacant :: slots else slot :: vacate slots x

variable {vacant} {slots slots' : List α} {x y : α}

theorem mem_occupied : x ∈ occupied vacant slots ↔ x ∈ slots ∧ x ≠ vacant := by
  simp [occupied]

theorem length_occupied_lt : (occupied vacant slots).length < slots.length ↔ vacant ∈ slots := by
  rw [occupied, List.length_filter_lt_length_iff_exists]
  simp

theorem claim_eq_none : claim vacant slots x = none ↔ vacant ∉ slots := by
  induction slots with
  | nil => simp [claim]
  | cons slot slots ih =>
    rw [claim]
    split_ifs with hslot
    · simp [hslot]
    · rw [Option.map_eq_none_iff, ih, List.mem_cons, not_or]
      exact ⟨fun h => ⟨fun h' => hslot h'.symm, h⟩, And.right⟩

theorem claim_eq_some (h : claim vacant slots x = some slots') :
    ∃ before after, slots = before ++ vacant :: after ∧ vacant ∉ before ∧
      slots' = before ++ x :: after := by
  induction slots generalizing slots' with
  | nil => exact nomatch h
  | cons slot slots ih =>
    rw [claim] at h
    split_ifs at h with hslot
    · subst hslot
      exact ⟨[], slots, rfl, List.not_mem_nil, (Option.some.inj h).symm⟩
    · obtain ⟨claimed, hclaimed, rfl⟩ := Option.map_eq_some_iff.mp h
      obtain ⟨before, after, rfl, hbefore, rfl⟩ := ih hclaimed
      refine ⟨slot :: before, after, rfl, ?_, rfl⟩
      rw [List.mem_cons, not_or]
      exact ⟨fun h' => hslot h'.symm, hbefore⟩

theorem mem_of_claim (h : claim vacant slots x = some slots') : x ∈ slots' := by
  obtain ⟨before, after, -, -, rfl⟩ := claim_eq_some h
  simp

theorem length_of_claim (h : claim vacant slots x = some slots') :
    slots'.length = slots.length := by
  obtain ⟨before, after, rfl, -, rfl⟩ := claim_eq_some h
  simp

theorem occupied_of_claim (hx : x ≠ vacant) (h : claim vacant slots x = some slots') :
    (occupied vacant slots').Perm (x :: occupied vacant slots) := by
  obtain ⟨before, after, rfl, -, rfl⟩ := claim_eq_some h
  have hold : occupied vacant (before ++ vacant :: after) =
      occupied vacant before ++ occupied vacant after := by
    simp [occupied]
  have hnew : occupied vacant (before ++ x :: after) =
      occupied vacant before ++ x :: occupied vacant after := by
    simp [occupied, hx]
  rw [hold, hnew]
  exact List.perm_middle

theorem length_vacate : (vacate vacant slots x).length = slots.length := by
  induction slots with
  | nil => rfl
  | cons slot slots ih =>
    rw [vacate]
    split_ifs
    · rfl
    · rw [List.length_cons, ih, List.length_cons]

theorem occupied_vacate :
    occupied vacant (vacate vacant slots x) = (occupied vacant slots).erase x := by
  induction slots with
  | nil => rfl
  | cons slot slots ih =>
    rw [vacate]
    by_cases hslot : slot = x
    · subst hslot
      rw [if_pos rfl]
      by_cases hvacant : slot = vacant
      · have hnot : slot ∉ occupied vacant slots := fun h => (mem_occupied.mp h).2 hvacant
        have hcons : occupied vacant (slot :: slots) = occupied vacant slots := by
          simp [occupied, hvacant]
        have hcons' : occupied vacant (vacant :: slots) = occupied vacant slots := by
          simp [occupied]
        rw [hcons, hcons', List.erase_of_not_mem hnot]
      · simp [occupied, hvacant]
    · rw [if_neg hslot]
      by_cases hvacant : slot = vacant
      · simpa [occupied, hvacant] using ih
      · have hne : (slot == x) = false := beq_eq_false_iff_ne.mpr hslot
        simpa [occupied, hvacant, List.erase_cons, hne] using ih

end VacantSlots
