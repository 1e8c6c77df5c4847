import Mathlib.Tactic

/-!
# Logs

A log is a list with the latest entry first. What is said of an entry is said of it
and of the entries before it, which are the rest of the list.
-/

namespace Log

variable {α : Type*} {P P' : α → List α → Prop} {log earlier history : List α} {a : α}

/-- Every entry of the log has `P` with the entries before it. -/
def Throughout (P : α → List α → Prop) : List α → Prop
  | [] => True
  | a :: earlier => P a earlier ∧ Throughout P earlier

instance decidableThroughout [∀ a earlier, Decidable (P a earlier)] :
    ∀ log : List α, Decidable (Throughout P log)
  | [] => .isTrue trivial
  | _ :: earlier =>
    have := decidableThroughout earlier
    inferInstanceAs (Decidable (_ ∧ _))

/-- What held throughout the log held throughout it before. -/
theorem Throughout.suffix (h : Throughout P log) (hsuffix : earlier <:+ log) :
    Throughout P earlier := by
  induction log with
  | nil => rwa [List.suffix_nil.mp hsuffix]
  | cons a log ih =>
    rcases List.suffix_cons_iff.mp hsuffix with rfl | hsuffix
    · exact h
    · exact ih h.2 hsuffix

theorem Throughout.entry (h : Throughout P log) (hsuffix : a :: earlier <:+ log) : P a earlier :=
  (h.suffix hsuffix).1

theorem throughout_iff :
    Throughout P log ↔ ∀ a earlier, a :: earlier <:+ log → P a earlier := by
  constructor
  · exact fun h a earlier hsuffix => h.entry hsuffix
  · intro h
    induction log with
    | nil => trivial
    | cons a log ih =>
      refine ⟨h a log List.suffix_rfl, ih fun b earlier hsuffix => ?_⟩
      exact h b earlier (hsuffix.trans (List.suffix_cons a log))

theorem reading_append {β : Type*} {reading : List α → β} {Q : α → Prop}
    (hpasses : ∀ a earlier, Q a → reading (a :: earlier) = reading earlier)
    (h : ∀ a ∈ log, Q a) : reading (log ++ history) = reading history := by
  induction log with
  | nil => rfl
  | cons a log ih =>
    obtain ⟨ha, hlog⟩ := List.forall_mem_cons.mp h
    exact (hpasses a (log ++ history) ha).trans (ih hlog)

theorem suffix_append (h : earlier <:+ log) (history : List α) :
    earlier ++ history <:+ log ++ history := by
  obtain ⟨later, rfl⟩ := h
  exact ⟨later, (List.append_assoc later earlier history).symm⟩

theorem suffix_of_not_mem (h : a :: earlier <:+ log ++ history) (ha : a ∉ log) :
    a :: earlier <:+ history := by
  induction log with
  | nil => exact h
  | cons b log ih =>
    obtain ⟨hab, hlog⟩ := not_or.mp (List.mem_cons.not.mp ha)
    rcases List.suffix_cons_iff.mp h with heq | h
    · exact absurd (List.cons.inj heq).1 hab
    · exact ih h hlog

theorem suffix_of_drop {n : ℕ} (h : (log.drop n).head? = some a) :
    a :: (log.drop n).tail <:+ log := by
  rw [List.cons_head?_tail h]
  exact List.drop_suffix n log

end Log
