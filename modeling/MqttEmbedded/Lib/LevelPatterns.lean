import Mathlib.Data.List.Basic
import Mathlib.Tactic

/-!
# Patterns over levels

A pattern is a list of pieces: one that stands for one level exactly, one for any level, and
one, at the end, for all the levels that are left. How much the two wildcards stand for is a
parameter, a matcher that is more reserved about them accepts less, and the difference is
told by the levels that the wildcards face.
-/

namespace LevelPatterns

inductive Piece (β : Type*) where
  | exact (level : β)
  | any
  | rest

section

variable {β : Type*}

/-- `one` is what `any` stands for, and `all` what `rest` stands for. -/
inductive Matches (one : β → Prop) (all : List β → Prop) : List (Piece β) → List β → Prop
  | done : Matches one all [] []
  | exact (level : β) {pieces : List (Piece β)} {levels : List β}
      (tail : Matches one all pieces levels) :
      Matches one all (.exact level :: pieces) (level :: levels)
  | any {level : β} {pieces : List (Piece β)} {levels : List β} (h : one level)
      (tail : Matches one all pieces levels) :
      Matches one all (.any :: pieces) (level :: levels)
  | rest {levels : List β} (h : all levels) : Matches one all [.rest] levels

/-- Every wildcard faces something that it stands for. -/
structure Faced (one : β → Prop) (all : List β → Prop) (pieces : List (Piece β)) (levels : List β) :
    Prop where
  any : ∀ i : ℕ, pieces[i]? = some Piece.any → ∃ level, levels[i]? = some level ∧ one level
  rest : ∀ i : ℕ, pieces[i]? = some Piece.rest → all (levels.drop i)

variable {one one' : β → Prop} {all all' : List β → Prop} {piece : Piece β}
  {pieces : List (Piece β)} {level level' : β} {levels : List β}

theorem Matches.mono (hone : ∀ level, one level → one' level)
    (hall : ∀ levels, all levels → all' levels) (h : Matches one all pieces levels) :
    Matches one' all' pieces levels := by
  induction h with
  | done => exact .done
  | exact level _ ih => exact .exact level ih
  | any h _ ih => exact .any (hone _ h) ih
  | rest h => exact .rest (hall _ h)

theorem matches_nil : Matches one all [] levels ↔ levels = [] := by
  constructor
  · intro h
    cases h
    rfl
  · rintro rfl
    exact .done

theorem matches_exact : Matches one all (.exact level :: pieces) (level' :: levels) ↔
    level = level' ∧ Matches one all pieces levels := by
  constructor
  · intro h
    cases h with
    | exact _ tail => exact ⟨rfl, tail⟩
  · rintro ⟨rfl, h⟩
    exact .exact level h

theorem matches_any : Matches one all (.any :: pieces) (level :: levels) ↔
    one level ∧ Matches one all pieces levels := by
  constructor
  · intro h
    cases h with
    | any hone tail => exact ⟨hone, tail⟩
  · exact fun h => .any h.1 h.2

theorem matches_rest : Matches one all [.rest] levels ↔ all levels := by
  constructor
  · intro h
    cases h with
    | rest hall => exact hall
  · exact .rest

/-- No level is left for the pieces. -/
theorem not_matches_no_level (hpieces : pieces ≠ []) (hall : ¬ all []) :
    ¬ Matches one all pieces [] := by
  intro h
  cases h with
  | done => exact hpieces rfl
  | rest h => exact hall h

namespace Faced

theorem nil : Faced one all [] levels := ⟨fun i h => by simp at h, fun i h => by simp at h⟩

theorem cons_iff : Faced one all (piece :: pieces) (level :: levels) ↔
    (piece = .any → one level) ∧ (piece = .rest → all (level :: levels)) ∧
      Faced one all pieces levels := by
  constructor
  · intro h
    refine ⟨fun hpiece => ?_, fun hpiece => ?_, fun i hi => ?_, fun i hi => ?_⟩
    · obtain ⟨level', hlevel, hone⟩ := h.any 0 (by rw [hpiece]; rfl)
      rwa [← Option.some.inj hlevel] at hone
    · exact h.rest 0 (by rw [hpiece]; rfl)
    · exact h.any (i + 1) hi
    · exact h.rest (i + 1) hi
  · intro h
    obtain ⟨hany, hrest, htail⟩ := h
    constructor
    · intro i hi
      cases i with
      | zero => exact ⟨level, rfl, hany (Option.some.inj hi)⟩
      | succ i => exact htail.any i hi
    · intro i hi
      cases i with
      | zero => exact hrest (Option.some.inj hi)
      | succ i => exact htail.rest i hi

theorem rest_iff : Faced one all [.rest] levels ↔ all levels := by
  constructor
  · exact fun h => h.rest 0 rfl
  · intro h
    constructor
    · intro i hi
      cases i with
      | zero => cases hi
      | succ i => cases hi
    · intro i hi
      cases i with
      | zero => exact h
      | succ i => cases hi

end Faced

/-- What the wildcards face makes the difference between a matcher and the most liberal one. -/
theorem matches_iff_faced :
    Matches one all pieces levels ↔
      Matches (fun _ => True) (fun _ => True) pieces levels ∧ Faced one all pieces levels := by
  constructor
  · intro h
    refine ⟨h.mono (fun _ _ => trivial) (fun _ _ => trivial), ?_⟩
    induction h with
    | done => exact .nil
    | exact level _ ih =>
      refine Faced.cons_iff.mpr ⟨fun hpiece => ?_, fun hpiece => ?_, ih⟩
      · cases hpiece
      · cases hpiece
    | any h _ ih => exact Faced.cons_iff.mpr ⟨fun _ => h, (fun hpiece => by cases hpiece), ih⟩
    | rest h => exact Faced.rest_iff.mpr h
  · intro h
    obtain ⟨hmatches, hfaced⟩ := h
    induction hmatches with
    | done => exact .done
    | exact level _ ih => exact .exact level (ih (Faced.cons_iff.mp hfaced).2.2)
    | any _ _ ih =>
      obtain ⟨hone, -, htail⟩ := Faced.cons_iff.mp hfaced
      exact .any (hone rfl) (ih htail)
    | rest _ => exact .rest (Faced.rest_iff.mp hfaced)

end

section

variable {α : Type*} [BEq α] (sep : α)

/-- The list ends here, or the next level begins. -/
inductive Onward : List α → List (List α) → Prop
  | stop : Onward [] []
  | next (xs : List α) : Onward (sep :: xs) (xs.splitOn sep)

variable {sep}

theorem splitOn_onward [LawfulBEq α] {level tail : List α} {levels : List (List α)}
    (hlevel : sep ∉ level) (h : Onward sep tail levels) :
    (level ++ tail).splitOn sep = level :: levels := by
  cases h with
  | stop => rw [List.append_nil, List.splitOn_eq_singleton hlevel]
  | next xs => exact List.splitOn_append_cons_self_of_not_mem hlevel xs

theorem Onward.eq_nil {tail : List α} {levels : List (List α)} (h : Onward sep tail levels)
    (hlevels : levels = []) : tail = [] := by
  cases h with
  | stop => rfl
  | next xs => exact absurd hlevels (List.splitOn_ne_nil sep xs)

theorem exists_onward (sep : α) (xs : List α) : ∃ level tail levels, xs = level ++ tail ∧
    sep ∉ level ∧ Onward sep tail levels := by
  induction xs with
  | nil => exact ⟨[], [], [], rfl, List.not_mem_nil, .stop⟩
  | cons x xs ih =>
    by_cases hx : x = sep
    · subst hx
      exact ⟨[], x :: xs, _, rfl, List.not_mem_nil, .next xs⟩
    · obtain ⟨level, tail, levels, rfl, hlevel, htail⟩ := ih
      refine ⟨x :: level, tail, levels, rfl, fun hmem => ?_, htail⟩
      obtain heq | hrest := List.mem_cons.mp hmem
      · exact hx heq.symm
      · exact hlevel hrest

end
end LevelPatterns
