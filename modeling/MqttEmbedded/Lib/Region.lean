import Mathlib.Data.List.Basic
import Mathlib.Tactic

/-!
# Bounded regions of cells

A region is a finite list of cells. Writing past its end is not a write of
fewer cells: it has no result at all, so a program whose runs all have results
stays inside. The write cursor carries the proof that it is inside the region.
-/

namespace Region

variable {α : Type*}

/-- The cells with `values` laid over them from `position` on. -/
def overwrite (cells : List α) (position : ℕ) (values : List α) : List α :=
  cells.take position ++ values ++ cells.drop (position + values.length)

@[simp] theorem overwrite_nil (cells : List α) (position : ℕ) :
    overwrite cells position [] = cells := by
  simp [overwrite]

theorem length_overwrite {cells values : List α} {position : ℕ}
    (h : position + values.length ≤ cells.length) :
    (overwrite cells position values).length = cells.length := by
  simp only [overwrite, List.length_append, List.length_take, List.length_drop]
  omega

theorem take_overwrite {cells values : List α} {position : ℕ} (h : position ≤ cells.length) :
    (overwrite cells position values).take (position + values.length) =
      cells.take position ++ values := by
  have hp : (cells.take position).length = position := by
    rw [List.length_take]
    omega
  unfold overwrite
  rw [List.take_append_of_le_length (by simp only [List.length_append]; omega)]
  rw [List.take_of_length_le (by simp only [List.length_append]; omega)]

theorem overwrite_append {cells xs ys : List α} {position : ℕ}
    (h : position + (xs ++ ys).length ≤ cells.length) :
    overwrite (overwrite cells position xs) (position + xs.length) ys =
      overwrite cells position (xs ++ ys) := by
  rw [List.length_append] at h
  have hp : (cells.take position).length = position := by
    rw [List.length_take]
    omega
  have hdrop : (overwrite cells position xs).drop (position + xs.length + ys.length) =
      cells.drop (position + xs.length + ys.length) := by
    unfold overwrite
    rw [List.drop_append, List.drop_eq_nil_of_le (by simp only [List.length_append]; omega)]
    rw [List.nil_append, List.drop_drop]
    congr 1
    simp only [List.length_append]
    omega
  change (overwrite cells position xs).take _ ++ ys ++ (overwrite cells position xs).drop _ = _
  rw [take_overwrite (by omega), hdrop]
  simp only [overwrite, List.append_assoc, List.length_append, Nat.add_assoc]

theorem take_overwrite_zero (cells values : List α) :
    (overwrite cells 0 values).take values.length = values := by
  simp [overwrite]

theorem overwrite_zero (cells values : List α) :
    overwrite cells 0 values = values ++ cells.drop values.length := by
  simp [overwrite]

/-- The `count` cells from `position` on, when the region has them. -/
def read (cells : List α) (position count : ℕ) : Option (List α) :=
  if position + count ≤ cells.length then some ((cells.drop position).take count) else none

theorem read_eq {cells : List α} {position count : ℕ} (h : position + count ≤ cells.length) :
    read cells position count = some ((cells.drop position).take count) :=
  if_pos h

/-- A region together with a write position inside it. -/
@[ext] structure Cursor (α : Type*) where
  cells : List α
  position : ℕ
  within : position ≤ cells.length

namespace Cursor

def start (cells : List α) : Cursor α := ⟨cells, 0, Nat.zero_le _⟩

/-- Lay `values` down at the cursor and move past them. -/
def put (c : Cursor α) (values : List α) : Option (Cursor α) :=
  if h : c.position + values.length ≤ c.cells.length then
    some ⟨overwrite c.cells c.position values, c.position + values.length, by
      rwa [length_overwrite h]⟩
  else none

theorem put_eq_some_iff {c d : Cursor α} {values : List α} :
    c.put values = some d ↔ c.position + values.length ≤ c.cells.length ∧
      d.cells = overwrite c.cells c.position values ∧
      d.position = c.position + values.length := by
  unfold put
  split_ifs with h
  · simp only [Option.some.injEq, Cursor.ext_iff]
    constructor
    · rintro ⟨hc, hp⟩
      exact ⟨h, hc.symm, hp.symm⟩
    · rintro ⟨-, hc, hp⟩
      exact ⟨hc.symm, hp.symm⟩
  · simp [h]

theorem put_isSome_iff {c : Cursor α} {values : List α} :
    (c.put values).isSome ↔ c.position + values.length ≤ c.cells.length := by
  unfold put
  split_ifs with h <;> simp [h]

@[simp] theorem put_nil (c : Cursor α) : c.put [] = some c := by
  rw [put_eq_some_iff]
  exact ⟨by simpa using c.within, by simp, by simp⟩

/-- Two writes in a row are one write, and fail together or not at all. -/
theorem put_append (c : Cursor α) (xs ys : List α) :
    (c.put xs).bind (·.put ys) = c.put (xs ++ ys) := by
  by_cases h : c.position + (xs ++ ys).length ≤ c.cells.length
  · have hx : c.position + xs.length ≤ c.cells.length := by
      rw [List.length_append] at h
      omega
    obtain ⟨d, hd⟩ := Option.isSome_iff_exists.mp (put_isSome_iff.mpr hx)
    obtain ⟨-, hcells, hpos⟩ := put_eq_some_iff.mp hd
    have hy : d.position + ys.length ≤ d.cells.length := by
      rw [hcells, hpos, length_overwrite hx]
      rw [List.length_append] at h
      omega
    obtain ⟨e, he⟩ := Option.isSome_iff_exists.mp (put_isSome_iff.mpr hy)
    obtain ⟨-, ecells, epos⟩ := put_eq_some_iff.mp he
    have hall : c.put (xs ++ ys) = some e := by
      rw [put_eq_some_iff]
      refine ⟨h, ?_, ?_⟩
      · rw [ecells, hcells, hpos, overwrite_append h]
      · rw [epos, hpos, List.length_append, Nat.add_assoc]
    rw [hd, Option.bind_some, he, hall]
  · have hnone : c.put (xs ++ ys) = none := by
      simp only [put, dif_neg h]
    rw [hnone]
    cases hd : c.put xs with
    | none => rfl
    | some d =>
      obtain ⟨hx, hcells, hpos⟩ := put_eq_some_iff.mp hd
      have hy : ¬ d.position + ys.length ≤ d.cells.length := by
        rw [hcells, hpos, length_overwrite hx]
        rw [List.length_append] at h
        omega
      simp only [Option.bind_some, put, dif_neg hy]

/-- What has been written can be read off the outcome. -/
theorem put_inj {c d : Cursor α} {xs ys : List α} (hx : c.put xs = some d)
    (hy : c.put ys = some d) : xs = ys := by
  obtain ⟨-, hxcells, hxpos⟩ := put_eq_some_iff.mp hx
  obtain ⟨-, hycells, hypos⟩ := put_eq_some_iff.mp hy
  have hlen : xs.length = ys.length := by omega
  have htake : d.cells.take (c.position + xs.length) = c.cells.take c.position ++ xs := by
    rw [hxcells, take_overwrite c.within]
  rw [hlen, hycells, take_overwrite c.within] at htake
  exact (List.append_cancel_left htake).symm

theorem put_start {cells values : List α} (h : values.length ≤ cells.length) :
    (start cells).put values = some ⟨overwrite cells 0 values, values.length, by
      rw [length_overwrite (by omega)]; exact h⟩ := by
  rw [put_eq_some_iff]
  exact ⟨by simpa [start] using h, by simp [start], by simp [start]⟩

end Cursor
end Region
