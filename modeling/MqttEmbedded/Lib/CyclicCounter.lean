import Mathlib.Tactic

/-!
# A counter that runs through 1, …, m

From `m` the counter goes on with 1. What it has counted out is known from how often it
has been asked, and within one cycle no value comes twice.
-/

namespace CyclicCounter

variable {m : ℕ}

/-- What comes after `n`. -/
def next (m n : ℕ) : ℕ := if n = m then 1 else n + 1

/-- The counter that has started from 1 and made `k` steps. -/
def value (m k : ℕ) : ℕ := k % m + 1

/-- The values that `k` steps from 1 bring. -/
def values (m k : ℕ) : List ℕ := (List.range k).map fun i => value m (i + 1)

theorem next_bounds (hm : 0 < m) {n : ℕ} (hn : n ≤ m) : 1 ≤ next m n ∧ next m n ≤ m := by
  unfold next
  split_ifs
  · omega
  · omega

theorem next_value (hm : 0 < m) (k : ℕ) : next m (value m k) = value m (k + 1) := by
  have hlt := Nat.mod_lt k hm
  have hmod : (k + 1) % m = (k % m + 1) % m := (Nat.mod_add_mod k m 1).symm
  unfold next value
  rw [hmod]
  split_ifs with hlast
  · rw [hlast, Nat.mod_self]
  · rw [Nat.mod_eq_of_lt (show k % m + 1 < m by omega)]

theorem value_pos (k : ℕ) : 1 ≤ value m k := Nat.le_add_left 1 _

theorem value_le (hm : 0 < m) (k : ℕ) : value m k ≤ m := Nat.mod_lt k hm

/-- Less than a cycle apart the counter has different values. -/
theorem value_injOn {i j k : ℕ} (hi : k ≤ i ∧ i < k + m) (hj : k ≤ j ∧ j < k + m)
    (h : value m i = value m j) : i = j := by
  wlog hij : i ≤ j
  · exact (this hj hi h.symm (by omega)).symm
  have hmod : i ≡ j [MOD m] := Nat.succ_injective h
  have hdvd := (Nat.modEq_iff_dvd' hij).mp hmod
  have hzero := Nat.eq_zero_of_dvd_of_lt hdvd (by omega)
  omega

theorem values_succ (k : ℕ) : values m (k + 1) = values m k ++ [value m (k + 1)] := by
  simp [values, List.range_succ]

theorem mem_values (hm : 0 < m) {n k : ℕ} (h : n ∈ values m k) : 1 ≤ n ∧ n ≤ m := by
  obtain ⟨i, -, rfl⟩ := List.mem_map.mp h
  exact ⟨value_pos _, value_le hm _⟩

/-- Any `m` consecutive values are different. -/
theorem values_window_nodup (k i : ℕ) : (((values m k).drop i).take m).Nodup := by
  apply List.pairwise_iff_getElem.mpr
  intro a b ha hb hab heq
  have hwindow := List.length_take_le m ((values m k).drop i)
  simp only [values, List.getElem_take, List.getElem_drop, List.getElem_map, List.getElem_range]
    at heq
  have hsame := value_injOn (k := i + 1) (by omega) (by omega) heq
  omega

end CyclicCounter
