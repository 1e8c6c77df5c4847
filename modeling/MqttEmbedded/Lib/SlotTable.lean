import Mathlib.Data.Set.Card
import Mathlib.Tactic

/-!
# Tables of slots

A fixed number of slots, each empty or with an entry, stands for a finite map of
bounded size. A slot is overwritten in place, an entry is found by its key, and a
new entry takes any empty slot. What has to be kept is that no two slots hold the
same key; then the table is full when the map is.
-/

/-- A map with at most `capacity` keys. -/
structure BoundedMap (κ ν : Type*) (capacity : ℕ) where
  value : κ → Option ν
  finite : {k | value k ≠ none}.Finite
  bound : {k | value k ≠ none}.ncard ≤ capacity

namespace BoundedMap

variable {κ ν : Type*} {capacity : ℕ}

@[ext] theorem ext {m m' : BoundedMap κ ν capacity} (h : ∀ k, m.value k = m'.value k) : m = m' := by
  cases m
  cases m'
  congr
  exact funext h

noncomputable def size (m : BoundedMap κ ν capacity) : ℕ := {k | m.value k ≠ none}.ncard

def empty : BoundedMap κ ν capacity where
  value := fun _ => none
  finite := by simp
  bound := by simp

variable [DecidableEq κ]

/-- There is room for the key: it is known, or the map is not full. -/
def HasRoom (m : BoundedMap κ ν capacity) (k : κ) : Prop := m.value k ≠ none ∨ m.size < capacity

theorem keys_update (m : BoundedMap κ ν capacity) (k : κ) (v : ν) :
    {k' | Function.update m.value k (some v) k' ≠ none} = insert k {k' | m.value k' ≠ none} := by
  ext k'
  by_cases h : k' = k
  · simp [h]
  · simp [h, Function.update_of_ne]

def insert (m : BoundedMap κ ν capacity) (k : κ) (v : ν) (h : m.HasRoom k) :
    BoundedMap κ ν capacity where
  value := Function.update m.value k (some v)
  finite := by
    rw [keys_update]
    exact m.finite.insert k
  bound := by
    rw [keys_update]
    rcases h with hknown | hroom
    · rw [Set.insert_eq_of_mem (by exact hknown)]
      exact m.bound
    · exact (Set.ncard_insert_le k _).trans hroom

theorem keys_erase_subset (m : BoundedMap κ ν capacity) (k : κ) :
    {k' | Function.update m.value k none k' ≠ none} ⊆ {k' | m.value k' ≠ none} := by
  intro k' hk'
  by_cases h : k' = k
  · simp [h] at hk'
  · simpa [Function.update_of_ne h] using hk'

def erase (m : BoundedMap κ ν capacity) (k : κ) : BoundedMap κ ν capacity where
  value := Function.update m.value k none
  finite := m.finite.subset (m.keys_erase_subset k)
  bound := (Set.ncard_le_ncard (m.keys_erase_subset k) m.finite).trans m.bound

open Classical in
/-- Set a key to a value, or remove it; nothing, where that cannot be done. -/
noncomputable def assign (m : BoundedMap κ ν capacity) (k : κ) :
    Option ν → Option (BoundedMap κ ν capacity)
  | some v => if h : m.HasRoom k then some (m.insert k v h) else none
  | none => if m.value k ≠ none then some (m.erase k) else none

variable {m : BoundedMap κ ν capacity} {k : κ}

theorem assign_hasRoom (h : m.HasRoom k) (v : ν) : m.assign k (some v) = some (m.insert k v h) :=
  dif_pos h

theorem assign_full (h : ¬ m.HasRoom k) (v : ν) : m.assign k (some v) = none :=
  dif_neg h

theorem assign_known (h : m.value k ≠ none) : m.assign k none = some (m.erase k) :=
  if_pos h

theorem assign_unknown (h : m.value k = none) : m.assign k none = none :=
  if_neg (not_not.mpr h)

end BoundedMap

namespace SlotTable

variable {σ κ ν : Type*} (view : σ → Option (κ × ν))

/-- The entry in a slot. -/
def entryAt (slots : List σ) (i : ℕ) : Option (κ × ν) := slots[i]?.bind view

/-- The entries of the table. -/
def entries (slots : List σ) : List (κ × ν) := slots.filterMap view

/-- No two slots hold the same key. -/
def Distinct (slots : List σ) : Prop :=
  ∀ {i j k v v'}, entryAt view slots i = some (k, v) → entryAt view slots j = some (k, v') → i = j

variable {view} {slots : List σ} {i j : ℕ} {k : κ} {v : ν}

theorem entryAt_set (hi : i < slots.length) (new : σ) (j : ℕ) :
    entryAt view (slots.set i new) j = if i = j then view new else entryAt view slots j := by
  unfold entryAt
  split_ifs with h
  · subst h
    simp [hi]
  · rw [List.getElem?_set_ne h]

theorem lt_length_of_entryAt {entry : κ × ν} (h : entryAt view slots i = some entry) :
    i < slots.length := by
  by_contra hi
  simp [entryAt, List.getElem?_eq_none (not_lt.mp hi)] at h

theorem mem_entries {entry : κ × ν} :
    entry ∈ entries view slots ↔ ∃ i, entryAt view slots i = some entry := by
  simp only [entries, List.mem_filterMap, entryAt, Option.bind_eq_some_iff]
  constructor
  · rintro ⟨slot, hslot, hview⟩
    obtain ⟨i, hi⟩ := List.mem_iff_getElem?.mp hslot
    exact ⟨i, slot, hi, hview⟩
  · rintro ⟨i, slot, hi, hview⟩
    exact ⟨slot, List.mem_of_getElem? hi, hview⟩

theorem distinct_iff_nodup :
    Distinct view slots ↔ ((entries view slots).map Prod.fst).Nodup := by
  have hpairs : ((entries view slots).map Prod.fst).Nodup ↔ slots.Pairwise
      fun a b => ∀ x, view a = some x → ∀ y, view b = some y → x.1 ≠ y.1 := by
    rw [List.Nodup, List.pairwise_map, entries, List.pairwise_filterMap]
  rw [hpairs, List.pairwise_iff_getElem]
  constructor
  · intro h i j hi hj hij x hx y hy hkey
    have hx' : entryAt view slots i = some (y.1, x.2) := by
      rw [← hkey]
      simp [entryAt, hi, hx]
    have hy' : entryAt view slots j = some (y.1, y.2) := by simp [entryAt, hj, hy]
    exact hij.ne (h hx' hy')
  · intro h i j k v v' hi hj
    by_contra hne
    have hil := lt_length_of_entryAt hi
    have hjl := lt_length_of_entryAt hj
    have hi' : view slots[i] = some (k, v) := by simpa [entryAt, hil] using hi
    have hj' : view slots[j] = some (k, v') := by simpa [entryAt, hjl] using hj
    rcases lt_or_gt_of_ne hne with hlt | hlt
    · exact h i j hil hjl hlt _ hi' _ hj' rfl
    · exact h j i hjl hil hlt _ hj' _ hi' rfl

/-- The table holds the entries of the map, each in one slot. -/
structure Represents {capacity : ℕ} (view : σ → Option (κ × ν)) (slots : List σ)
    (m : BoundedMap κ ν capacity) : Prop where
  distinct : Distinct view slots
  length : slots.length = capacity
  value_eq : ∀ k v, m.value k = some v ↔ ∃ i, entryAt view slots i = some (k, v)

namespace Represents

variable {capacity : ℕ} {m : BoundedMap κ ν capacity} (h : Represents view slots m)
include h

theorem value_eq_none (k : κ) : m.value k = none ↔ ∀ i v, entryAt view slots i ≠ some (k, v) := by
  rw [Option.eq_none_iff_forall_ne_some]
  constructor
  · intro hnone i v hi
    exact hnone v ((h.value_eq k v).mpr ⟨i, hi⟩)
  · intro hnone v hv
    obtain ⟨i, hi⟩ := (h.value_eq k v).mp hv
    exact hnone i v hi

theorem mem_entries (k : κ) (v : ν) : (k, v) ∈ entries view slots ↔ m.value k = some v :=
  SlotTable.mem_entries.trans (h.value_eq k v).symm

theorem size_eq : m.size = (entries view slots).length := by
  classical
  have hkeys : {k | m.value k ≠ none} = ((entries view slots).map Prod.fst).toFinset := by
    ext k
    simp only [ne_eq, Set.mem_ofPred_eq, List.coe_toFinset, List.mem_map, Prod.exists]
    constructor
    · intro hk
      obtain ⟨v, hv⟩ := Option.ne_none_iff_exists'.mp hk
      exact ⟨k, v, (h.mem_entries k v).mpr hv, rfl⟩
    · rintro ⟨_, v, hmem, rfl⟩
      rw [(h.mem_entries _ v).mp hmem]
      exact Option.some_ne_none v
  rw [BoundedMap.size, hkeys, Set.ncard_coe_finset,
    List.toFinset_card_of_nodup (distinct_iff_nodup.mp h.distinct), List.length_map]

/-- The map has room exactly as long as a slot is empty. -/
theorem size_lt_iff : m.size < capacity ↔ ∃ slot ∈ slots, view slot = none := by
  rw [h.size_eq, ← h.length, entries, List.length_filterMap_lt_length_iff_exists]
  simp only [exists_prop]

end Represents

section Updates

variable {capacity : ℕ} {m m' : BoundedMap κ ν capacity}

theorem Represents.set (h : Represents view slots m) (hi : i < slots.length) {new : σ}
    (hkey : ∀ k v, view new = some (k, v) → ∀ j v', entryAt view slots j = some (k, v') → j = i)
    (hvalue : ∀ k v, m'.value k = some v ↔
      view new = some (k, v) ∨ ∃ j, j ≠ i ∧ entryAt view slots j = some (k, v)) :
    Represents view (slots.set i new) m' where
  distinct := by
    intro j j' k v v' hj hj'
    rw [entryAt_set hi] at hj hj'
    split_ifs at hj hj' with hij hij' hij'
    · exact hij.symm.trans hij'
    · exact absurd (hkey k v hj j' v' hj').symm hij'
    · exact absurd (hkey k v' hj' j v hj).symm hij
    · exact h.distinct hj hj'
  length := by rw [List.length_set, h.length]
  value_eq := by
    intro k v
    rw [hvalue]
    constructor
    · rintro (hnew | ⟨j, hne, hj⟩)
      · exact ⟨i, by rw [entryAt_set hi, if_pos rfl, hnew]⟩
      · exact ⟨j, by rw [entryAt_set hi, if_neg hne.symm, hj]⟩
    · rintro ⟨j, hj⟩
      rw [entryAt_set hi] at hj
      split_ifs at hj with hij
      · exact .inl hj
      · exact .inr ⟨j, Ne.symm hij, hj⟩

variable [DecidableEq κ]

/-- An entry for the key goes into the slot that has the key, or into an empty slot when
no slot has it. -/
theorem Represents.insert (h : Represents view slots m) (hi : i < slots.length) {new : σ}
    (hnew : view new = some (k, v)) (hroom : m.HasRoom k)
    (hslot : ∀ j v', entryAt view slots j = some (k, v') → j = i)
    (hother : ∀ k' v', entryAt view slots i = some (k', v') → k' = k) :
    Represents view (slots.set i new) (m.insert k v hroom) := by
  refine h.set hi (fun k' v' hview j w hj => ?_) fun k' v' => ?_
  · rw [hnew] at hview
    cases hview
    exact hslot j w hj
  · rw [hnew]
    change Function.update m.value k (some v) k' = some v' ↔ _
    by_cases hk : k' = k
    · subst hk
      rw [Function.update_self]
      constructor
      · intro hv
        exact .inl (by rw [Option.some.inj hv])
      · rintro (hv | ⟨j, hne, hj⟩)
        · exact congrArg some (Prod.mk.inj (Option.some.inj hv)).2
        · exact absurd (hslot j v' hj) hne
    · rw [Function.update_of_ne hk, h.value_eq]
      constructor
      · rintro ⟨j, hj⟩
        exact .inr ⟨j, fun hji => hk (hother k' v' (hji ▸ hj)), hj⟩
      · rintro (hv | ⟨j, -, hj⟩)
        · exact absurd (Prod.mk.inj (Option.some.inj hv)).1.symm hk
        · exact ⟨j, hj⟩

theorem Represents.erase (h : Represents view slots m) {new : σ} (hnew : view new = none)
    (hold : entryAt view slots i = some (k, v)) :
    Represents view (slots.set i new) (m.erase k) := by
  refine h.set (lt_length_of_entryAt hold) (fun k' v' hview => ?_) fun k' v' => ?_
  · rw [hnew] at hview
    cases hview
  · rw [hnew]
    change Function.update m.value k none k' = some v' ↔ _
    by_cases hk : k' = k
    · subst hk
      rw [Function.update_self]
      constructor
      · intro hv
        cases hv
      · rintro (hv | ⟨j, hne, hj⟩)
        · cases hv
        · exact absurd (h.distinct hj hold) hne
    · rw [Function.update_of_ne hk, h.value_eq]
      constructor
      · rintro ⟨j, hj⟩
        refine .inr ⟨j, fun hji => hk ?_, hj⟩
        rw [hji, hold] at hj
        exact (Prod.mk.inj (Option.some.inj hj)).1.symm
      · rintro (hv | ⟨j, -, hj⟩)
        · cases hv
        · exact ⟨j, hj⟩

end Updates

end SlotTable
