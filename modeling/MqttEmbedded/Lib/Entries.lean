import Mathlib.Data.List.Basic
import Mathlib.Tactic

/-!
# Sequences of entries

A format in which every entry says where it ends. A list of entries is written down
one after the other, and read back by taking entries off the front for as long as
there is one. What a stream begins with is the same however it came about.
-/

namespace Entries

variable {α β : Type*}

/-- `next` takes off the front exactly what `write` has put there. -/
structure Format (α β : Type*) where
  write : β → List α
  next : List α → Option (β × List α)
  next_eq_some : ∀ xs b rest, next xs = some (b, rest) ↔ xs = write b ++ rest
  write_ne_nil : ∀ b, write b ≠ []

namespace Format

variable (f : Format α β) {xs rest : List α} {b : β} {bs : List β}

def writeAll (bs : List β) : List α := bs.flatMap f.write

@[simp] theorem writeAll_nil : f.writeAll [] = [] := rfl

@[simp] theorem writeAll_cons (b : β) (bs : List β) :
    f.writeAll (b :: bs) = f.write b ++ f.writeAll bs := rfl

@[simp] theorem next_nil : f.next [] = none := by
  cases h : f.next [] with
  | none => rfl
  | some result =>
    obtain ⟨b, rest⟩ := result
    rw [f.next_eq_some] at h
    exact absurd (List.append_eq_nil_iff.mp h.symm).1 (f.write_ne_nil b)

theorem next_write (b : β) (rest : List α) : f.next (f.write b ++ rest) = some (b, rest) :=
  (f.next_eq_some _ b rest).mpr rfl

theorem length_lt_of_next (h : f.next xs = some (b, rest)) : rest.length < xs.length := by
  rw [f.next_eq_some] at h
  have hpos : 0 < (f.write b).length := List.length_pos_iff.mpr (f.write_ne_nil b)
  rw [h, List.length_append]
  omega

def splitFuel : ℕ → List α → List β × List α
  | 0, xs => ([], xs)
  | rounds + 1, xs =>
    match f.next xs with
    | none => ([], xs)
    | some (b, rest) => (b :: (splitFuel rounds rest).1, (splitFuel rounds rest).2)

/-- The entries that the stream begins with, and what is left after them; there is not
more than one for each item. -/
def split (xs : List α) : List β × List α := f.splitFuel xs.length xs

theorem splitFuel_eq {rounds : ℕ} (h : xs.length ≤ rounds) :
    f.splitFuel rounds xs = f.split xs := by
  unfold split
  induction rounds using Nat.strong_induction_on generalizing xs with
  | _ rounds ih =>
    cases rounds with
    | zero => rw [Nat.le_zero.mp h]
    | succ rounds =>
      cases hlen : xs.length with
      | zero =>
        rw [List.length_eq_zero_iff.mp hlen]
        simp [splitFuel]
      | succ length =>
        simp only [splitFuel]
        cases hnext : f.next xs with
        | none => rfl
        | some result =>
          obtain ⟨b, rest⟩ := result
          have hlt := f.length_lt_of_next hnext
          have hrounds : rest.length ≤ rounds := by omega
          have hlength : rest.length ≤ length := by omega
          simp only
          rw [ih rounds (by omega) hrounds, ih length (by omega) hlength]

theorem split_of_none (h : f.next xs = none) : f.split xs = ([], xs) := by
  unfold split
  cases xs.length with
  | zero => rfl
  | succ rounds => simp [splitFuel, h]

@[simp] theorem split_nil : f.split [] = ([], []) := f.split_of_none f.next_nil

theorem split_of_some (h : f.next xs = some (b, rest)) :
    f.split xs = (b :: (f.split rest).1, (f.split rest).2) := by
  have hlt := f.length_lt_of_next h
  have hlen : xs.length = xs.length - 1 + 1 := by omega
  rw [split, hlen, splitFuel, h]
  simp only
  rw [f.splitFuel_eq (show rest.length ≤ xs.length - 1 by omega)]

/-- Nothing of the stream is lost. -/
theorem writeAll_split (xs : List α) : f.writeAll (f.split xs).1 ++ (f.split xs).2 = xs := by
  induction hlen : xs.length using Nat.strong_induction_on generalizing xs with
  | _ length ih =>
    cases hnext : f.next xs with
    | none => rw [f.split_of_none hnext, writeAll_nil, List.nil_append]
    | some result =>
      obtain ⟨b, rest⟩ := result
      have hrest := ih rest.length (hlen ▸ f.length_lt_of_next hnext) rest rfl
      rw [f.split_of_some hnext, writeAll_cons, List.append_assoc, hrest]
      exact ((f.next_eq_some xs b rest).mp hnext).symm

theorem split_writeAll (bs : List β) (h : f.next rest = none) :
    f.split (f.writeAll bs ++ rest) = (bs, rest) := by
  induction bs with
  | nil => exact f.split_of_none h
  | cons b bs ih =>
    rw [writeAll_cons, List.append_assoc, f.split_of_some (f.next_write b _), ih]

theorem eq_writeAll_iff : xs = f.writeAll bs ↔ f.split xs = (bs, []) := by
  constructor
  · rintro rfl
    rw [← List.append_nil (f.writeAll bs), f.split_writeAll bs f.next_nil]
  · intro h
    have hxs := f.writeAll_split xs
    rw [h, List.append_nil] at hxs
    exact hxs.symm

/-- How many entries a reader begins to read, the last of them perhaps in vain. -/
def begun (xs : List α) : ℕ := (f.split xs).1.length + min 1 (f.split xs).2.length

theorem begun_of_none (h : f.next xs = none) (hxs : xs ≠ []) : f.begun xs = 1 := by
  have hpos := List.length_pos_iff.mpr hxs
  simp only [begun, f.split_of_none h, List.length_nil]
  omega

theorem begun_of_some (h : f.next xs = some (b, rest)) : f.begun xs = f.begun rest + 1 := by
  simp only [begun, f.split_of_some h, List.length_cons]
  omega

theorem begun_pos (hxs : xs ≠ []) : 0 < f.begun xs := by
  cases hnext : f.next xs with
  | none =>
    rw [f.begun_of_none hnext hxs]
    exact Nat.one_pos
  | some result =>
    rw [f.begun_of_some hnext]
    exact Nat.succ_pos _

theorem begun_writeAll (bs : List β) : f.begun (f.writeAll bs) = bs.length := by
  have hsplit := f.eq_writeAll_iff.mp (show f.writeAll bs = f.writeAll bs from rfl)
  simp only [begun, hsplit, List.length_nil]
  omega

section

variable {γ δ : Type*} (tell : β → List α → γ) (after : List α)

/-- What `tell` says of each entry, given what comes after it in the stream. -/
def tellAll : List β → List γ
  | [] => []
  | b :: bs => tell b (f.writeAll bs ++ after) :: tellAll bs

@[simp] theorem tellAll_nil : f.tellAll tell after [] = [] := rfl

@[simp] theorem tellAll_cons (b : β) (bs : List β) : f.tellAll tell after (b :: bs) =
    tell b (f.writeAll bs ++ after) :: f.tellAll tell after bs := rfl

@[simp] theorem length_tellAll (bs : List β) : (f.tellAll tell after bs).length = bs.length := by
  induction bs with
  | nil => rfl
  | cons b bs ih => rw [tellAll_cons, List.length_cons, List.length_cons, ih]

theorem map_tellAll {told : γ → δ} {value : β → δ} (h : ∀ b rest, told (tell b rest) = value b)
    (bs : List β) : (f.tellAll tell after bs).map told = bs.map value := by
  induction bs with
  | nil => rfl
  | cons b bs ih => rw [tellAll_cons, List.map_cons, List.map_cons, h, ih]

end
end Format
end Entries
