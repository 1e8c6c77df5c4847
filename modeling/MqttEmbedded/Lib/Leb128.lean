import Mathlib.Data.Nat.Bitwise
import Mathlib.Tactic

/-!
# Base-128 length fields

The little-endian base-128 format: seven payload bits a byte, the top bit set
on every byte but the last. `Field bytes n` says that `bytes` is one complete
field of value `n`, shortest or not; `encode n` is the shortest such field.
-/

namespace Leb128

theorem toNat_and_127 (b : UInt8) : (b &&& 127).toNat = b.toNat % 128 := by
  have h := Nat.and_two_pow_sub_one_eq_mod b.toNat 7
  simpa using h

theorem and_128_ne_zero_iff (b : UInt8) : b &&& 128 ≠ 0 ↔ 128 ≤ b.toNat := by
  have hlt := b.toNat_lt
  have hand : (b &&& 128).toNat = (b.toNat.testBit 7).toNat * 2 ^ 7 := by
    rw [UInt8.toNat_and, ← Nat.and_two_pow]
    rfl
  rw [Ne, ← UInt8.toNat_inj, hand, Nat.testBit_eq_decide_div_mod_eq]
  by_cases h : 128 ≤ b.toNat
  · have : b.toNat / 128 % 2 = 1 := by omega
    simp [this, h]
  · have : b.toNat / 128 % 2 = 0 := by omega
    simp [this, h]

theorem ofNat_or_128 {n : ℕ} (h : n < 128) :
    UInt8.ofNat n ||| 128 = UInt8.ofNat (n + 128) := by
  have hor := Nat.two_pow_add_eq_or_of_lt (i := 7) h 1
  rw [← UInt8.toNat_inj, UInt8.toNat_or, UInt8.toNat_ofNat', UInt8.toNat_ofNat',
    Nat.mod_eq_of_lt (by omega), Nat.mod_eq_of_lt (by omega), Nat.or_comm]
  simpa [Nat.add_comm] using hor.symm

/-- A complete field and the number it stands for. -/
inductive Field : List UInt8 → ℕ → Prop
  | last {b : UInt8} (h : b.toNat < 128) : Field [b] b.toNat
  | more {b : UInt8} {bs : List UInt8} {n : ℕ} (h : 128 ≤ b.toNat) (rest : Field bs n) :
      Field (b :: bs) (b.toNat % 128 + 128 * n)

theorem Field.length_pos {bs : List UInt8} {n : ℕ} (h : Field bs n) : 0 < bs.length := by
  cases h <;> simp

theorem Field.value_lt {bs : List UInt8} {n : ℕ} (h : Field bs n) : n < 128 ^ bs.length := by
  induction h with
  | last h => simpa using h
  | @more b bs n hb rest ih =>
    have hm : b.toNat % 128 < 128 := Nat.mod_lt _ (by norm_num)
    rw [List.length_cons, pow_succ]
    omega

/-- A field is read off the front of a stream in one way only. -/
theorem Field.unique {bs cs xs ys : List UInt8} {m n : ℕ} (hb : Field bs m) (hc : Field cs n)
    (h : bs ++ xs = cs ++ ys) : bs = cs ∧ m = n ∧ xs = ys := by
  induction hb generalizing cs n with
  | @last b hlt =>
    cases hc with
    | last _ =>
      simp only [List.cons_append, List.nil_append, List.cons.injEq] at h
      obtain ⟨rfl, rfl⟩ := h
      exact ⟨rfl, rfl, rfl⟩
    | more hge _ =>
      simp only [List.cons_append, List.nil_append, List.cons.injEq] at h
      obtain ⟨rfl, -⟩ := h
      omega
  | @more b bs m hge _ ih =>
    cases hc with
    | last hlt =>
      simp only [List.cons_append, List.nil_append, List.cons.injEq] at h
      obtain ⟨rfl, -⟩ := h
      omega
    | more _ hrest =>
      simp only [List.cons_append, List.cons.injEq] at h
      obtain ⟨rfl, h⟩ := h
      obtain ⟨rfl, rfl, rfl⟩ := ih hrest h
      exact ⟨rfl, rfl, rfl⟩

def encodeFuel : ℕ → ℕ → List UInt8
  | 0, _ => []
  | fuel + 1, n =>
    if n < 128 then [UInt8.ofNat n]
    else UInt8.ofNat (n % 128 + 128) :: encodeFuel fuel (n / 128)

/-- The shortest field of value `n`; `n + 1` rounds are more than it needs. -/
def encode (n : ℕ) : List UInt8 := encodeFuel (n + 1) n

theorem encodeFuel_eq {fuel n : ℕ} (h : n < fuel) : encodeFuel fuel n = encode n := by
  unfold encode
  induction fuel using Nat.strong_induction_on generalizing n with
  | _ fuel ih =>
    obtain ⟨fuel, rfl⟩ : ∃ k, fuel = k + 1 := ⟨fuel - 1, by omega⟩
    simp only [encodeFuel]
    split_ifs with hn
    · rfl
    · have hd : n / 128 < n := Nat.div_lt_self (by omega) (by norm_num)
      congr 1
      by_cases he : n = fuel
      · rw [he]
      · rw [ih fuel (by omega) (by omega), ih n (by omega) hd]

theorem encode_small {n : ℕ} (h : n < 128) : encode n = [UInt8.ofNat n] := by
  simp [encode, encodeFuel, h]

theorem encode_large {n : ℕ} (h : 128 ≤ n) :
    encode n = UInt8.ofNat (n % 128 + 128) :: encode (n / 128) := by
  have hd : n / 128 < n := Nat.div_lt_self (by omega) (by norm_num)
  conv_lhs => unfold encode
  rw [encodeFuel, if_neg (by omega), encodeFuel_eq hd]

theorem encode_field (n : ℕ) : Field (encode n) n := by
  induction n using Nat.strong_induction_on with
  | _ n ih =>
    by_cases h : n < 128
    · rw [encode_small h]
      have hb : (UInt8.ofNat n).toNat = n := by
        rw [UInt8.toNat_ofNat']
        omega
      simpa only [hb] using Field.last (b := UInt8.ofNat n) (by omega)
    · rw [encode_large (by omega)]
      have hb : (UInt8.ofNat (n % 128 + 128)).toNat = n % 128 + 128 := by
        rw [UInt8.toNat_ofNat']
        omega
      have hv : (UInt8.ofNat (n % 128 + 128)).toNat % 128 + 128 * (n / 128) = n := by
        rw [hb]
        omega
      have hrest := Field.more (b := UInt8.ofNat (n % 128 + 128)) (by omega)
        (ih (n / 128) (Nat.div_lt_self (by omega) (by norm_num)))
      rwa [hv] at hrest

theorem encode_length_le {n k : ℕ} (h : n < 128 ^ (k + 1)) : (encode n).length ≤ k + 1 := by
  induction k generalizing n with
  | zero => simp [encode_small (show n < 128 by simpa using h)]
  | succ k ih =>
    by_cases hs : n < 128
    · simp [encode_small hs]
    · rw [encode_large (by omega), List.length_cons]
      have hd : n / 128 < 128 ^ (k + 1) := by
        rw [Nat.div_lt_iff_lt_mul (by norm_num), ← pow_succ]
        exact h
      have := ih hd
      omega

theorem lt_encode_length {n k : ℕ} (h : 128 ^ k ≤ n) : k < (encode n).length :=
  (Nat.pow_lt_pow_iff_right (by norm_num)).mp (h.trans_lt (encode_field n).value_lt)

theorem encode_length_le_of_field {field : List UInt8} {n : ℕ} (h : Field field n) :
    (encode n).length ≤ field.length := by
  have hpos := h.length_pos
  have hlt := h.value_lt
  obtain ⟨k, hk⟩ : ∃ k, field.length = k + 1 := ⟨field.length - 1, by omega⟩
  rw [hk] at hlt ⊢
  exact encode_length_le hlt

/-- The digits of a field are those of its value, so its length settles it. -/
theorem Field.eq_of_length {field other : List UInt8} {n : ℕ} (h : Field field n)
    (h' : Field other n) (hlen : field.length = other.length) : field = other := by
  induction h generalizing other with
  | @last b hb =>
    obtain ⟨c, rfl⟩ := List.length_eq_one_iff.mp hlen.symm
    generalize hn : b.toNat = n at h'
    cases h' with
    | last hc => rw [UInt8.toNat_inj.mp hn]
    | more _ hrest => cases hrest
  | @more b bs n hb rest ih =>
    generalize hm : b.toNat % 128 + 128 * n = m at h'
    cases h' with
    | last hc =>
      have hpos := rest.length_pos
      simp at hlen
      rw [hlen] at hpos
      exact absurd hpos (Nat.lt_irrefl 0)
    | @more c cs k hc hrest =>
      have hb' := b.toNat_lt
      have hc' := c.toNat_lt
      have hbc : b.toNat = c.toNat := by omega
      obtain rfl : n = k := by omega
      rw [UInt8.toNat_inj.mp hbc, ih hrest (Nat.succ.inj hlen)]

/-- No field of the same value has fewer bytes. -/
def Shortest (field : List UInt8) (n : ℕ) : Prop :=
  ∀ other, Field other n → field.length ≤ other.length

theorem shortest_encode (n : ℕ) : Shortest (encode n) n := fun _ => encode_length_le_of_field

theorem Field.eq_encode {field : List UInt8} {n : ℕ} (h : Field field n)
    (hshortest : Shortest field n) : encode n = field := by
  have hle := hshortest (encode n) (encode_field n)
  exact (encode_field n).eq_of_length h (le_antisymm (encode_length_le_of_field h) hle)

theorem Field.encode_length_lt {field : List UInt8} {n : ℕ} (h : Field field n)
    (hlonger : ¬ Shortest field n) : (encode n).length < field.length := by
  refine lt_of_le_of_ne (encode_length_le_of_field h) fun hlen => ?_
  rw [← (encode_field n).eq_of_length h hlen] at hlonger
  exact hlonger (shortest_encode n)

/-- Bytes that are all to be followed by another one, and what they add up to. -/
inductive Begun : List UInt8 → ℕ → Prop
  | nil : Begun [] 0
  | more {b : UInt8} {bs : List UInt8} {n : ℕ} (h : 128 ≤ b.toNat) (rest : Begun bs n) :
      Begun (b :: bs) (b.toNat % 128 + 128 * n)

theorem Begun.value_lt {bs : List UInt8} {n : ℕ} (h : Begun bs n) : n < 128 ^ bs.length := by
  induction h with
  | nil => exact Nat.one_pos
  | @more b bs n hb rest ih =>
    have hm : b.toNat % 128 < 128 := Nat.mod_lt _ (by norm_num)
    rw [List.length_cons, pow_succ]
    omega

theorem Begun.unique {bs : List UInt8} {m n : ℕ} (hm : Begun bs m) (hn : Begun bs n) : m = n := by
  induction hm generalizing n with
  | nil =>
    cases hn
    rfl
  | more _ _ ih =>
    cases hn with
    | more _ hrest => rw [ih hrest]

/-- A field that the bytes begin with goes on after the part that has only begun. -/
theorem Begun.length_lt {begun field xs ys : List UInt8} {m n : ℕ} (hb : Begun begun m)
    (hf : Field field n) (h : field ++ xs = begun ++ ys) : begun.length < field.length := by
  induction hb generalizing field n with
  | nil => exact hf.length_pos
  | @more b bs m hge _ ih =>
    cases hf with
    | last hlt =>
      obtain ⟨rfl, -⟩ := List.cons.inj h
      omega
    | more _ hrest =>
      obtain ⟨-, htail⟩ := List.cons.inj h
      have hlt := ih hrest htail
      rw [List.length_cons, List.length_cons]
      omega

/-- Within so many bytes there is a field, or one has begun that all of them, or all that
there are, belong to. -/
theorem field_or_begun : ∀ (room : ℕ) (xs : List UInt8),
    (∃ field n rest, xs = field ++ rest ∧ Field field n ∧ field.length ≤ room) ∨
      ∃ begun n rest, xs = begun ++ rest ∧ Begun begun n ∧ begun.length ≤ room ∧
        (begun.length = room ∨ rest = [])
  | 0, xs => .inr ⟨[], 0, xs, rfl, .nil, le_rfl, .inl rfl⟩
  | _ + 1, [] => .inr ⟨[], 0, [], rfl, .nil, Nat.zero_le _, .inr rfl⟩
  | room + 1, b :: xs => by
    by_cases hb : 128 ≤ b.toNat
    · obtain ⟨field, n, rest, rfl, hfield, hle⟩ | ⟨begun, n, rest, rfl, hbegun, hle, hend⟩ :=
        field_or_begun room xs
      · exact .inl ⟨_, _, rest, rfl, .more hb hfield, Nat.succ_le_succ hle⟩
      · refine .inr ⟨_, _, rest, rfl, .more hb hbegun, Nat.succ_le_succ hle, ?_⟩
        exact hend.imp_left fun h => congrArg (· + 1) h
    · exact .inl ⟨[b], _, xs, rfl, .last (not_le.mp hb), Nat.succ_le_succ (Nat.zero_le _)⟩

end Leb128
