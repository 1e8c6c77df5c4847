import Mathlib.Order.Defs.Unbundled
import Mathlib.Tactic

/-!
# Pre- and postconditions of state-and-error programs

Programs are Lean's `EStateM`: they end with a value or with an error, and in
both cases in a state. `wp` therefore has two postconditions, and what a
program keeps it is required to keep also when it stops early. All rules are
equivalences, so that `simp` computes the precondition of straight-line code
and stops at the calls, where the callee's own specification is used.
-/

namespace Hoare

variable {ε σ α β : Type}

/-- From `s`, the program ends normally in `Q` or with an error in `E`. -/
def wp (x : EStateM ε σ α) (Q : α → σ → Prop) (E : ε → σ → Prop) (s : σ) : Prop :=
  match x s with
  | .ok a t => Q a t
  | .error e t => E e t

variable {Q Q' : α → σ → Prop} {E E' : ε → σ → Prop} {s t : σ}

@[simp] theorem wp_pure (a : α) : wp (pure a : EStateM ε σ α) Q E s ↔ Q a s := Iff.rfl

@[simp] theorem wp_throw (e : ε) : wp (throw e : EStateM ε σ α) Q E s ↔ E e s := Iff.rfl

@[simp] theorem wp_get {Q : σ → σ → Prop} :
    wp (get : EStateM ε σ σ) Q E s ↔ Q s s := Iff.rfl

@[simp] theorem wp_modify {Q : PUnit → σ → Prop} (f : σ → σ) :
    wp (modify f : EStateM ε σ PUnit) Q E s ↔ Q ⟨⟩ (f s) := Iff.rfl

@[simp] theorem wp_bind (x : EStateM ε σ α) (f : α → EStateM ε σ β) {Q : β → σ → Prop} :
    wp (x >>= f) Q E s ↔ wp x (fun a t => wp (f a) Q E t) E s := by
  simp only [wp, bind, EStateM.bind]
  cases x s <;> rfl

@[simp] theorem wp_map (f : α → β) (x : EStateM ε σ α) {Q : β → σ → Prop} :
    wp (f <$> x) Q E s ↔ wp x (fun a t => Q (f a) t) E s := by
  simp only [wp, Functor.map, EStateM.map]
  cases x s <;> rfl

@[simp] theorem wp_ite (c : Prop) [Decidable c] (x y : EStateM ε σ α) :
    wp (if c then x else y) Q E s ↔ (c → wp x Q E s) ∧ (¬ c → wp y Q E s) := by
  split_ifs with h <;> simp [h]

theorem wp_ok {x : EStateM ε σ α} {a : α} (h : x s = .ok a t) : wp x Q E s ↔ Q a t := by
  simp only [wp, h]

theorem bind_of_ok {x : EStateM ε σ α} {a : α} (h : x s = .ok a t) (f : α → EStateM ε σ β) :
    (x >>= f) s = f a t := by
  simp only [bind, EStateM.bind, h]

theorem bind_eq_ok {x : EStateM ε σ α} {f : α → EStateM ε σ β} {b : β} :
    (x >>= f) s = .ok b t ↔ ∃ a u, x s = .ok a u ∧ f a u = .ok b t := by
  cases hx : x s with
  | ok a u =>
    rw [bind_of_ok hx]
    constructor
    · exact fun h => ⟨a, u, rfl, h⟩
    · intro h
      obtain ⟨a', u', heq, h⟩ := h
      cases heq
      exact h
  | error e u =>
    simp only [bind, EStateM.bind, hx]
    constructor
    · exact fun h => by cases h
    · intro h
      obtain ⟨a, u', heq, -⟩ := h
      cases heq

theorem wp_error {x : EStateM ε σ α} {e : ε} (h : x s = .error e t) : wp x Q E s ↔ E e t := by
  simp only [wp, h]

theorem wp_congr {x y : EStateM ε σ α} (h : x s = y s) : wp x Q E s ↔ wp y Q E s := by
  simp only [wp, h]

/-- A run on a concrete state can be decided. -/
instance [∀ a t, Decidable (Q a t)] [∀ e t, Decidable (E e t)] (x : EStateM ε σ α) :
    Decidable (wp x Q E s) :=
  match h : x s with
  | .ok a t => decidable_of_iff (Q a t) (wp_ok h).symm
  | .error e t => decidable_of_iff (E e t) (wp_error h).symm

theorem wp_mono {x : EStateM ε σ α} (h : wp x Q E s)
    (hQ : ∀ a t, Q a t → Q' a t) (hE : ∀ e t, E e t → E' e t) : wp x Q' E' s := by
  unfold wp at *
  cases hx : x s with
  | ok a t =>
    rw [hx] at h
    exact hQ a t h
  | error e t =>
    rw [hx] at h
    exact hE e t h

theorem wp_imp {x : EStateM ε σ α} (h : wp x Q E s) (hQ : ∀ a t, Q a t → Q' a t) :
    wp x Q' E s :=
  wp_mono h hQ fun _ _ he => he

theorem wp_and {x : EStateM ε σ α} (h : wp x Q E s) (h' : wp x Q' E' s) :
    wp x (fun a t => Q a t ∧ Q' a t) (fun e t => E e t ∧ E' e t) s := by
  unfold wp at *
  cases hx : x s with
  | ok a t =>
    rw [hx] at h h'
    exact ⟨h, h'⟩
  | error e t =>
    rw [hx] at h h'
    exact ⟨h, h'⟩

theorem wp_result {x : EStateM ε σ α} {a : α} (h : wp x Q E s) (hx : x s = .ok a t) : Q a t :=
  (wp_ok hx).mp h

theorem wp_true (x : EStateM ε σ α) : wp x (fun _ _ => True) (fun _ _ => True) s := by
  unfold wp
  split
  · trivial
  · trivial

theorem wp_of_ok {x : EStateM ε σ α} (h : ∀ a t, x s = .ok a t → Q a t) :
    wp x Q (fun _ _ => True) s := by
  unfold wp
  cases hx : x s with
  | ok a t => exact h a t hx
  | error e t => trivial

theorem wp_total {x : EStateM ε σ α} (h : wp x Q (fun _ _ => False) s) :
    ∃ a t, x s = .ok a t ∧ Q a t := by
  unfold wp at h
  cases hx : x s with
  | ok a t =>
    rw [hx] at h
    exact ⟨a, t, rfl, h⟩
  | error e t =>
    rw [hx] at h
    exact h.elim

theorem wp_fails {x : EStateM ε σ α} {e : ε}
    (h : wp x (fun _ _ => False) (fun e' _ => e' = e) s) : ∃ t, x s = .error e t := by
  unfold wp at h
  cases hx : x s with
  | ok a t =>
    rw [hx] at h
    exact h.elim
  | error e' t =>
    rw [hx] at h
    exact ⟨t, by rw [h]⟩

instance decidableResult [∀ a t, Decidable (Q a t)] (x : EStateM ε σ α) :
    Decidable (∃ a t, x s = .ok a t ∧ Q a t) :=
  decidable_of_iff (wp x Q (fun _ _ => False) s)
    ⟨wp_total, fun ⟨_, _, hx, hQ⟩ => (wp_ok hx).mpr hQ⟩

/-- The program ends in `t`, with a result or with an error. -/
inductive Ends (x : EStateM ε σ α) (s : σ) : Option α → σ → Prop
  | value {a : α} {t : σ} : x s = .ok a t → Ends x s (some a) t
  | error {e : ε} {t : σ} : x s = .error e t → Ends x s none t

theorem Ends.post {x : EStateM ε σ α} {result : Option α} {Q : Option α → σ → Prop}
    (h : Ends x s result t) (hwp : wp x (fun a t => Q (some a) t) (fun _ t => Q none t) s) :
    Q result t := by
  cases h with
  | value hx => exact (wp_ok hx).mp hwp
  | error hx => exact (wp_error hx).mp hwp

theorem ends_bind_ok {x : EStateM ε σ α} {a : α} (h : x s = .ok a t) {f : α → EStateM ε σ β}
    {result : Option β} {u : σ} : Ends (x >>= f) s result u ↔ Ends (f a) t result u := by
  have hbind := bind_of_ok h f
  constructor
  · intro hends
    cases hends with
    | value hx => exact .value (hbind ▸ hx)
    | error hx => exact .error (hbind ▸ hx)
  · intro hends
    cases hends with
    | value hx => exact .value (hbind.trans hx)
    | error hx => exact .error (hbind.trans hx)

theorem ends_bind_error {x : EStateM ε σ α} {e : ε} (h : x s = .error e t)
    {f : α → EStateM ε σ β} {result : Option β} {u : σ} :
    Ends (x >>= f) s result u ↔ result = none ∧ u = t := by
  have hbind : (x >>= f) s = .error e t := by simp only [bind, EStateM.bind, h]
  constructor
  · intro hends
    cases hends with
    | value hx => cases hbind.symm.trans hx
    | error hx =>
      cases hbind.symm.trans hx
      exact ⟨rfl, rfl⟩
  · intro hends
    obtain ⟨rfl, rfl⟩ := hends
    exact .error hbind

/-- Whatever way the program ends, the state it ends in is related to the first. -/
def Moves (R : σ → σ → Prop) (x : EStateM ε σ α) : Prop :=
  ∀ s, wp x (fun _ t => R s t) (fun _ t => R s t) s

namespace Moves

variable {R : σ → σ → Prop}

protected theorem pure [Std.Refl R] (a : α) : Moves R (pure a : EStateM ε σ α) :=
  fun s => Std.Refl.refl s

protected theorem throw [Std.Refl R] (e : ε) : Moves R (throw e : EStateM ε σ α) :=
  fun s => Std.Refl.refl s

protected theorem get [Std.Refl R] : Moves R (get : EStateM ε σ σ) :=
  fun s => Std.Refl.refl s

protected theorem bind [IsTrans σ R] {x : EStateM ε σ α} {f : α → EStateM ε σ β}
    (hx : Moves R x) (hf : ∀ a, Moves R (f a)) : Moves R (x >>= f) := by
  intro s
  rw [wp_bind]
  apply wp_imp (hx s)
  intro a t hst
  apply wp_mono (hf a t)
  · exact fun _ u htu => IsTrans.trans s t u hst htu
  · exact fun _ u htu => IsTrans.trans s t u hst htu

protected theorem ite {c : Prop} [Decidable c] {x y : EStateM ε σ α}
    (hx : Moves R x) (hy : Moves R y) : Moves R (if c then x else y) := by
  split_ifs
  · exact hx
  · exact hy

theorem mono {R' : σ → σ → Prop} {x : EStateM ε σ α} (hx : Moves R x)
    (h : ∀ s t, R s t → R' s t) : Moves R' x :=
  fun s => wp_mono (hx s) (fun _ t => h s t) (fun _ t => h s t)

end Moves

/-- The program keeps `I`; if it ends with an error, `E` holds. -/
def Preserves (I E : σ → Prop) (x : EStateM ε σ α) : Prop :=
  ∀ s, I s → wp x (fun _ t => I t) (fun _ t => E t) s

namespace Preserves

variable {I E : σ → Prop}

protected theorem pure (a : α) : Preserves I E (pure a : EStateM ε σ α) := fun _ h => h

protected theorem get : Preserves I E (get : EStateM ε σ σ) := fun _ h => h

protected theorem bind {x : EStateM ε σ α} {f : α → EStateM ε σ β}
    (hx : Preserves I E x) (hf : ∀ a, Preserves I E (f a)) : Preserves I E (x >>= f) := by
  intro s hs
  rw [wp_bind]
  apply wp_imp (hx s hs)
  exact fun a t ht => hf a t ht

protected theorem ite {c : Prop} [Decidable c] {x y : EStateM ε σ α}
    (hx : Preserves I E x) (hy : Preserves I E y) : Preserves I E (if c then x else y) := by
  split_ifs
  · exact hx
  · exact hy

theorem of_moves {R : σ → σ → Prop} {x : EStateM ε σ α} (hx : Moves R x)
    (hI : ∀ s t, I s → R s t → I t) (hE : ∀ s, I s → E s) : Preserves I E x := by
  intro s hs
  apply wp_mono (hx s)
  · exact fun _ t h => hI s t hs h
  · exact fun _ t h => hE t (hI s t hs h)

end Preserves

/-- The program keeps `I`, and does not end with the error `e`. -/
def Spares (I : σ → Prop) (e : ε) (x : EStateM ε σ α) : Prop :=
  ∀ s, I s → wp x (fun _ t => I t) (fun e' _ => e' ≠ e) s

namespace Spares

variable {I : σ → Prop} {e : ε}

protected theorem pure (a : α) : Spares I e (pure a : EStateM ε σ α) := fun _ h => h

protected theorem get : Spares I e (get : EStateM ε σ σ) := fun _ h => h

protected theorem throw {e' : ε} (h : e' ≠ e) : Spares I e (throw e' : EStateM ε σ α) :=
  fun _ _ => h

protected theorem bind {x : EStateM ε σ α} {f : α → EStateM ε σ β}
    (hx : Spares I e x) (hf : ∀ a, Spares I e (f a)) : Spares I e (x >>= f) := by
  intro s hs
  rw [wp_bind]
  apply wp_imp (hx s hs)
  exact fun a t ht => hf a t ht

protected theorem ite {c : Prop} [Decidable c] {x y : EStateM ε σ α}
    (hx : c → Spares I e x) (hy : ¬ c → Spares I e y) : Spares I e (if c then x else y) := by
  split_ifs with h
  · exact hx h
  · exact hy h

end Spares

/-- A loop that is followed for a number of rounds is followed to its end, when a round
that goes on makes a measure smaller that was below that number. -/
theorem wp_rounds {γ : Type} (loop : ℕ → γ → EStateM ε σ α) {I : σ → Prop} {m : σ → ℕ}
    (hround : ∀ (rounds : ℕ) (c : γ) (s : σ), I s →
      (∀ (c : γ) (t : σ), I t → m t < m s → wp (loop rounds c) Q E t) →
      wp (loop (rounds + 1) c) Q E s) :
    ∀ (rounds : ℕ) (c : γ) (s : σ), I s → m s < rounds → wp (loop rounds c) Q E s
  | 0, _, _, _, h => absurd h (Nat.not_lt_zero _)
  | rounds + 1, c, s, hs, h => hround rounds c s hs fun c' t ht hlt =>
      wp_rounds loop hround rounds c' t ht (hlt.trans_le (Nat.lt_succ_iff.mp h))

end Hoare
