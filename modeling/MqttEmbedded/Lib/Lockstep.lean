import MqttEmbedded.Lib.Hoare

/-!
# Two runs side by side

Two programs that are started in related states may end alike: with the same value or
with the same error, and in related states again. As with `wp` there are two
postconditions.
-/

namespace Hoare

variable {ε σ σ' α β : Type}

inductive EndAlike (Q : α → σ → σ' → Prop) (E : σ → σ' → Prop) :
    EStateM.Result ε σ α → EStateM.Result ε σ' α → Prop
  | ok {a : α} {t : σ} {t' : σ'} : Q a t t' → EndAlike Q E (.ok a t) (.ok a t')
  | error {e : ε} {t : σ} {t' : σ'} : E t t' → EndAlike Q E (.error e t) (.error e t')

theorem EndAlike.value {Q : α → σ → σ' → Prop} {E : σ → σ' → Prop}
    {r : EStateM.Result ε σ α} {r' : EStateM.Result ε σ' α} (h : EndAlike Q E r r') {a : α} {t : σ}
    (hvalue : r = .ok a t) : ∃ t', r' = .ok a t' ∧ Q a t t' := by
  cases h with
  | ok hQ =>
    cases hvalue
    exact ⟨_, rfl, hQ⟩
  | error hE => cases hvalue

theorem EndAlike.imp {Q Q' : α → σ → σ' → Prop} {E E' : σ → σ' → Prop}
    {r : EStateM.Result ε σ α} {r' : EStateM.Result ε σ' α} (h : EndAlike Q E r r')
    (hQ : ∀ a t t', Q a t t' → Q' a t t') (hE : ∀ t t', E t t' → E' t t') :
    EndAlike Q' E' r r' := by
  cases h with
  | ok ht => exact .ok (hQ _ _ _ ht)
  | error ht => exact .error (hE _ _ ht)

theorem EndAlike.trans {σ'' : Type} {Q : α → σ → σ' → Prop} {E : σ → σ' → Prop}
    {Q' : α → σ' → σ'' → Prop} {E' : σ' → σ'' → Prop} {r : EStateM.Result ε σ α}
    {r' : EStateM.Result ε σ' α} {r'' : EStateM.Result ε σ'' α} (h : EndAlike Q E r r')
    (h' : EndAlike Q' E' r' r'') :
    EndAlike (fun a t t'' => ∃ t', Q a t t' ∧ Q' a t' t'') (fun t t'' => ∃ t', E t t' ∧ E' t' t'')
      r r'' := by
  cases h with
  | ok ht =>
    cases h' with
    | ok ht' => exact .ok ⟨_, ht, ht'⟩
  | error ht =>
    cases h' with
    | error ht' => exact .error ⟨_, ht, ht'⟩

/-- From states related by `R` the programs end alike. -/
def Lockstep (R : σ → σ' → Prop) (Q : α → σ → σ' → Prop) (E : σ → σ' → Prop)
    (x : EStateM ε σ α) (y : EStateM ε σ' α) : Prop :=
  ∀ s s', R s s' → EndAlike Q E (x s) (y s')

namespace Lockstep

variable {R R' : σ → σ' → Prop} {Q : α → σ → σ' → Prop} {E : σ → σ' → Prop}
  {x : EStateM ε σ α} {y : EStateM ε σ' α} {s t : σ} {s' : σ'}

protected theorem pure {a : α} (h : ∀ s s', R s s' → Q a s s') :
    Lockstep R Q E (pure a : EStateM ε σ α) (pure a : EStateM ε σ' α) :=
  fun s s' hs => .ok (h s s' hs)

protected theorem imp {Q' : α → σ → σ' → Prop} {E' : σ → σ' → Prop} (h : Lockstep R Q E x y)
    (hR : ∀ s s', R' s s' → R s s') (hQ : ∀ a t t', Q a t t' → Q' a t t')
    (hE : ∀ t t', E t t' → E' t t') : Lockstep R' Q' E' x y :=
  fun s s' hs => (h s s' (hR s s' hs)).imp hQ hE

theorem and_wp {P : α → σ' → Prop} {F : ε → σ' → Prop} (h : Lockstep R Q E x y)
    (hy : ∀ s s', R s s' → wp y P F s') :
    Lockstep R (fun a t t' => Q a t t' ∧ P a t') (fun t t' => E t t' ∧ ∃ e, F e t') x y := by
  intro s s' hs
  have hends := h s s' hs
  have hwp := hy s s' hs
  unfold wp at hwp
  generalize x s = r at hends ⊢
  generalize y s' = r' at hends hwp ⊢
  cases hends with
  | ok ht => exact .ok ⟨ht, hwp⟩
  | error ht => exact .error ⟨ht, _, hwp⟩

protected theorem bind {f : α → EStateM ε σ β} {g : α → EStateM ε σ' β}
    {T : β → σ → σ' → Prop} (h : Lockstep R Q E x y)
    (hf : ∀ a, Lockstep (Q a) T E (f a) (g a)) : Lockstep R T E (x >>= f) (y >>= g) := by
  intro s s' hs
  have hends := h s s' hs
  simp only [Bind.bind, EStateM.bind]
  generalize x s = r at hends ⊢
  generalize y s' = r' at hends ⊢
  cases hends with
  | ok ht => exact hf _ _ _ ht
  | error ht => exact .error ht

protected theorem ite {c : Prop} [Decidable c] {x' : EStateM ε σ α} {y' : EStateM ε σ' α}
    (h : c → Lockstep R Q E x y) (h' : ¬ c → Lockstep R Q E x' y') :
    Lockstep R Q E (if c then x else x') (if c then y else y') := by
  split_ifs with hc
  · exact h hc
  · exact h' hc

theorem value {a : α} (h : Lockstep R Q E x y) (hs : R s s') (hx : x s = .ok a t) :
    ∃ t', y s' = .ok a t' ∧ Q a t t' := by
  have hends := h s s' hs
  rw [hx] at hends
  generalize y s' = r' at hends ⊢
  cases hends with
  | ok ht => exact ⟨_, rfl, ht⟩

theorem fault {e : ε} (h : Lockstep R Q E x y) (hs : R s s') (hx : x s = .error e t) :
    ∃ t', y s' = .error e t' ∧ E t t' := by
  have hends := h s s' hs
  rw [hx] at hends
  generalize y s' = r' at hends ⊢
  cases hends with
  | error ht => exact ⟨_, rfl, ht⟩

theorem value_left {a : α} {t' : σ'} (h : Lockstep R Q E x y) (hs : R s s')
    (hy : y s' = .ok a t') : ∃ t, x s = .ok a t ∧ Q a t t' := by
  have hends := h s s' hs
  rw [hy] at hends
  generalize x s = r at hends ⊢
  cases hends with
  | ok ht => exact ⟨_, rfl, ht⟩

theorem fault_left {e : ε} {t' : σ'} (h : Lockstep R Q E x y) (hs : R s s')
    (hy : y s' = .error e t') : ∃ t, x s = .error e t ∧ E t t' := by
  have hends := h s s' hs
  rw [hy] at hends
  generalize x s = r at hends ⊢
  cases hends with
  | error ht => exact ⟨_, rfl, ht⟩

end Lockstep

/-- The program keeps `R` in two runs at once. -/
def Uniform (R : σ → σ → Prop) (x : EStateM ε σ α) : Prop := Lockstep R (fun _ => R) R x x

namespace Uniform

variable {R : σ → σ → Prop} {x y : EStateM ε σ α}

protected theorem pure (a : α) : Uniform R (pure a : EStateM ε σ α) := fun _ _ h => .ok h

protected theorem throw (e : ε) : Uniform R (throw e : EStateM ε σ α) := fun _ _ h => .error h

protected theorem bind {f : α → EStateM ε σ β} (h : Uniform R x) (hf : ∀ a, Uniform R (f a)) :
    Uniform R (x >>= f) :=
  Lockstep.bind h hf

protected theorem ite {c : Prop} [Decidable c] (h : Uniform R x) (h' : Uniform R y) :
    Uniform R (if c then x else y) :=
  Lockstep.ite (fun _ => h) fun _ => h'

end Uniform

end Hoare
