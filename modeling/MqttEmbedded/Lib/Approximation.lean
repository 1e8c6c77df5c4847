import MqttEmbedded.Lib.Hoare

/-!
# Programs that are followed for longer

A program that gives up with a certain error approximates one that may go on: where the
first does not give up, both do the same. A program that does not give up has therefore
one meaning, however long it is followed.
-/

namespace Hoare

variable {ε σ α β : Type}

/-- Where `x` does not end with the error `e`, `y` does the same. -/
def Approximates (e : ε) (x y : EStateM ε σ α) : Prop :=
  ∀ s, x s = y s ∨ ∃ t, x s = .error e t

namespace Approximates

variable {e : ε} {x y z : EStateM ε σ α} {s : σ}

protected theorem refl (e : ε) (x : EStateM ε σ α) : Approximates e x x := fun _ => .inl rfl

/-- Giving up approximates everything. -/
protected theorem throw (e : ε) (y : EStateM ε σ α) : Approximates e (throw e) y :=
  fun s => .inr ⟨s, rfl⟩

protected theorem bind {f g : α → EStateM ε σ β} (h : Approximates e x y)
    (hf : ∀ a, Approximates e (f a) (g a)) : Approximates e (x >>= f) (y >>= g) := by
  intro s
  simp only [Bind.bind, EStateM.bind]
  rcases h s with heq | ⟨t, ht⟩
  · rw [heq]
    cases y s with
    | ok a t => exact hf a t
    | error e' t => exact .inl rfl
  · rw [ht]
    exact .inr ⟨t, rfl⟩

protected theorem ite {c : Prop} [Decidable c] {x' y' : EStateM ε σ α}
    (h : Approximates e x y) (h' : Approximates e x' y') :
    Approximates e (if c then x else x') (if c then y else y') := by
  split_ifs
  · exact h
  · exact h'

theorem eq_of_wp {Q : α → σ → Prop} (h : Approximates e x y)
    (hwp : wp x Q (fun e' _ => e' ≠ e) s) : x s = y s := by
  rcases h s with heq | ⟨t, ht⟩
  · exact heq
  · exact absurd rfl ((wp_error ht).mp hwp)

/-- Programs that are each followed for longer than the last, and from some point on do not
give up, all have the same result from there. -/
theorem settles {x : ℕ → EStateM ε σ α} {enough : ℕ → Prop} {Q : α → σ → Prop}
    (h : ∀ {n n' : ℕ}, n ≤ n' → Approximates e (x n) (x n')) (hexists : ∃ n, enough n)
    (hends : ∀ n, enough n → wp (x n) Q (fun e' _ => e' ≠ e) s) :
    ∃ result, (∀ t, result ≠ .error e t) ∧ ∀ n, enough n → x n s = result := by
  obtain ⟨n, hn⟩ := hexists
  refine ⟨x n s, fun t ht => (wp_error ht).mp (hends n hn) rfl, fun n' hn' => ?_⟩
  rcases le_total n n' with hle | hle
  · exact ((h hle).eq_of_wp (hends n hn)).symm
  · exact (h hle).eq_of_wp (hends n' hn')

end Approximates

end Hoare
