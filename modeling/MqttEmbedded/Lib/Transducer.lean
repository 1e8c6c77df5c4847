import Mathlib.Data.List.Basic
import Mathlib.Tactic

/-!
# Transducers

A machine that takes one symbol at a time and now and then gives an output.
Outputs are recorded with the number of symbols taken so far, so that what a
machine shows depends on the symbols alone and not on how they were cut into
pieces.
-/

structure Transducer (σ ι ο : Type) where
  step : σ → ι → σ × Option ο

namespace Transducer

variable {σ ι ο : Type} (m : Transducer σ ι ο)

def final (q : σ) (xs : List ι) : σ := xs.foldl (fun q x => (m.step q x).1) q

/-- The outputs on `xs`, each with its position, counting from `n`. -/
def outputs : ℕ → σ → List ι → List (ℕ × ο)
  | _, _, [] => []
  | n, q, x :: xs =>
    ((m.step q x).2.map fun o => (n + 1, o)).toList ++ outputs (n + 1) (m.step q x).1 xs

theorem final_append (q : σ) (xs ys : List ι) :
    m.final q (xs ++ ys) = m.final (m.final q xs) ys := by
  simp [final]

theorem outputs_append (n : ℕ) (q : σ) (xs ys : List ι) :
    m.outputs n q (xs ++ ys) = m.outputs n q xs ++ m.outputs (n + xs.length) (m.final q xs) ys := by
  induction xs generalizing n q with
  | nil => simp [outputs, final]
  | cons x xs ih =>
    simp only [List.cons_append, outputs, ih, List.append_assoc, List.length_cons, final,
      List.foldl_cons]
    rw [show n + 1 + xs.length = n + (xs.length + 1) by omega]

/-- `xs` leads from `q` to `q'` in silence, but for `o` on its last symbol. -/
structure Leads (q : σ) (xs : List ι) (q' : σ) (o : Option ο) : Prop where
  final_eq : m.final q xs = q'
  outputs_eq : ∀ n, m.outputs n q xs = (o.map fun o => (n + xs.length, o)).toList

namespace Leads

variable {m} {q q' q'' : σ} {xs ys : List ι} {o : Option ο}

protected theorem nil : m.Leads q [] q none := ⟨rfl, fun _ => rfl⟩

protected theorem single {x : ι} (h : m.step q x = (q', o)) : m.Leads q [x] q' o :=
  ⟨by simp [final, h], fun n => by simp [outputs, h]⟩

protected theorem append (h : m.Leads q xs q' none) (h' : m.Leads q' ys q'' o) :
    m.Leads q (xs ++ ys) q'' o := by
  refine ⟨by rw [final_append, h.final_eq, h'.final_eq], fun n => ?_⟩
  rw [outputs_append, h.outputs_eq, h.final_eq, h'.outputs_eq, List.length_append]
  simp [Nat.add_assoc]

protected theorem cons {x : ι} (h : m.step q x = (q', none)) (h' : m.Leads q' ys q'' o) :
    m.Leads q (x :: ys) q'' o :=
  (Leads.single h).append h'

end Leads

theorem outputs_flatMap {α : Type} {q : σ} {items : List α} {piece : α → List ι} {out : α → ο}
    (h : ∀ a ∈ items, m.Leads q (piece a) q (some (out a))) (n : ℕ) :
    m.outputs n q (items.flatMap piece) =
      items.mapIdx fun k a => (n + ((items.take (k + 1)).flatMap piece).length, out a) := by
  induction items generalizing n with
  | nil => rfl
  | cons a items ih =>
    have ha := h a List.mem_cons_self
    have ih := ih (fun b hb => h b (List.mem_cons_of_mem _ hb)) (n + (piece a).length)
    rw [List.flatMap_cons, outputs_append, ha.outputs_eq, ha.final_eq, ih, List.mapIdx_cons]
    simp [Nat.add_assoc]

end Transducer
