import Mathlib.Data.List.Basic
import Mathlib.Data.List.Perm.Basic
import Mathlib.Tactic

/-!
# A server that answers requests

A client and a server exchange messages over two channels that keep their order.
The server owes one answer for each request it takes, gives the answers it owes
in any order, and sends messages of its own whenever it likes. Some messages of
the client ask for no answer. An answer is outstanding from when it is asked for
until it is delivered, wherever it is on its way.
-/

/-- What messages ask for, and what they answer. -/
structure Protocol (μ π α : Type) where
  answerTo : μ → Option α
  answerOf : π → Option α

namespace Protocol

inductive Step (μ π : Type) where
  | post (m : μ)
  | take (m : μ)
  | answer (p : π)
  | send (p : π)
  | deliver (p : π)
  | renew

/-- Taking, answering and sending is what the server does. -/
def Step.byServer {μ π : Type} : Step μ π → Prop
  | .take _ | .answer _ | .send _ => True
  | .post _ | .deliver _ | .renew => False

structure Net (μ π α : Type) where
  toServer : List μ
  owed : List α
  toClient : List π

variable {μ π α : Type}

def Net.fresh : Net μ π α := ⟨[], [], []⟩

section

variable (proto : Protocol μ π α) [DecidableEq μ] [DecidableEq π] [DecidableEq α]

def take (net : Net μ π α) (m : μ) : Option (Net μ π α) :=
  match net.toServer with
  | [] => none
  | first :: rest =>
    if first = m then some { net with
      toServer := rest
      owed := net.owed ++ (proto.answerTo m).toList }
    else none

def answer (net : Net μ π α) (p : π) : Option (Net μ π α) :=
  match proto.answerOf p with
  | none => none
  | some a =>
    if a ∈ net.owed then some { net with
      owed := net.owed.erase a
      toClient := net.toClient ++ [p] }
    else none

def deliver (net : Net μ π α) (p : π) : Option (Net μ π α) :=
  match net.toClient with
  | [] => none
  | first :: rest => if first = p then some { net with toClient := rest } else none

def step (net : Net μ π α) : Step μ π → Option (Net μ π α)
  | .post m => some { net with toServer := net.toServer ++ [m] }
  | .take m => proto.take net m
  | .answer p => proto.answer net p
  | .send p =>
    if proto.answerOf p = none then some { net with toClient := net.toClient ++ [p] } else none
  | .deliver p => deliver net p
  | .renew => some .fresh

def run (net : Net μ π α) (steps : List (Step μ π)) : Option (Net μ π α) :=
  steps.foldlM proto.step net

theorem run_append (net : Net μ π α) (steps steps' : List (Step μ π)) :
    proto.run net (steps ++ steps') = (proto.run net steps).bind fun mid => proto.run mid steps' :=
  List.foldlM_append

variable {proto}

theorem run_cons_eq_some {net net' : Net μ π α} {e : Step μ π} {steps : List (Step μ π)} :
    proto.run net (e :: steps) = some net' ↔
      ∃ mid, proto.step net e = some mid ∧ proto.run mid steps = some net' := by
  simp [run, List.foldlM_cons, Option.bind_eq_some_iff]

end

section

variable {proto : Protocol μ π α} {net net' : Net μ π α}

theorem take_eq_some [DecidableEq μ] {m : μ} (h : proto.take net m = some net') :
    ∃ rest, net.toServer = m :: rest ∧
      net' = { net with toServer := rest, owed := net.owed ++ (proto.answerTo m).toList } := by
  unfold take at h
  cases hserver : net.toServer with
  | nil => simp [hserver] at h
  | cons first rest =>
    rw [hserver] at h
    dsimp only at h
    split_ifs at h with hm
    subst hm
    exact ⟨rest, rfl, (Option.some.inj h).symm⟩

theorem answer_eq_some [DecidableEq α] {p : π} (h : proto.answer net p = some net') :
    ∃ a, proto.answerOf p = some a ∧ a ∈ net.owed ∧
      net' = { net with owed := net.owed.erase a, toClient := net.toClient ++ [p] } := by
  unfold answer at h
  cases hp : proto.answerOf p with
  | none => simp [hp] at h
  | some a =>
    rw [hp] at h
    dsimp only at h
    split_ifs at h with ha
    exact ⟨a, rfl, ha, (Option.some.inj h).symm⟩

theorem deliver_eq_some [DecidableEq π] {p : π} (h : deliver net p = some net') :
    ∃ rest, net.toClient = p :: rest ∧ net' = { net with toClient := rest } := by
  unfold deliver at h
  cases hclient : net.toClient with
  | nil => simp [hclient] at h
  | cons first rest =>
    rw [hclient] at h
    dsimp only at h
    split_ifs at h with hp
    subst hp
    exact ⟨rest, rfl, (Option.some.inj h).symm⟩

end

section

variable (proto : Protocol μ π α)

/-- The answers that are on their way, in the order of the way. -/
def outstanding (net : Net μ π α) : List α :=
  net.toClient.filterMap proto.answerOf ++ (net.owed ++ net.toServer.filterMap proto.answerTo)

def posted : Step μ π → List μ
  | .post m => [m]
  | _ => []

def taken : Step μ π → List μ
  | .take m => [m]
  | _ => []

variable {proto} [DecidableEq μ] [DecidableEq π] [DecidableEq α] {net net' : Net μ π α}
  {e : Step μ π}

theorem step_toServer (h : proto.step net e = some net') (he : e ≠ .renew) :
    net.toServer ++ posted e = taken e ++ net'.toServer := by
  cases e with
  | post m =>
    cases h
    rfl
  | take m =>
    obtain ⟨rest, hserver, rfl⟩ := take_eq_some h
    simp [hserver, posted, taken]
  | answer p =>
    obtain ⟨a, -, -, rfl⟩ := answer_eq_some h
    simp [posted, taken]
  | send p =>
    simp only [step] at h
    split_ifs at h
    cases h
    simp [posted, taken]
  | deliver p =>
    obtain ⟨rest, -, rfl⟩ := deliver_eq_some h
    simp [posted, taken]
  | renew => exact absurd rfl he

theorem run_toServer {steps : List (Step μ π)} (hrun : proto.run net steps = some net')
    (hsteps : ∀ e ∈ steps, e ≠ .renew) :
    net.toServer ++ steps.flatMap posted = steps.flatMap taken ++ net'.toServer := by
  induction steps generalizing net with
  | nil =>
    cases hrun
    simp
  | cons e steps ih =>
    obtain ⟨mid, hstep, hrest⟩ := run_cons_eq_some.mp hrun
    have hfirst := step_toServer hstep (hsteps e List.mem_cons_self)
    have hlater := ih hrest fun e he => hsteps e (List.mem_cons_of_mem _ he)
    rw [List.flatMap_cons, List.flatMap_cons, ← List.append_assoc, hfirst, List.append_assoc,
      hlater, List.append_assoc]

/-- What the client posts is what it asks for. -/
theorem outstanding_post {m : μ} (h : proto.step net (.post m) = some net') :
    proto.outstanding net' = proto.outstanding net ++ (proto.answerTo m).toList := by
  cases h
  cases hm : proto.answerTo m <;> simp [outstanding, hm]

/-- The server does not make an answer out of nothing, nor lose one. -/
theorem outstanding_server (h : proto.step net e = some net') (he : e.byServer) :
    (proto.outstanding net').Perm (proto.outstanding net) := by
  cases e with
  | take m =>
    obtain ⟨rest, hserver, rfl⟩ := take_eq_some h
    cases hm : proto.answerTo m <;> simp [outstanding, hserver, hm]
  | answer p =>
    obtain ⟨a, hp, ha, rfl⟩ := answer_eq_some h
    have howed := List.perm_cons_erase ha
    simp only [outstanding, List.filterMap_append, List.filterMap_cons, hp, List.filterMap_nil,
      List.append_assoc]
    exact List.Perm.append_left _ (howed.symm.append_right _)
  | send p =>
    simp only [step] at h
    split_ifs at h with hp
    cases h
    simp [outstanding, hp]
  | post m | deliver p | renew => exact he.elim

/-- What is delivered is no longer outstanding. -/
theorem outstanding_deliver {p : π} (h : proto.step net (.deliver p) = some net') :
    proto.outstanding net = (proto.answerOf p).toList ++ proto.outstanding net' := by
  obtain ⟨rest, hclient, rfl⟩ := deliver_eq_some h
  cases hp : proto.answerOf p <;> simp [outstanding, hclient, hp]

end
end Protocol
