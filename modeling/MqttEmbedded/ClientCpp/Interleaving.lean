import MqttEmbedded.ClientCpp.SharedTimer

/-!
# Several clients in one thread

Clients take turns, one call at a time, each on its own network and with its own readings
of the clock. What `keepalive` returns to one of them is compared with the run in which
the others make no call.
-/

namespace MqttEmbedded.ClientCpp

open Hoare Log

variable {ι ω τ H : Type} [DecidableEq ι]

/-- The clients of one instantiation and the static variable that they share; what the
client itself has for it is not read. -/
structure Clients (ι ω τ H : Type) where
  client : ι → Client ω τ H
  pingSent : τ

/-- A client at its turn. -/
def Clients.turn (s : Clients ι ω τ H) (i : ι) : Client ω τ H :=
  { s.client i with own := { (s.client i).own with pingSent := s.pingSent } }

/-- It has had its turn and has become `t`. -/
def Clients.taken (s : Clients ι ω τ H) (i : ι) (t : Client ω τ H) : Clients ι ω τ H where
  client := Function.update s.client i t
  pingSent := t.own.pingSent

variable (p : Platform ω τ H) (fuel : ℕ)

def performAs (i : ι) (call : Call H) : Prog (Clients ι ω τ H) ℤ := fun s =>
  match perform p fuel call (s.turn i) with
  | .ok rc t => .ok rc (s.taken i t)
  | .error e t => .error e (s.taken i t)

def performTurns : List (ι × Call H) → Prog (Clients ι ω τ H) PUnit
  | [] => pure ⟨⟩
  | (i, call) :: turns => do
    let _ ← performAs p fuel i call
    performTurns turns

/-- What is left when the others make no call. -/
def turnsOf (i : ι) (turns : List (ι × Call H)) : List (ι × Call H) :=
  turns.filter fun turn => turn.1 = i

/-- What a call of `keepalive` has come to: the result, and whether a PINGREQ was sent. -/
def Occurrence.keepaliveResult : Occurrence → Option (ℤ × Bool)
  | .keptAlive rc pinged => some (rc, pinged)
  | .received .. | .delivered .. | .sent .. | .released _ | .publishing .. | .awaiting _
  | .awaited | .resuming | .resending _ => none

/-- The results of `keepalive`, the latest first. -/
def keepaliveResults (s : Client ω τ H) : List (ℤ × Bool) :=
  s.own.history.filterMap Occurrence.keepaliveResult

/-- At its turn `i` has sent no PINGREQ, unless no other client has one outstanding. -/
def Apart (s : Clients ι ω τ H) (i : ι) (t : Clients ι ω τ H) : Prop :=
  ∀ j, j ≠ i → (s.client j).client.pingOutstanding = true →
    ∀ o ∈ written (s.client i) (t.client i), ¬ o.Pings

/-- No client sends a PINGREQ while one of another is outstanding. -/
def Undisturbed : List (ι × Call H) → Clients ι ω τ H → Prop
  | [], _ => True
  | (i, call) :: turns, s => wp (performAs p fuel i call)
      (fun _ t => Apart s i t ∧ Undisturbed turns t) (fun _ t => Apart s i t) s

variable {p fuel} {i j : ι} {s s' t : Clients ι ω τ H} {turns : List (ι × Call H)}

theorem Clients.client_taken (s : Clients ι ω τ H) (i : ι) (t : Client ω τ H) :
    (s.taken i t).client i = t := Function.update_self ..

theorem Clients.turn_taken (s : Clients ι ω τ H) (i : ι) (t : Client ω τ H) :
    (s.taken i t).turn i = t := by
  unfold turn
  rw [client_taken]
  rfl

theorem Clients.client_taken_ne (hne : j ≠ i) (t : Client ω τ H) :
    (s.taken i t).client j = s.client j := Function.update_of_ne hne ..

theorem SameButPing.keepaliveResults {u u' : Client ω τ H} (h : SameButPing u u') :
    keepaliveResults u' = keepaliveResults u := by
  obtain ⟨v, rfl⟩ := h.same
  rfl

theorem SameButPing.taken (h : SameButPing (s.turn i) (s'.turn i)) (hne : i ≠ j)
    {u : Client ω τ H} (hsince : Since (s.turn j).own.history s.pingSent u)
    (hapart : Apart s j (s.taken j u)) :
    SameButPing ((s.taken j u).turn i) (s'.turn i) := by
  have hclient : (s.taken j u).client i = s.client i := Clients.client_taken_ne hne u
  unfold Clients.turn at h ⊢
  rw [hclient]
  obtain ⟨v, hv⟩ := h.same
  refine ⟨⟨v, hv⟩, fun houtstanding => ?_⟩
  have hsame : s'.pingSent = s.pingSent := h.ping houtstanding
  change s'.pingSent = u.own.pingSent
  obtain ⟨log, hlog, hpings | hkept⟩ := hsince
  · obtain ⟨o, ho, hpings⟩ := hpings
    have hwritten : written (s.client j) ((s.taken j u).client j) = log := by
      rw [Clients.client_taken]
      exact written_eq hlog
    exact absurd hpings (hapart i hne houtstanding o (hwritten ▸ ho))
  · rw [hsame, hkept]

theorem performAs_ok {call : Call H} {rc : ℤ} {u : Client ω τ H}
    (h : perform p fuel call (s.turn i) = .ok rc u) :
    performAs p fuel i call s = .ok rc (s.taken i u) := by
  unfold performAs
  rw [h]

theorem performAs_error {call : Call H} {e : Fault} {u : Client ω τ H}
    (h : perform p fuel call (s.turn i) = .error e u) :
    performAs p fuel i call s = .error e (s.taken i u) := by
  unfold performAs
  rw [h]

theorem SameButPing.turn_taken {u u' : Client ω τ H} (h : SameButPing u u') :
    SameButPing ((s.taken i u).turn i) ((s'.taken i u').turn i) := by
  rw [Clients.turn_taken, Clients.turn_taken]
  exact h

variable {result : Option PUnit} {call : Call H}

variable (p fuel) in
/-- From `s'` on `i` makes its calls alone and comes to where it is in `t`. A fault of
another client may have ended the run of all before `i` has made all its calls. -/
def RunsAlone (i : ι) (turns : List (ι × Call H)) (result : Option PUnit)
    (s' t : Clients ι ω τ H) : Prop :=
  ∃ own result' t', own <+: turnsOf i turns ∧ (result.isSome → own = turnsOf i turns) ∧
    Ends (performTurns p fuel own) s' result' t' ∧ SameButPing (t.turn i) (t'.turn i)

namespace RunsAlone

theorem nil (h : SameButPing (t.turn i) (s'.turn i))
    (hturns : result.isSome → turnsOf i turns = []) :
    RunsAlone p fuel i turns result s' t :=
  ⟨[], some ⟨⟩, s', List.nil_prefix, fun hresult => (hturns hresult).symm, .value rfl, h⟩

theorem turnsOf_cons (i : ι) (call : Call H) (turns : List (ι × Call H)) :
    turnsOf i ((i, call) :: turns) = (i, call) :: turnsOf i turns :=
  List.filter_cons_of_pos (by simp)

theorem turn {rc : ℤ} {u : Clients ι ω τ H} (hperform : performAs p fuel i call s' = .ok rc u)
    (h : RunsAlone p fuel i turns result u t) :
    RunsAlone p fuel i ((i, call) :: turns) result s' t := by
  obtain ⟨own, result', t', hown, hall, hends, hsame⟩ := h
  refine ⟨(i, call) :: own, result', t', ?_, fun hresult => ?_, ?_, hsame⟩
  · rw [turnsOf_cons]
    exact (List.prefix_cons_inj _).mpr hown
  · rw [turnsOf_cons, hall hresult]
  · exact (ends_bind_ok hperform).mpr hends

theorem fault {e : Fault} {u : Clients ι ω τ H} (hperform : performAs p fuel i call s' = .error e u)
    (h : SameButPing (t.turn i) (u.turn i)) :
    RunsAlone p fuel i ((i, call) :: turns) none s' t := by
  refine ⟨[(i, call)], none, u, ?_, fun h => absurd h Bool.false_ne_true, ?_, h⟩
  · rw [turnsOf_cons]
    exact (List.prefix_cons_inj _).mpr List.nil_prefix
  · exact (ends_bind_error hperform).mpr ⟨rfl, rfl⟩

theorem other (hne : j ≠ i) (h : RunsAlone p fuel i turns result s' t) :
    RunsAlone p fuel i ((j, call) :: turns) result s' t := by
  have hturns : turnsOf i ((j, call) :: turns) = turnsOf i turns :=
    List.filter_cons_of_neg (by simp [hne])
  unfold RunsAlone
  rw [hturns]
  exact h

end RunsAlone

section

variable (hafresh : CountsAfresh p)
include hafresh

theorem perform_alike (fuel : ℕ) (call : Call H) :
    Uniform SameButPing (perform p fuel call : Prog (Client ω τ H) ℤ) := by
  intro s s' h
  have hends := perform_uniform hafresh fuel call s s' ⟨h, [], rfl, .inr rfl⟩
  generalize perform p fuel call s = r at hends ⊢
  generalize perform p fuel call s' = r' at hends ⊢
  cases hends with
  | ok ht => exact .ok ht.toSameButPing
  | error ht => exact .error ht.toSameButPing

/-- What the turn of a client leaves behind, whatever the time was that it found. -/
theorem perform_since (fuel : ℕ) (call : Call H) (s : Client ω τ H) :
    wp (perform p fuel call) (fun _ t => Since s.own.history s.own.pingSent t)
      (fun _ t => Since s.own.history s.own.pingSent t) s := by
  have htwin : SameButPing s s := ⟨⟨s.own.pingSent, rfl⟩, fun _ => rfl⟩
  have hends := perform_uniform hafresh fuel call s s ⟨htwin, [], rfl, .inr rfl⟩
  unfold wp
  generalize perform p fuel call s = r at hends ⊢
  cases hends with
  | ok h => exact h.since
  | error h => exact h.since

theorem performTurns_alone (hends : Ends (performTurns p fuel turns) s result t)
    (h : Undisturbed p fuel turns s) (hsame : SameButPing (s.turn i) (s'.turn i)) :
    RunsAlone p fuel i turns result s' t := by
  induction turns generalizing s s' with
  | nil =>
    cases hends with
    | value hdone =>
      cases hdone
      exact .nil hsame fun _ => rfl
    | error hfault => cases hfault
  | cons turn turns ih =>
    obtain ⟨j, call⟩ := turn
    have hsince := perform_since hafresh fuel call (s.turn j)
    cases hperform : perform p fuel call (s.turn j) with
    | ok rc u =>
      have hdone := performAs_ok hperform
      obtain ⟨hapart, hrest⟩ := (wp_ok hdone).mp h
      have hlater := (ends_bind_ok hdone).mp hends
      by_cases hij : j = i
      · subst hij
        obtain ⟨u', hperform', hsame'⟩ := (perform_alike hafresh fuel call).value hsame hperform
        exact .turn (performAs_ok hperform') (ih hlater hrest hsame'.turn_taken)
      · have htaken := hsame.taken (Ne.symm hij) ((wp_ok hperform).mp hsince) hapart
        exact .other hij (ih hlater hrest htaken)
    | error e u =>
      have hfault := performAs_error hperform
      obtain ⟨rfl, rfl⟩ := (ends_bind_error hfault).mp hends
      by_cases hij : j = i
      · subst hij
        obtain ⟨u', hperform', hsame'⟩ := (perform_alike hafresh fuel call).fault hsame hperform
        exact .fault (performAs_error hperform') hsame'.turn_taken
      · have hapart := (wp_error hfault).mp h
        have htaken := hsame.taken (Ne.symm hij) ((wp_error hperform).mp hsince) hapart
        exact .other hij (.nil htaken fun h => absurd h Bool.false_ne_true)

/-- In every run in which no client sends a PINGREQ while one of another is outstanding,
`keepalive` has the results for a client that it has in the run of this client alone. -/
theorem performTurns_undisturbed (hends : Ends (performTurns p fuel turns) s result t)
    (h : Undisturbed p fuel turns s) (i : ι) :
    ∃ own result' t', own <+: turnsOf i turns ∧ (result.isSome → own = turnsOf i turns) ∧
      Ends (performTurns p fuel own) s result' t' ∧
      keepaliveResults (t'.client i) = keepaliveResults (t.client i) := by
  have hsame : SameButPing (s.turn i) (s.turn i) := ⟨⟨s.pingSent, rfl⟩, fun _ => rfl⟩
  obtain ⟨own, result', t', hown, hall, hends', hsame'⟩ :=
    performTurns_alone hafresh hends h hsame
  exact ⟨own, result', t', hown, hall, hends', hsame'.keepaliveResults⟩

end

/-- A network where nothing arrives after `inbound`, so that a read waits for as long as it is
allowed to. Time passes also before a timer is made. -/
structure Schedule where
  now : ℕ
  pauses : List ℕ
  inbound : List UInt8

def schedulePlatform : Platform Schedule ℕ Unit where
  mqttread := fun len timeout w =>
    (.arrived (w.inbound.take len) (List.length_take_le _ _), { w with
      now := if w.inbound = [] then w.now + timeout.toNat else w.now
      inbound := w.inbound.drop len })
  mqttwrite := fun _ len _ w => (len, w)
  timerInit := fun w => (0, { w with now := w.now + w.pauses.headD 0, pauses := w.pauses.tail })
  timerIsExpired := fun timer w => (timer ≤ w.now, w)
  timerCountdownMS := fun _ ms w => (w.now + ms, w)
  timerCountdown := fun _ seconds w => (w.now + 1000 * seconds, w)
  timerLeftMS := fun timer w => (timer - w.now, w)
  invoke := fun _ _ w => w

theorem schedulePlatform_countsAfresh : CountsAfresh schedulePlatform :=
  fun _ _ _ _ => rfl

/-- A client whose timers are made after these pauses. -/
def paused (pauses : List ℕ) : Client Schedule ℕ Unit :=
  construct
    { client :=
        { nextPacketid := 0
          commandTimeoutMs := 0
          buf := List.replicate 24 0
          readbuf := List.replicate 16 0
          keepAliveInterval := 0
          pingOutstanding := false
          isconnected := false
          cleansession := false
          messageHandlers := []
          defaultMessageHandler := none
          lastSent := 0
          lastReceived := 0 }
      own :=
        { pubbuf := List.replicate 24 0
          inflightLen := 0
          inflightMsgid := 0
          inflightQoS := 0
          pubrel := false
          incomingQoS2messages := []
          pingSent := 0
          history := [] }
      world := ⟨0, pauses, [0x20, 2, 0, 0]⟩ } 1000

/-- Each client finds on its clock the time that the other has taken. -/
def twoClients : Clients Bool Schedule ℕ Unit where
  client := fun i => if i then paused [0, 1000, 0] else paused [0, 0, 0, 100]
  pingSent := 0

/-- Both connect, the first with an interval of a second; it waits for a second, sends a
PINGREQ at 1000 and waits again until 2050. Before that the second waits until 1100. -/
def twoWaits (keepAliveInterval : UInt16) : List (Bool × Call Unit) :=
  [(false, .connect (some { connectDataInitializer with keepAliveInterval := 1 })),
    (true, .connect (some { connectDataInitializer with keepAliveInterval := keepAliveInterval })),
    (false, .yield 1000), (true, .yield 100), (false, .yield 950)]

/-- The second sends a PINGREQ at 1100, and the first does not see that its own has
expired at 2000. -/
theorem performTurns_disturbed : ∃ t t',
    performTurns schedulePlatform 16 (twoWaits 1) twoClients = .ok ⟨⟩ t ∧
    performTurns schedulePlatform 16 (turnsOf false (twoWaits 1)) twoClients = .ok ⟨⟩ t' ∧
    keepaliveResults (t.client false) ≠ keepaliveResults (t'.client false) := by
  obtain ⟨_, t, hrun, hdisturbed⟩ : ∃ a t,
      performTurns schedulePlatform 16 (twoWaits 1) twoClients = .ok a t ∧
      keepaliveResults (t.client false) =
        [(success, false), (success, true), (success, false)] := wp_total (by decide +kernel)
  obtain ⟨_, t', hrun', halone⟩ : ∃ a t',
      performTurns schedulePlatform 16 (turnsOf false (twoWaits 1)) twoClients = .ok a t' ∧
      keepaliveResults (t'.client false) =
        [(failure, false), (success, true), (success, false)] := wp_total (by decide +kernel)
  refine ⟨t, t', hrun, hrun', ?_⟩
  rw [hdisturbed, halone]
  decide

instance (s : Clients Bool ω τ H) (i : Bool) (t : Clients Bool ω τ H) : Decidable (Apart s i t) :=
  decidable_of_iff (∀ j ∈ [false, true], j ≠ i → (s.client j).client.pingOutstanding = true →
    ∀ o ∈ written (s.client i) (t.client i), ¬ o.Pings)
    ⟨fun h j => h j (by cases j <;> simp), fun h j _ => h j⟩

instance decidableUndisturbed : ∀ (turns : List (Bool × Call H)) (s : Clients Bool ω τ H),
    Decidable (Undisturbed p fuel turns s)
  | [], _ => .isTrue trivial
  | (i, call) :: turns, s =>
    have (t : Clients Bool ω τ H) : Decidable (Undisturbed p fuel turns t) :=
      decidableUndisturbed turns t
    inferInstanceAs (Decidable (wp (performAs p fuel i call)
      (fun _ t => Apart s i t ∧ Undisturbed p fuel turns t) (fun _ t => Apart s i t) s))

-- so that a run is evaluated by the kernel only
attribute [irreducible] Undisturbed

theorem twoWaits_undisturbed : Undisturbed schedulePlatform 16 (twoWaits 60) twoClients := by
  decide +kernel

/-- With an interval of a minute the second sends no PINGREQ. -/
theorem performTurns_undisturbed_minute : ∃ t own result' t',
    performTurns schedulePlatform 16 (twoWaits 60) twoClients = .ok ⟨⟩ t ∧
    own = turnsOf false (twoWaits 60) ∧
    Ends (performTurns schedulePlatform 16 own) twoClients result' t' ∧
    keepaliveResults (t'.client false) = keepaliveResults (t.client false) := by
  obtain ⟨_, t, hrun, -⟩ : ∃ a t,
      performTurns schedulePlatform 16 (twoWaits 60) twoClients = .ok a t ∧ True :=
    wp_total (by decide +kernel)
  obtain ⟨own, result', t', -, hall, hends, hresults⟩ :=
    performTurns_undisturbed schedulePlatform_countsAfresh (.value hrun) twoWaits_undisturbed false
  exact ⟨t, own, result', t', hrun, hall rfl, hends, hresults⟩

end MqttEmbedded.ClientCpp
