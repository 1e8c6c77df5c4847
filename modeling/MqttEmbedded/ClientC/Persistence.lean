import MqttEmbedded.ClientC.Outcomes
import MqttEmbedded.ClientC.Upkeep

/-!
# Subscriptions survive in a persistent session

As long as no connect has asked for a clean session, closing a session leaves the table
of handlers alone, wherever it happens; the slots that a call changes are free or hold
its own filter, before and after.
-/

namespace MqttEmbedded.ClientC

open Hoare

variable {ω τ H : Type} {p : Platform ω τ H} {fuel : ℕ} {s t u : Client ω τ H}
  {own : Option CString}

/-- The slot is free or holds the filter. -/
def MayHold (topicFilter : CString) (slot : Option (MessageHandler H)) : Prop :=
  ∃ handler, slot = some handler ∧
    (handler.topicFilter = none ∨ handler.topicFilter = some topicFilter)

/-- Nothing has changed but slots that may hold the filter, if there is one. -/
def Untouched : Option CString → (slots slots' : List (MessageHandler H)) → Prop
  | none, slots, slots' => slots' = slots
  | some topicFilter, slots, slots' => ∀ i : ℕ, slots'[i]? = slots[i]? ∨
      (MayHold topicFilter slots[i]? ∧ MayHold topicFilter slots'[i]?)

namespace Untouched

variable {slots slots' slots'' : List (MessageHandler H)}

theorem refl (own : Option CString) (slots : List (MessageHandler H)) :
    Untouched own slots slots := by
  cases own with
  | none => rfl
  | some topicFilter => exact fun i => .inl rfl

theorem trans (h : Untouched own slots slots') (h' : Untouched own slots' slots'') :
    Untouched own slots slots'' := by
  cases own with
  | none => exact Eq.trans h' h
  | some topicFilter =>
    intro i
    rcases h i with heq | ⟨hold, hold'⟩
    · rw [← heq]
      exact h' i
    · rcases h' i with heq' | ⟨-, hold''⟩
      · rw [heq']
        exact .inr ⟨hold, hold'⟩
      · exact .inr ⟨hold, hold''⟩

theorem set {topicFilter : CString} {i : ℕ} {new : MessageHandler H}
    (hold : MayHold topicFilter slots[i]?)
    (hnew : new.topicFilter = none ∨ new.topicFilter = some topicFilter) :
    Untouched (some topicFilter) slots (slots.set i new) := by
  intro j
  by_cases hij : i = j
  · subst hij
    obtain ⟨old, hget, hfilter⟩ := hold
    have hlt := (List.getElem?_eq_some_iff.mp hget).1
    rw [List.getElem?_set_self hlt]
    exact .inr ⟨⟨old, hget, hfilter⟩, new, rfl, hnew⟩
  · rw [List.getElem?_set_ne hij]
    exact .inl rfl

end Untouched

theorem mayHold_of_findIdx? (topicFilter : CString) {slots : List (MessageHandler H)}
    {q : MessageHandler H → Bool} {i : ℕ} (hfind : slots.findIdx? q = some i)
    (hq : ∀ slot, q slot = true → slot.topicFilter = none ∨ slot.topicFilter = some topicFilter) :
    MayHold topicFilter slots[i]? := by
  obtain ⟨hlt, hslot, -⟩ := List.findIdx?_eq_some_iff_getElem.mp hfind
  exact ⟨slots[i], List.getElem?_eq_getElem hlt, hq _ hslot⟩

theorem setMessageHandler_untouched (slots : List (MessageHandler H)) (topicFilter : CString)
    (messageHandler : Option H) :
    Untouched (some topicFilter) slots (setMessageHandler slots topicFilter messageHandler).2 := by
  unfold setMessageHandler
  cases hfind : slots.findIdx? fun slot => slot.topicFilter = some topicFilter with
  | some i =>
    have hold := mayHold_of_findIdx? topicFilter hfind fun slot h => .inr (of_decide_eq_true h)
    cases messageHandler with
    | none => exact .set hold (.inl rfl)
    | some fp => exact .set hold (.inr rfl)
  | none =>
    cases messageHandler with
    | none => exact .refl _ slots
    | some fp =>
      cases hfree : slots.findIdx? fun slot => slot.topicFilter.isNone with
      | none => exact .refl _ slots
      | some i =>
        have hold := mayHold_of_findIdx? topicFilter hfree fun slot h =>
          .inl (Option.isNone_iff_eq_none.mp h)
        exact .set hold (.inr rfl)

/-- A persistent session stays one, with its table. -/
def Kept (own : Option CString) (s t : Client ω τ H) : Prop :=
  s.client.cleansession = false → t.client.cleansession = false ∧
    Untouched own s.client.messageHandlers t.client.messageHandlers

instance : Std.Refl (Kept own : Client ω τ H → Client ω τ H → Prop) :=
  ⟨fun s h => ⟨h, .refl own s.client.messageHandlers⟩⟩

instance : IsTrans (Client ω τ H) (Kept own) where
  trans := fun s t u h h' hclean => by
    obtain ⟨hclean', hslots⟩ := h hclean
    obtain ⟨hclean'', hslots'⟩ := h' hclean'
    exact ⟨hclean'', hslots.trans hslots'⟩

theorem SameSession.kept (h : SameSession s t) : Kept own s t := by
  intro hclean
  rw [h.cleansession, h.messageHandlers]
  exact ⟨hclean, .refl own _⟩

theorem mqttCloseSession_kept :
    Moves (Kept own) (mqttCloseSession : Prog (Client ω τ H) PUnit) := by
  intro s
  unfold mqttCloseSession mqttCleanSession
  simp only [wp_bind, wp_modifyClient, wp_getClient, wp_ite, wp_pure]
  constructor
  · intro hclean hnot
    exact absurd hclean (by simp [hnot])
  · exact fun _ hclean => ⟨hclean, .refl own _⟩

theorem kept_upkeep (own : Option CString) (p : Platform ω τ H) : Upkeep p (Kept own) where
  __ := outward_of_world p fun _ _ => SameSession.kept ⟨rfl, rfl, rfl⟩
  __ := inward_of_world p (fun _ _ => SameSession.kept ⟨rfl, rfl, rfl⟩)
    (fun _ _ => SameSession.kept ⟨rfl, rfl, rfl⟩) fun _ _ => SameSession.kept ⟨rfl, rfl, rfl⟩
  buf := fun _ _ => SameSession.kept ⟨rfl, rfl, rfl⟩
  lastSent := fun _ _ => SameSession.kept ⟨rfl, rfl, rfl⟩
  pingOutstanding := fun _ _ => SameSession.kept ⟨rfl, rfl, rfl⟩
  closeSession := mqttCloseSession_kept

theorem getNextPacketId_kept : Moves (Kept own) (getNextPacketId : Prog (Client ω τ H) UInt16) :=
  fun _ => SameSession.kept ⟨rfl, rfl, rfl⟩

theorem request_kept {α : Type} {f : List UInt8 → Option (ℤ × List UInt8)} {timer : τ} {short : α}
    {refused : ℤ → α} {next : Prog (Client ω τ H) α} (hnext : Moves (Kept own) next) :
    Moves (Kept own) (do
      let len ← serialize f
      if len ≤ 0 then pure short
      else
        let rc ← sendPacket p fuel len.toNat timer
        if rc ≠ success then pure (refused rc) else next) := by
  refine .bind (serialize_moves (kept_upkeep own p).buf f) fun len => ?_
  exact transmit_moves (kept_upkeep own p) hnext

theorem mqttSetMessageHandler_kept (topicFilter : CString) (messageHandler : Option H) :
    Moves (Kept (some topicFilter))
      (mqttSetMessageHandler topicFilter messageHandler : Prog (Client ω τ H) ℤ) :=
  fun _ hclean => ⟨hclean, setMessageHandler_untouched _ topicFilter messageHandler⟩

theorem mqttPublish_kept (topicName : CString) (message : MQTTMessage) :
    Moves (Kept own) (mqttPublish p fuel topicName message) := by
  have upkeep := kept_upkeep (τ := τ) own p
  have hnumber : Moves (Kept own) (numberMessage message : Prog (Client ω τ H) MQTTMessage) :=
    .ite (.bind getNextPacketId_kept fun id => .pure _) (.pure message)
  have hexchange : Moves (Kept own) (publishExchange p fuel topicName message) := by
    refine .bind getClient_moves fun c => .ite ?_ (.pure _)
    refine .bind (newTimer_moves upkeep.toDiscreet _) fun timer => ?_
    refine .bind hnumber fun message' => ?_
    refine request_kept ?_
    exact .bind (awaitPublished_moves upkeep message'.qos timer) fun rc => .pure _
  refine .bind hexchange fun result => ?_
  exact .bind (closeOnFailure_moves mqttCloseSession_kept result.1) fun _ => .pure result

/-- A connect that does not ask for a clean session makes the session a persistent one. -/
theorem mqttConnect_kept {options : ConnectData} (hoptions : options.cleansession = 0) :
    Moves (Kept own) (mqttConnect p fuel (some options)) := by
  apply mqttConnect_moves (kept_upkeep own p)
  · intro s keepAliveInterval _
    refine ⟨?_, .refl own _⟩
    simp [hoptions]
  · exact fun s hclean => ⟨hclean, .refl own _⟩

theorem mqttSubscribe_kept (topicFilter : CString) (qos : ℕ) (messageHandler : Option H) :
    Moves (Kept (some topicFilter)) (mqttSubscribe p fuel topicFilter qos messageHandler) := by
  have upkeep := kept_upkeep (τ := τ) (some topicFilter) p
  have hset := mqttSetMessageHandler_kept (ω := ω) (τ := τ) topicFilter messageHandler
  refine .bind (.bind ?_ fun result =>
    .bind (closeOnFailure_moves mqttCloseSession_kept result.1) fun _ => .pure _) fun _ => .pure _
  refine .bind getClient_moves fun c => .ite ?_ (.pure _)
  refine .bind (newTimer_moves upkeep.toDiscreet c.commandTimeoutMs) fun timer => ?_
  exact .bind getNextPacketId_kept fun id => request_kept (awaitSuback_moves upkeep hset timer 0)

theorem mqttUnsubscribe_kept (topicFilter : CString) :
    Moves (Kept (some topicFilter)) (mqttUnsubscribe p fuel topicFilter) := by
  have upkeep := kept_upkeep (τ := τ) (some topicFilter) p
  have hset := mqttSetMessageHandler_kept (H := H) (ω := ω) (τ := τ) topicFilter none
  refine .bind ?_ fun rc => .bind (closeOnFailure_moves mqttCloseSession_kept rc) fun _ => .pure _
  refine .bind getClient_moves fun c => .ite ?_ (.pure _)
  refine .bind (newTimer_moves upkeep.toDiscreet c.commandTimeoutMs) fun timer => ?_
  exact .bind getNextPacketId_kept fun id => request_kept (awaitUnsuback_moves upkeep hset timer)

namespace Call

/-- Not a connect, or one that does not ask for a clean session. -/
def Persistent : Call H → Prop
  | connect options => ∃ given ∈ options, given.cleansession = 0
  | publish .. | subscribe .. | unsubscribe _ | yield _ | disconnect | setMessageHandler .. => True

/-- The filter of the calls that may change the table. -/
def ownFilter : Call H → Option CString
  | subscribe topicFilter _ _ | unsubscribe topicFilter | setMessageHandler topicFilter _ =>
    some topicFilter
  | connect _ | publish .. | yield _ | disconnect => none

end Call

theorem perform_kept {call : Call H} (hcall : call.Persistent) :
    Moves (Kept call.ownFilter) (perform p fuel call) := by
  cases call with
  | connect options =>
    obtain ⟨given, rfl, hgiven⟩ := hcall
    exact .bind (mqttConnect_kept hgiven) fun _ => .pure _
  | publish topicName message => exact .bind (mqttPublish_kept topicName message) fun _ => .pure _
  | subscribe topicFilter qos messageHandler =>
    exact .bind (mqttSubscribe_kept topicFilter qos messageHandler) fun _ => .pure _
  | unsubscribe topicFilter => exact .bind (mqttUnsubscribe_kept topicFilter) fun _ => .pure _
  | yield timeoutMs => exact .bind (mqttYield_moves (kept_upkeep _ p) timeoutMs) fun _ => .pure _
  | disconnect => exact .bind (mqttDisconnect_moves (kept_upkeep _ p)) fun _ => .pure _
  | setMessageHandler topicFilter messageHandler =>
    exact .bind (mqttSetMessageHandler_kept topicFilter messageHandler) fun _ => .pure _

/-- The calls have been made one after the other; what goes on in the world between two of
them is not the client's. -/
inductive Called (p : Platform ω τ H) (fuel : ℕ) (s : Client ω τ H) :
    List (Call H) → Client ω τ H → Prop
  | start : Called p fuel s [] s
  | call {calls : List (Call H)} {t u : Client ω τ H} {call : Call H} {reply : Reply} (world : ω) :
      Called p fuel s calls t → perform p fuel call { t with world := world } = .ok reply u →
      Called p fuel s (calls ++ [call]) u

theorem Called.persistent {calls : List (Call H)} (h : Called p fuel s calls t)
    (hs : s.client.cleansession = false) (hcalls : ∀ call ∈ calls, call.Persistent) :
    t.client.cleansession = false := by
  induction h with
  | start => exact hs
  | @call calls t u call reply world _ hrun ih =>
    obtain ⟨hearlier, hlast⟩ := List.forall_mem_append.mp hcalls
    have hkept := (wp_ok hrun).mp
      (perform_kept (hlast call (List.mem_singleton_self call)) { t with world := world })
    exact (hkept (ih hearlier)).1

/-- In a session that has been persistent from the start a call ends, whatever happens,
with no slot changed but such as may hold its own filter. -/
theorem called_untouched (p : Platform ω τ H) (fuel commandTimeoutMs : ℕ) (old : MQTTClient τ H)
    (sendbuf readbuf : List UInt8) (world : ω) {calls : List (Call H)} {call : Call H}
    (hrun : Called p fuel (mqttClientInit p old commandTimeoutMs sendbuf readbuf world) calls s)
    (hcalls : ∀ call' ∈ calls ++ [call], call'.Persistent) {result : Option Reply} (later : ω)
    (hends : Hoare.Ends (perform p fuel call) { s with world := later } result t) :
    Untouched call.ownFilter s.client.messageHandlers t.client.messageHandlers := by
  obtain ⟨hearlier, hlast⟩ := List.forall_mem_append.mp hcalls
  have hclean := hrun.persistent rfl hearlier
  have hkept := hends.post (Q := fun _ t => Kept call.ownFilter { s with world := later } t)
    (perform_kept (hlast call (List.mem_singleton_self call)) { s with world := later })
  exact (hkept hclean).2

/-- The bytes of "b". -/
def filterB : CString := ⟨[98], by decide⟩

/-- A connection for which the server is to keep the session. -/
def persistentOptions : ConnectData :=
  { connectDataInitializer with keepAliveInterval := 0, cleansession := 0 }

/-- A handler is set, the server refuses the connection, and the handler stays. -/
theorem called_untouched_refused : ∃ s t reply,
    Called inboxPlatform 8 (mqttClientInit inboxPlatform (inboxClient false []).client 1000
      (List.replicate 24 0) (List.replicate 16 0) []) [.setMessageHandler filterB (some ())] s ∧
    perform inboxPlatform 8 (.connect (some persistentOptions))
      { s with world := [0x20, 2, 0, 5] } = .ok reply t ∧
    reply.rc = 5 ∧ t.client.isconnected = false ∧
    s.client.messageHandlers.map (·.topicFilter) = [some filterB] ∧
    t.client.messageHandlers = s.client.messageHandlers := by
  obtain ⟨reply, s, hset, reply', t, hconnect, hrc, hclosed, hslots⟩ : ∃ reply s,
      perform inboxPlatform 8 (.setMessageHandler filterB (some ())) (mqttClientInit inboxPlatform
        (inboxClient false []).client 1000 (List.replicate 24 0) (List.replicate 16 0) []) =
          .ok reply s ∧ ∃ reply' t,
      perform inboxPlatform 8 (.connect (some persistentOptions))
        { s with world := [0x20, 2, 0, 5] } = .ok reply' t ∧
      reply'.rc = 5 ∧ t.client.isconnected = false ∧
      s.client.messageHandlers.map (·.topicFilter) = [some filterB] := by
    decide +kernel
  have hrun : Called inboxPlatform 8 (mqttClientInit inboxPlatform (inboxClient false []).client
      1000 (List.replicate 24 0) (List.replicate 16 0) [])
      ([] ++ [.setMessageHandler filterB (some ())]) s :=
    .call [] .start hset
  have hcalls : ∀ call ∈ [Call.setMessageHandler filterB (some ())] ++
      [.connect (some persistentOptions)], call.Persistent := by
    intro call hmem
    simp only [List.cons_append, List.nil_append, List.mem_cons, List.not_mem_nil, or_false] at hmem
    rcases hmem with rfl | rfl
    · trivial
    · exact ⟨persistentOptions, rfl, rfl⟩
  have hkept : Untouched (Call.connect (some persistentOptions) : Call Unit).ownFilter
      s.client.messageHandlers t.client.messageHandlers :=
    called_untouched inboxPlatform 8 1000 (inboxClient false []).client (List.replicate 24 0)
      (List.replicate 16 0) [] hrun hcalls [0x20, 2, 0, 5] (.value hconnect)
  exact ⟨s, t, reply', hrun, hconnect, hrc, hclosed, hslots, hkept⟩

end MqttEmbedded.ClientC
