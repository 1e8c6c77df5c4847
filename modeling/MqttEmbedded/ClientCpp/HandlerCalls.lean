import MqttEmbedded.ClientCpp.IncomingMessages

/-!
# The history and the calls of the handlers

The history has an entry for every message that is handed to `deliverMessage`, and none of the
functions of the client reads it. In every run the calls of the handlers come in blocks: one
for each of these entries, and all the calls of a block are for its message.
-/

namespace MqttEmbedded.ClientCpp

open Hoare

variable {ω τ H : Type} {p : Platform ω τ H} {calls : ω → List (H × MessageData)} {fuel : ℕ}
  {s t u : Client ω τ H} {history later : List Occurrence}

/-- The world has a list of the calls of the handlers, in their order. -/
structure Records (p : Platform ω τ H) (calls : ω → List (H × MessageData)) : Prop where
  mqttread : ∀ len timeout w, calls (p.mqttread len timeout w).2 = calls w
  mqttwrite : ∀ buffer len timeout w, calls (p.mqttwrite buffer len timeout w).2 = calls w
  timerInit : ∀ w, calls (p.timerInit w).2 = calls w
  timerIsExpired : ∀ timer w, calls (p.timerIsExpired timer w).2 = calls w
  timerCountdownMS : ∀ timer ms w, calls (p.timerCountdownMS timer ms w).2 = calls w
  timerCountdown : ∀ timer seconds w, calls (p.timerCountdown timer seconds w).2 = calls w
  timerLeftMS : ∀ timer w, calls (p.timerLeftMS timer w).2 = calls w
  invoke : ∀ fp md w, calls (p.invoke fp md w) = calls w ++ [(fp, md)]

/-- Any platform, with a list of the calls of the handlers. -/
def recording (p : Platform ω τ H) : Platform (ω × List (H × MessageData)) τ H where
  mqttread := fun len timeout w =>
    ((p.mqttread len timeout w.1).1, (p.mqttread len timeout w.1).2, w.2)
  mqttwrite := fun buffer len timeout w =>
    ((p.mqttwrite buffer len timeout w.1).1, (p.mqttwrite buffer len timeout w.1).2, w.2)
  timerInit := fun w => ((p.timerInit w.1).1, (p.timerInit w.1).2, w.2)
  timerIsExpired := fun timer w =>
    ((p.timerIsExpired timer w.1).1, (p.timerIsExpired timer w.1).2, w.2)
  timerCountdownMS := fun timer ms w =>
    ((p.timerCountdownMS timer ms w.1).1, (p.timerCountdownMS timer ms w.1).2, w.2)
  timerCountdown := fun timer seconds w =>
    ((p.timerCountdown timer seconds w.1).1, (p.timerCountdown timer seconds w.1).2, w.2)
  timerLeftMS := fun timer w => ((p.timerLeftMS timer w.1).1, (p.timerLeftMS timer w.1).2, w.2)
  invoke := fun fp md w => (p.invoke fp md w.1, w.2 ++ [(fp, md)])

theorem recording_records (p : Platform ω τ H) : Records (recording p) Prod.snd where
  mqttread := fun _ _ _ => rfl
  mqttwrite := fun _ _ _ _ => rfl
  timerInit := fun _ => rfl
  timerIsExpired := fun _ _ => rfl
  timerCountdownMS := fun _ _ _ => rfl
  timerCountdown := fun _ _ _ => rfl
  timerLeftMS := fun _ _ => rfl
  invoke := fun _ _ _ => rfl

/-- A message is handed to `deliverMessage`. -/
def Occurrence.Delivers : Occurrence → Prop
  | .delivered .. => True
  | _ => False

/-- One block of calls for each message that has been delivered, the latest at the end. -/
inductive Blocks : List Occurrence → List (H × MessageData) → Prop
  | nil : Blocks [] []
  | delivered {history : List Occurrence} {told : List (H × MessageData)} (md : MessageData)
      (fps : List H) : Blocks history told →
      Blocks (.delivered md.message.qos md.message.id :: history)
        (told ++ fps.map fun fp => (fp, md))
  | other {o : Occurrence} {history : List Occurrence} {told : List (H × MessageData)} :
      ¬ o.Delivers → Blocks history told → Blocks (o :: history) told

namespace Blocks

variable {told new : List (H × MessageData)}

theorem append (h : Blocks history told) (h' : Blocks later new) :
    Blocks (later ++ history) (told ++ new) := by
  induction h' with
  | nil => simpa using h
  | delivered md fps _ ih =>
    rw [← List.append_assoc]
    exact ih.delivered md fps
  | other hother _ ih => exact ih.other hother

theorem others (h : ∀ o ∈ later, ¬ o.Delivers) : Blocks later ([] : List (H × MessageData)) := by
  induction later with
  | nil => exact .nil
  | cons o later ih =>
    have hlater : ∀ o' ∈ later, ¬ o'.Delivers := fun o' ho' => h o' (List.mem_cons_of_mem _ ho')
    exact .other (h o List.mem_cons_self) (ih hlater)

theorem mem (h : Blocks history told) {call : H × MessageData} (hcall : call ∈ told) :
    .delivered call.2.message.qos call.2.message.id ∈ history := by
  induction h with
  | nil => exact absurd hcall List.not_mem_nil
  | delivered md fps _ ih =>
    rcases List.mem_append.mp hcall with hcall | hcall
    · exact List.mem_cons_of_mem _ (ih hcall)
    · obtain ⟨fp, -, rfl⟩ := List.mem_map.mp hcall
      exact List.mem_cons_self
  | other _ _ ih => exact List.mem_cons_of_mem _ (ih hcall)

end Blocks

/-- The history and the calls of the handlers have gone on together. -/
def Told (calls : ω → List (H × MessageData)) (s t : Client ω τ H) : Prop :=
  ∃ later new, t.own.history = later ++ s.own.history ∧
    calls t.world = calls s.world ++ new ∧ Blocks later new

namespace Told

theorem still (hhistory : t.own.history = s.own.history) (hcalls : calls t.world = calls s.world) :
    Told calls s t :=
  ⟨[], [], hhistory, by rw [hcalls, List.append_nil], .nil⟩

theorem others (hhistory : t.own.history = later ++ s.own.history)
    (hcalls : calls t.world = calls s.world) (h : ∀ o ∈ later, ¬ o.Delivers) : Told calls s t :=
  ⟨later, [], hhistory, by rw [hcalls, List.append_nil], .others h⟩

theorem note {o : Occurrence} (hhistory : t.own.history = o :: s.own.history)
    (hcalls : calls t.world = calls s.world) (h : ¬ o.Delivers) : Told calls s t := by
  have hone : t.own.history = [o] ++ s.own.history := hhistory
  exact others hone hcalls (by simpa using h)

theorem trans (h : Told calls s t) (h' : Told calls t u) : Told calls s u := by
  obtain ⟨later, new, hhistory, hcalls, hblocks⟩ := h
  obtain ⟨later', new', hhistory', hcalls', hblocks'⟩ := h'
  refine ⟨later' ++ later, new ++ new', ?_, ?_, hblocks.append hblocks'⟩
  · rw [hhistory', hhistory, List.append_assoc]
  · rw [hcalls', hcalls, List.append_assoc]

instance : Std.Refl (Told calls : Client ω τ H → _ → Prop) := ⟨fun _ => still rfl rfl⟩

instance : IsTrans (Client ω τ H) (Told calls) := ⟨fun _ _ _ => trans⟩

end Told

theorem note_told {o : Occurrence} (h : ¬ o.Delivers) :
    Moves (Told calls) (note o : Prog (Client ω τ H) PUnit) :=
  fun _ => .note rfl rfl h

theorem modifyClient_told (f : MQTTClient τ H → MQTTClient τ H) :
    Moves (Told calls) (modifyClient f : Prog (Client ω τ H) PUnit) :=
  fun _ => .still rfl rfl

theorem modifyOwn_told {f : Extras τ → Extras τ} (h : ∀ own, (f own).history = own.history) :
    Moves (Told calls) (modifyOwn f : Prog (Client ω τ H) PUnit) :=
  fun s => .still (h s.own) rfl

theorem invokeAll_calls (records : Records p calls) (md : MessageData) (fps : List H) (w : ω) :
    calls (invokeAll p md fps w) = calls w ++ fps.map fun fp => (fp, md) := by
  induction fps generalizing w with
  | nil => simp [invokeAll]
  | cons fp fps ih =>
    have hrest := ih (p.invoke fp md w)
    rw [records.invoke, List.append_assoc] at hrest
    exact hrest

/-- What `deliver` does: nothing that is seen, or the message gets its entry and goes to the
handlers that take its topic. -/
theorem deliver_called (p : Platform ω τ H) (topicName : MQTTString) (msg : MQTTMessage)
    (s : Client ω τ H) :
    wp (deliver p topicName msg) (fun _ t => t = s ∨
      t.own.history = .delivered msg.qos msg.id :: s.own.history ∧
        t.world = invokeAll p ⟨msg, topicName⟩ (called topicName s.client) s.world)
      (fun _ t => t = s) s := by
  unfold deliver
  rw [wp_ite]
  constructor
  · intro _
    rw [wp_bind, wp_note, wp_bind]
    refine (wp_ok (deliverMessage_called topicName msg (noted s _))).mpr ?_
    exact .inr ⟨rfl, rfl⟩
  · intro _
    rw [wp_bind]
    refine wp_ofOption_iff.mpr ⟨fun id _ => ?_, fun _ => rfl⟩
    rw [wp_bind, wp_getOwn, wp_ite]
    refine ⟨fun _ => ?_, fun _ => .inl rfl⟩
    cases useQoS2msgid s.own.incomingQoS2messages id with
    | none => exact .inl rfl
    | some slots =>
      rw [wp_bind, wp_modifyOwn, wp_bind, wp_note, wp_bind]
      refine (wp_ok (deliverMessage_called topicName msg (noted _ _))).mpr ?_
      exact .inr ⟨rfl, rfl⟩

section Calls

variable (records : Records p calls)
include records

theorem deliver_told (topicName : MQTTString) (msg : MQTTMessage) :
    Moves (Told calls) (deliver p topicName msg : Prog (Client ω τ H) PUnit) := by
  intro s
  apply wp_mono (deliver_called p topicName msg s)
  · rintro _ t (rfl | ⟨hhistory, hworld⟩)
    · exact .still rfl rfl
    · refine ⟨[.delivered msg.qos msg.id], _, hhistory, ?_,
        Blocks.nil.delivered ⟨msg, topicName⟩ (called topicName s.client)⟩
      rw [hworld, invokeAll_calls records, List.nil_append]
  · rintro _ t rfl
    exact .still rfl rfl

theorem deliverUnread_told (topic : StringRead) (msg : MQTTMessage) :
    Moves (Told calls) (deliverUnread p topic msg : Prog (Client ω τ H) PUnit) := by
  refine .bind getClient_moves fun c => .ite (.throw _) ?_
  exact deliver_told records (topic.stored mqttStringInitializer) msg

theorem Records.discreet : p.Discreet (Told calls : Client ω τ H → _ → Prop) where
  mqttwrite := fun buffer len timeout s => .still rfl (records.mqttwrite buffer len timeout s.world)
  timerInit := fun s => .still rfl (records.timerInit s.world)
  timerIsExpired := fun timer s => .still rfl (records.timerIsExpired timer s.world)
  timerCountdownMS := fun timer ms s => .still rfl (records.timerCountdownMS timer ms s.world)
  timerCountdown := fun timer seconds s => .still rfl (records.timerCountdown timer seconds s.world)
  timerLeftMS := fun timer s => .still rfl (records.timerLeftMS timer s.world)

theorem Records.inward : p.Inward (Told calls : Client ω τ H → _ → Prop) where
  mqttread := fun len timeout s => .still rfl (records.mqttread len timeout s.world)
  timerLeftMS := fun timer s => .still rfl (records.timerLeftMS timer s.world)
  timerCountdown := fun timer seconds s => .still rfl (records.timerCountdown timer seconds s.world)
  readbuf := fun _ _ => .still rfl rfl
  lastReceived := fun _ _ => .still rfl rfl

theorem newTimer_told (ms : ℕ) :
    Moves (Told calls) (newTimer p ms : Prog (Client ω τ H) τ) :=
  newTimer_moves records.discreet ms

omit records in
theorem serialize_told (f : List UInt8 → Option (ℤ × List UInt8)) :
    Moves (Told calls) (serialize f : Prog (Client ω τ H) ℤ) :=
  serialize_moves (fun _ _ => .still rfl rfl) f

theorem sendPacket_told (length : ℕ) (timer : τ) :
    Moves (Told calls) (sendPacket p fuel length timer : Prog (Client ω τ H) ℤ) := by
  have hlastSent (s : Client ω τ H) (lastSent : τ) :
      Told calls s { s with client := { s.client with lastSent := lastSent } } := .still rfl rfl
  refine .bind getClient_moves fun c => ?_
  refine .bind (transmit_moves records.discreet hlastSent length timer) fun rc => ?_
  exact .bind (note_told not_false) fun _ => .pure rc

theorem readPacket_told (timer : τ) :
    Moves (Told calls) (readPacket p timer : Prog (Client ω τ H) ℤ) := by
  refine .bind (readPacketWith_moves records.inward tooLong 1 timer) fun packetType => ?_
  exact .bind getClient_moves fun c => .bind (note_told not_false) fun _ => .pure packetType

theorem sendPing_told : Moves (Told calls) (sendPing p fuel : Prog (Client ω τ H) ℤ) := by
  refine .bind (newTimer_told records 1000) fun timer => .bind (serialize_told _) fun len => ?_
  refine .ite (.pure success) (.bind (sendPacket_told records len.toNat timer) fun rc => ?_)
  refine .ite (.bind (modifyClient_told _) fun _ => ?_) (.pure rc)
  refine .bind getClient_moves fun c => .bind getOwn_moves fun own => ?_
  refine .bind (records.discreet.timerCountdown own.pingSent c.keepAliveInterval) fun pingSent => ?_
  exact .bind (modifyOwn_told fun _ => rfl) fun _ => .pure success

theorem keepalive_told : Moves (Told calls) (keepalive p fuel : Prog (Client ω τ H) ℤ) := by
  have hcheck : Moves (Told calls) (checkPing p fuel : Prog (Client ω τ H) ℤ) := by
    refine .bind getClient_moves fun c => .ite (.bind getOwn_moves fun own => ?_) ?_
    · exact .bind (records.discreet.timerIsExpired own.pingSent) fun expired => .pure _
    · refine .bind (keepaliveDue_moves records.discreet) fun due => ?_
      exact .ite (sendPing_told records) (.pure success)
  have hping : Moves (Told calls) (pingIfDue p fuel : Prog (Client ω τ H) ℤ) :=
    .bind getClient_moves fun c => .ite (.pure success) hcheck
  refine .bind getClient_moves fun before => .bind hping fun rc => ?_
  exact .bind getClient_moves fun after => .bind (note_told not_false) fun _ => .pure rc

omit records in
theorem closeSession_told : Moves (Told calls) (closeSession : Prog (Client ω τ H) PUnit) := by
  have hclean : Moves (Told calls) (cleanSession : Prog (Client ω τ H) PUnit) := by
    refine .bind (modifyClient_told _) fun _ s => ?_
    refine .others rfl rfl fun o ho => ?_
    obtain ⟨id, -, rfl⟩ := List.mem_map.mp ho
    exact not_false
  refine .bind (modifyClient_told _) fun _ => .bind getClient_moves fun c => ?_
  exact .ite hclean (.pure _)

omit records in
theorem answered_told (packetType : MsgType) (id : UInt16) :
    Moves (Told calls) (answered packetType id : Prog (Client ω τ H) PUnit) := by
  refine .ite (fun s => ?_) (.pure _)
  by_cases hheld : id ∈ held s.own.incomingQoS2messages
  · exact .note (if_pos hheld) rfl not_false
  · exact .still (if_neg hheld) rfl

theorem variant_told : (variant p fuel).Stays (Told calls : Client ω τ H → _ → Prop) where
  buf := fun _ _ => .still rfl rfl
  pingresp := fun _ => .still rfl rfl
  sendPacket := sendPacket_told records
  deliver := deliver_told records
  deliverUnread := deliverUnread_told records
  answered := answered_told
  keepalive := keepalive_told records
  closeSession := closeSession_told

theorem cycle_told (timer : τ) : Moves (Told calls) (cycle p fuel timer : Prog (Client ω τ H) ℤ) :=
  .bind (readPacket_told records timer) fun packetType =>
    (variant_told records).afterRead packetType timer

theorem waitfor_told (packetType : MsgType) (timer : τ) :
    Moves (Told calls) (waitfor p fuel packetType timer : Prog (Client ω τ H) ℤ) :=
  Variant.waitforLoop_moves (records.discreet.timerIsExpired timer) (cycle_told records timer)
    packetType fuel failure

theorem yield_told (timeoutMs : ℕ) :
    Moves (Told calls) (yield p fuel timeoutMs : Prog (Client ω τ H) ℤ) := by
  have hloop (timer : τ) (rounds : ℕ) :
      Moves (Told calls) (yieldLoop p fuel timer rounds : Prog (Client ω τ H) ℤ) := by
    induction rounds with
    | zero => exact .throw _
    | succ rounds ih =>
      refine .bind (records.discreet.timerIsExpired timer) fun expired => .ite (.pure success) ?_
      exact .bind (cycle_told records timer) fun rc => .ite (.pure failure) ih
  exact .bind (newTimer_told records timeoutMs) fun timer => hloop timer fuel

omit records in
theorem closeUnlessSuccess_told (rc : ℤ) :
    Moves (Told calls) (closeUnlessSuccess rc : Prog (Client ω τ H) PUnit) :=
  .ite closeSession_told (.pure _)

omit records in
theorem closeOnFailure_told (rc : ℤ) :
    Moves (Told calls) (closeOnFailure rc : Prog (Client ω τ H) PUnit) :=
  .ite closeSession_told (.pure _)

omit records in
theorem getNext_told : Moves (Told calls) (getNext : Prog (Client ω τ H) UInt16) :=
  .bind getClient_moves fun _ => .bind (modifyClient_told _) fun _ => .pure _

omit records in
theorem setHandler_told (topicFilter : CString) (messageHandler : Option H) :
    Moves (Told calls) (setHandler topicFilter messageHandler : Prog (Client ω τ H) ℤ) :=
  .bind getClient_moves fun _ => .bind (modifyClient_told _) fun _ => .pure _

theorem await_told (packetType : MsgType) (timer : τ)
    {got : MQTTClient τ H → Prog (Client ω τ H) ℤ} (hgot : ∀ c, Moves (Told calls) (got c)) :
    Moves (Told calls) (do
      let rc ← waitfor p fuel packetType timer
      if rc = packetType.code then do
        let c ← getClient
        got c
      else pure failure) := by
  refine .bind (waitfor_told records packetType timer) fun rc => ?_
  exact .ite (.bind getClient_moves hgot) (.pure failure)

theorem request_told (f : UInt16 → List UInt8 → Option (ℤ × List UInt8))
    {next : τ → Prog (Client ω τ H) ℤ} (hnext : ∀ timer, Moves (Told calls) (next timer)) :
    Moves (Told calls) (do
      let c ← getClient
      let timer ← newTimer p c.commandTimeoutMs
      if c.isconnected then
        let id ← getNext
        let len ← serialize (f id)
        if len ≤ 0 then pure failure
        else
          let rc ← sendPacket p fuel len.toNat timer
          if rc ≠ success then pure rc else next timer
      else pure failure) := by
  refine .bind getClient_moves fun c => .bind (newTimer_told records _) fun timer => ?_
  refine .ite (.bind getNext_told fun id => ?_) (.pure failure)
  refine .bind (serialize_told (f id)) fun len => .ite (.pure failure) ?_
  refine .bind (sendPacket_told records len.toNat timer) fun rc => ?_
  exact .ite (.pure rc) (hnext timer)

theorem subscribe_told (topicFilter : CString) (qos : ℕ) (messageHandler : Option H) :
    Moves (Told calls) (subscribe p fuel topicFilter qos messageHandler) := by
  have hsuback (timer : τ) :
      Moves (Told calls) (awaitSuback p fuel topicFilter messageHandler timer) := by
    refine await_told records .suback timer fun c => .bind (ofOption_moves _) fun result => ?_
    exact .ite (setHandler_told topicFilter messageHandler) (.pure success)
  refine .bind (request_told records _ hsuback) fun rc => ?_
  exact .bind (closeOnFailure_told rc) fun _ => .pure rc

theorem unsubscribe_told (topicFilter : CString) :
    Moves (Told calls) (unsubscribe p fuel topicFilter : Prog (Client ω τ H) ℤ) := by
  have hunsuback (timer : τ) :
      Moves (Told calls) (awaitUnsuback p fuel topicFilter timer : Prog (Client ω τ H) ℤ) := by
    refine await_told records .unsuback timer fun c => .bind (ofOption_moves _) fun result => ?_
    refine .ite (.bind (setHandler_told topicFilter none) fun _ => ?_) (.pure success)
    exact .pure success
  refine .bind (request_told records _ hunsuback) fun rc => ?_
  exact .bind (closeUnlessSuccess_told rc) fun _ => .pure rc

theorem disconnect_told : Moves (Told calls) (disconnect p fuel : Prog (Client ω τ H) ℤ) := by
  refine .bind getClient_moves fun c => .bind (newTimer_told records _) fun timer => ?_
  have hsend : Moves (Told calls) (sendDisconnect p fuel timer : Prog (Client ω τ H) ℤ) := by
    refine .bind (serialize_told _) fun len => ?_
    exact .ite (sendPacket_told records len.toNat timer) (.pure failure)
  exact .bind hsend fun rc => .bind closeSession_told fun _ => .pure rc

omit records in
theorem takeAck_told : Moves (Told calls) (takeAck : Prog (Client ω τ H) ℤ) := by
  refine .bind getClient_moves fun c => .bind (ofOption_moves _) fun result => ?_
  refine .ite (.pure failure) (.bind (ofOption_moves _) fun mypacketid => ?_)
  have hclear : Moves (Told calls)
      (clearInflight (UInt16.ofNat mypacketid) : Prog (Client ω τ H) PUnit) := by
    refine modifyOwn_told fun own => ?_
    split_ifs
    · rfl
    · rfl
  exact .bind hclear fun _ => .pure success

theorem awaitAck_told (packetType : MsgType) (timer : τ) :
    Moves (Told calls) (awaitAck p fuel packetType timer : Prog (Client ω τ H) ℤ) := by
  refine .bind (note_told not_false) fun _ => ?_
  refine .bind (waitfor_told records packetType timer) fun rc => ?_
  exact .bind (note_told not_false) fun _ => .ite takeAck_told (.pure failure)

theorem publishPacket_told (len : ℕ) (timer : τ) (qos : ℕ) :
    Moves (Told calls) (publishPacket p fuel len timer qos : Prog (Client ω τ H) ℤ) := by
  have hawait : Moves (Told calls) (awaitPublished p fuel qos timer : Prog (Client ω τ H) ℤ) := by
    refine .ite (awaitAck_told records .puback timer) ?_
    exact .ite (awaitAck_told records .pubcomp timer) (.pure success)
  refine .bind (sendPacket_told records len timer) fun rc => .ite ?_ ?_
  · exact .bind closeSession_told fun _ => .pure rc
  · exact .bind hawait fun rc => .bind (closeUnlessSuccess_told rc) fun _ => .pure rc

omit records in
theorem storePublish_told (len : ℕ) (id : UInt16) (qos : ℕ) :
    Moves (Told calls) (storePublish len id qos : Prog (Client ω τ H) PUnit) := by
  refine .bind getClient_moves fun c => .bind (note_told not_false) fun _ => ?_
  exact .ite (.pure _) (modifyOwn_told fun _ => rfl)

theorem publish_told (topicName : CString) (payload : List UInt8) (payloadlen : ℕ) (id : UInt16)
    (qos : ℕ) (retained : Bool) :
    Moves (Told calls) (publish p fuel topicName payload payloadlen id qos retained :
      Prog (Client ω τ H) (ℤ × UInt16)) := by
  refine .bind getClient_moves fun c => .bind (newTimer_told records _) fun timer => ?_
  refine .ite (.bind (.ite getNext_told (.pure id)) fun id => ?_) (.pure _)
  refine .bind (serialize_told _) fun len => .ite (.pure _) ?_
  refine .bind (storePublish_told len.toNat id qos) fun _ => ?_
  exact .bind (publishPacket_told records len.toNat timer qos) fun rc => .pure (rc, id)

theorem resume_told (timer : τ) (rc : ℤ) :
    Moves (Told calls) (resume p fuel timer rc : Prog (Client ω τ H) ℤ) := by
  have hresend (len qos : ℕ) :
      Moves (Told calls) (resend p fuel len timer qos : Prog (Client ω τ H) ℤ) := by
    refine .bind getClient_moves fun c => .bind (note_told not_false) fun _ => ?_
    exact publishPacket_told records len timer qos
  refine .bind (note_told not_false) fun _ => .bind getOwn_moves fun own => ?_
  refine .ite (.bind (serialize_told _) fun len => ?_) (.ite ?_ (.pure rc))
  · exact .ite (.pure failure) (hresend len.toNat own.inflightQoS)
  · exact .bind (modifyClient_told _) fun _ => hresend own.inflightLen own.inflightQoS

theorem connect_told (options : ConnectData) :
    Moves (Told calls) (connect p fuel options : Prog (Client ω τ H) ℤ) := by
  have hconnack (timer : τ) :
      Moves (Told calls) (awaitConnack p fuel timer : Prog (Client ω τ H) ℤ) := by
    refine await_told records .connack timer fun c => ?_
    exact .bind (ofOption_moves _) fun result => .pure _
  have hexchange : Moves (Told calls) (connectExchange p fuel options : Prog (Client ω τ H) ℤ) := by
    refine .bind getClient_moves fun c => .bind (newTimer_told records _) fun timer => ?_
    refine .ite (.pure failure) (.bind (modifyClient_told _) fun _ => ?_)
    refine .bind (serialize_told _) fun len => .ite (.pure failure) ?_
    refine .bind (sendPacket_told records len.toNat timer) fun rc => .ite (.pure rc) ?_
    refine .bind (recordReceived_moves records.inward) fun _ => ?_
    exact .bind (hconnack timer) fun rc => resume_told records timer rc
  refine .bind hexchange fun rc => .ite ?_ (.pure rc)
  exact .bind (modifyClient_told _) fun _ => .pure rc

theorem perform_told (call : Call H) :
    Moves (Told calls) (perform p fuel call : Prog (Client ω τ H) ℤ) := by
  cases call with
  | connect options => exact connect_told records _
  | publish topicName payload payloadlen id qos retained =>
    exact .bind (publish_told records topicName payload payloadlen id qos retained) fun _ => .pure _
  | publishWithoutId topicName payload payloadlen qos retained =>
    exact .bind (publish_told records topicName payload payloadlen 0 qos retained) fun _ => .pure _
  | publishMessage topicName message =>
    exact .bind (publish_told records topicName _ _ 0 _ _) fun _ => .pure _
  | subscribe topicFilter qos messageHandler =>
    exact subscribe_told records topicFilter qos messageHandler
  | unsubscribe topicFilter => exact unsubscribe_told records topicFilter
  | yield timeoutMs => exact yield_told records timeoutMs
  | disconnect => exact disconnect_told records
  | setMessageHandler topicFilter messageHandler =>
    exact setHandler_told topicFilter messageHandler
  | setDefaultMessageHandler messageHandler =>
    exact .bind (modifyClient_told _) fun _ => .pure success

/-- In every run the handlers are called in one block for each message that the history says has
been delivered, with that message. -/
theorem runCalls_told (fuel : ℕ) (old : Client ω τ H) (commandTimeoutMs : ℕ)
    (cs : List (Call H)) :
    wp (runCalls p fuel cs)
      (fun _ t => AtMostOnce t ∧ ∃ new, calls t.world = calls old.world ++ new ∧
        Blocks t.own.history new)
      (fun _ t => AtMostOnce t ∧ ∃ new, calls t.world = calls old.world ++ new ∧
        Blocks t.own.history new) (construct old commandTimeoutMs) := by
  have hruns (cs : List (Call H)) :
      Moves (Told calls) (runCalls p fuel cs : Prog (Client ω τ H) (List (Entry ω τ H))) := by
    induction cs with
    | nil => exact .pure _
    | cons call cs ih =>
      refine .bind .get fun before => .bind (perform_told records call) fun rc => ?_
      exact .bind .get fun after => .bind ih fun later => .pure _
  have htold (t : Client ω τ H) (h : Told calls (construct old commandTimeoutMs) t) :
      ∃ new, calls t.world = calls old.world ++ new ∧ Blocks t.own.history new := by
    obtain ⟨later, new, hhistory, hcalls, hblocks⟩ := h
    rw [hhistory, show (construct old commandTimeoutMs).own.history = [] from rfl,
      List.append_nil]
    exact ⟨new, hcalls, hblocks⟩
  apply wp_mono (wp_and (runCalls_account p fuel old commandTimeoutMs cs) (hruns cs _))
  · exact fun _ t h => ⟨h.1.atMostOnce, htold t h.2⟩
  · exact fun _ t h => ⟨h.1.atMostOnce, htold t h.2⟩

end Calls

/-- On any platform, with a list of the calls that is empty at first: a handler is called only for
a message that the history says has been delivered, and that is at most once more often than
the identifier of the message has been released. -/
theorem runCalls_recording {old : Client (ω × List (H × MessageData)) τ H}
    {commandTimeoutMs : ℕ} {cs : List (Call H)} {t : Client (ω × List (H × MessageData)) τ H}
    (hrun : Run (recording p) fuel cs (construct old commandTimeoutMs) t)
    (hnone : old.world.2 = []) :
    Blocks t.own.history t.world.2 ∧ (∀ call ∈ t.world.2,
      .delivered call.2.message.qos call.2.message.id ∈ t.own.history) ∧ AtMostOnce t := by
  obtain ⟨honce, new, hcalls, hblocks⟩ :=
    hrun.post (runCalls_told (recording_records p) fuel old commandTimeoutMs cs)
  rw [hnone, List.nil_append] at hcalls
  rw [hcalls]
  exact ⟨hblocks, fun call hcall => hblocks.mem hcall, honce⟩

end MqttEmbedded.ClientCpp
