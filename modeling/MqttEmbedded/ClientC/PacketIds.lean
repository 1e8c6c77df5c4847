import Mathlib
import MqttEmbedded.ClientC.Persistence
import MqttEmbedded.Lib.CyclicCounter

/-!
# Packet identifiers

A SUBSCRIBE, an UNSUBSCRIBE and a PUBLISH that is to be answered carry an identifier,
which `getNextPacketId` counts out from 1 to 65535 and round again. It is taken before
the packet is made, so that a request whose packet is refused uses one up as well.
-/

namespace MqttEmbedded.ClientC

open Hoare CyclicCounter

variable {ω τ H α β : Type} {p : Platform ω τ H} {fuel : ℕ} {s t : Client ω τ H}

def SameCounter (s t : Client ω τ H) : Prop := t.client.nextPacketid = s.client.nextPacketid

instance : Std.Refl (SameCounter : Client ω τ H → Client ω τ H → Prop) := ⟨fun _ => rfl⟩

instance : IsTrans (Client ω τ H) SameCounter := ⟨fun _ _ _ h h' => Eq.trans h' h⟩

theorem nextId_eq_ofNat (c : MQTTClient τ H) :
    nextId c = UInt16.ofNat (next maxPacketId c.nextPacketid) := rfl

theorem SameCounter.nextId_eq (h : SameCounter s t) : nextId t.client = nextId s.client := by
  have hcounter : t.client.nextPacketid = s.client.nextPacketid := h
  rw [nextId_eq_ofNat, nextId_eq_ofNat, hcounter]

theorem mqttCloseSession_sameCounter :
    Moves SameCounter (mqttCloseSession : Prog (Client ω τ H) PUnit) :=
  .bind (fun _ => rfl) fun _ => .bind getClient_moves fun _ => .ite (fun _ => rfl) (.pure _)

theorem sameCounter_upkeep (p : Platform ω τ H) : Upkeep p SameCounter where
  __ := outward_of_world p fun _ _ => rfl
  __ := inward_of_world p (fun _ _ => rfl) (fun _ _ => rfl) fun _ _ => rfl
  buf := fun _ _ => rfl
  lastSent := fun _ _ => rfl
  pingOutstanding := fun _ _ => rfl
  closeSession := mqttCloseSession_sameCounter

theorem getNextPacketId_next : wp (getNextPacketId : Prog (Client ω τ H) UInt16)
    (fun id t => id = nextId s.client ∧
      t.client.nextPacketid = next maxPacketId s.client.nextPacketid) (fun _ _ => False) s :=
  ⟨rfl, rfl⟩

/-- A request when its packet has been made or, with `len` not positive, refused. -/
structure Numbered (τ : Type) where
  timer : τ
  id : UInt16
  len : ℤ

/-- A request up to its packet; `packet` is the serialiser, for an identifier. -/
def number (p : Platform ω τ H) (packet : UInt16 → List UInt8 → Option (ℤ × List UInt8)) :
    Prog (Client ω τ H) (Option (Numbered τ)) := do
  let c ← getClient
  if c.isconnected then
    let timer ← newTimer p c.commandTimeoutMs
    let id ← getNextPacketId
    let len ← serialize (packet id)
    pure (some ⟨timer, id, len⟩)
  else pure none

/-- A request has taken the counter's next value, or there is no session and it has not. -/
theorem number_counts (packet : UInt16 → List UInt8 → Option (ℤ × List UInt8)) :
    wp (number p packet) (fun result t => match result with
      | some numbered => numbered.id = nextId s.client ∧
          t.client.nextPacketid = next maxPacketId s.client.nextPacketid
      | none => SameCounter s t) (fun _ _ => True) s := by
  have upkeep := sameCounter_upkeep p
  unfold number
  rw [wp_bind, wp_getClient, wp_ite, wp_bind]
  constructor
  · intro _
    apply wp_mono (newTimer_moves upkeep.toDiscreet _ s)
    · intro timer t hsame
      rw [wp_bind]
      apply wp_mono getNextPacketId_next
      · rintro id u ⟨hid, hnext⟩
        rw [wp_bind]
        apply wp_mono (serialize_moves upkeep.buf _ u)
        · intro len v hsame'
          rw [← hsame]
          exact ⟨hid.trans hsame.nextId_eq, Eq.trans hsame' hnext⟩
        · exact fun _ _ _ => trivial
      · exact fun _ _ h => h.elim
    · exact fun _ _ _ => trivial
  · exact fun _ => rfl

/-- The program begins as a request, and leaves the counter alone afterwards. -/
def BeginsNumbered (p : Platform ω τ H)
    (packet : UInt16 → List UInt8 → Option (ℤ × List UInt8)) (x : Prog (Client ω τ H) α) : Prop :=
  ∃ rest, x = number p packet >>= rest ∧ ∀ result, Moves SameCounter (rest result)

namespace BeginsNumbered

variable {packet : UInt16 → List UInt8 → Option (ℤ × List UInt8)}

theorem bind {x : Prog (Client ω τ H) α} {f : α → Prog (Client ω τ H) β}
    (h : BeginsNumbered p packet x) (hf : ∀ a, Moves SameCounter (f a)) :
    BeginsNumbered p packet (x >>= f) := by
  obtain ⟨rest, rfl, hrest⟩ := h
  exact ⟨fun result => rest result >>= f, bind_assoc .., fun result => .bind (hrest result) hf⟩

theorem exchange {next : τ → UInt16 → ℤ → Prog (Client ω τ H) α}
    {otherwise : Prog (Client ω τ H) α}
    (hnext : ∀ timer id len, Moves SameCounter (next timer id len))
    (hotherwise : Moves SameCounter otherwise) :
    BeginsNumbered p packet (do
      let c ← getClient
      if c.isconnected then
        let timer ← newTimer p c.commandTimeoutMs
        let id ← getNextPacketId
        let len ← serialize (packet id)
        next timer id len
      else otherwise) := by
  refine ⟨fun result => match result with
    | some numbered => next numbered.timer numbered.id numbered.len
    | none => otherwise, ?_, fun result => ?_⟩
  · unfold number
    rw [bind_assoc]
    refine bind_congr fun c => ?_
    split_ifs
    · simp only [bind_assoc, pure_bind]
    · rw [pure_bind]
  · cases result with
    | some numbered => exact hnext _ _ _
    | none => exact hotherwise

end BeginsNumbered

def subscribeSerializer (topicFilter : CString) (qos : ℕ) (id : UInt16) (buf : List UInt8) :
    Option (ℤ × List UInt8) :=
  mqttSerializeSubscribe buf 0 id [MQTTString.ofCString topicFilter] [qos]

def unsubscribeSerializer (topicFilter : CString) (id : UInt16) (buf : List UInt8) :
    Option (ℤ × List UInt8) :=
  mqttSerializeUnsubscribe buf 0 id [MQTTString.ofCString topicFilter]

def publishSerializer (topicName : CString) (message : MQTTMessage) (id : UInt16)
    (buf : List UInt8) : Option (ℤ × List UInt8) :=
  mqttSerializePublish buf 0 message.qos (UInt8.ofNat message.retained) id
    (MQTTString.ofCString topicName) message.payload message.payloadlen

/-- The serialiser that a call hands an identifier from the counter to. -/
def Call.serializer : Call H → Option (UInt16 → List UInt8 → Option (ℤ × List UInt8))
  | .subscribe topicFilter qos _ => some (subscribeSerializer topicFilter qos)
  | .unsubscribe topicFilter => some (unsubscribeSerializer topicFilter)
  | .publish topicName message =>
    if message.qos = 1 ∨ message.qos = 2 then some (publishSerializer topicName message) else none
  | .connect _ | .yield _ | .disconnect | .setMessageHandler .. => none

theorem mqttSetMessageHandler_sameCounter (topicFilter : CString) (messageHandler : Option H) :
    Moves SameCounter
      (mqttSetMessageHandler topicFilter messageHandler : Prog (Client ω τ H) ℤ) :=
  fun _ => rfl

theorem closing_sameCounter (rc : ℤ) (a : α) : Moves SameCounter (do
    closeOnFailure rc
    pure a : Prog (Client ω τ H) α) :=
  .bind (closeOnFailure_moves mqttCloseSession_sameCounter rc) fun _ => .pure _

theorem subscribeExchange_numbered (topicFilter : CString) (qos : ℕ) (messageHandler : Option H)
    (data : ℤ) : BeginsNumbered p (subscribeSerializer topicFilter qos)
      (subscribeExchange p fuel topicFilter qos messageHandler data) :=
  .exchange (fun timer _ _ => transmit_moves (sameCounter_upkeep p)
    (awaitSuback_moves (sameCounter_upkeep p)
      (mqttSetMessageHandler_sameCounter topicFilter messageHandler) timer data)) (.pure _)

theorem unsubscribeExchange_numbered (topicFilter : CString) :
    BeginsNumbered p (unsubscribeSerializer topicFilter)
      (unsubscribeExchange p fuel topicFilter : Prog (Client ω τ H) ℤ) :=
  .exchange (fun timer _ _ => transmit_moves (sameCounter_upkeep p)
    (awaitUnsuback_moves (sameCounter_upkeep p)
      (mqttSetMessageHandler_sameCounter topicFilter none) timer)) (.pure _)

theorem publishExchange_numbered (topicName : CString) {message : MQTTMessage}
    (hqos : message.qos = 1 ∨ message.qos = 2) :
    BeginsNumbered p (publishSerializer topicName message)
      (publishExchange p fuel topicName message : Prog (Client ω τ H) (ℤ × MQTTMessage)) := by
  unfold publishExchange
  simp only [numberMessage, if_pos hqos, bind_assoc, pure_bind]
  exact .exchange (fun timer _ _ => transmit_moves (sameCounter_upkeep p)
    (.bind (awaitPublished_moves (sameCounter_upkeep p) _ timer) fun _ => .pure _)) (.pure _)

theorem publishExchange_sameCounter (topicName : CString) {message : MQTTMessage}
    (hqos : ¬ (message.qos = 1 ∨ message.qos = 2)) : Moves SameCounter
      (publishExchange p fuel topicName message : Prog (Client ω τ H) (ℤ × MQTTMessage)) := by
  have upkeep := sameCounter_upkeep (H := H) (τ := τ) p
  unfold publishExchange
  simp only [numberMessage, if_neg hqos, pure_bind]
  refine .bind getClient_moves fun c => .ite ?_ (.pure _)
  refine .bind (newTimer_moves upkeep.toDiscreet c.commandTimeoutMs) fun timer => ?_
  refine .bind (serialize_moves upkeep.buf _) fun len => transmit_moves upkeep ?_
  exact .bind (awaitPublished_moves upkeep message.qos timer) fun rc => .pure _

/-- A call that hands out an identifier begins by taking it, and nothing else in a call
touches the counter. -/
theorem perform_numbered (p : Platform ω τ H) (fuel : ℕ) (call : Call H) :
    match call.serializer with
    | some packet => BeginsNumbered p packet (perform p fuel call)
    | none => Moves SameCounter (perform p fuel call) := by
  have upkeep := sameCounter_upkeep (H := H) (τ := τ) p
  cases call with
  | subscribe topicFilter qos messageHandler =>
    exact (((subscribeExchange_numbered topicFilter qos messageHandler 0).bind fun result =>
      closing_sameCounter result.1 result).bind fun _ => .pure _).bind fun _ => .pure _
  | unsubscribe topicFilter =>
    exact ((unsubscribeExchange_numbered topicFilter).bind fun rc =>
      closing_sameCounter rc rc).bind fun _ => .pure _
  | publish topicName message =>
    by_cases hqos : message.qos = 1 ∨ message.qos = 2
    · simp only [Call.serializer, if_pos hqos]
      exact ((publishExchange_numbered topicName hqos).bind fun result =>
        closing_sameCounter result.1 result).bind fun _ => .pure _
    · simp only [Call.serializer, if_neg hqos]
      exact .bind (.bind (publishExchange_sameCounter topicName hqos) fun result =>
        closing_sameCounter result.1 result) fun _ => .pure _
  | connect options =>
    exact .bind (mqttConnect_moves upkeep (fun _ _ => rfl) fun _ => rfl) fun _ => .pure _
  | yield timeoutMs => exact .bind (mqttYield_moves upkeep timeoutMs) fun _ => .pure _
  | disconnect => exact .bind (mqttDisconnect_moves upkeep) fun _ => .pure _
  | setMessageHandler topicFilter messageHandler =>
    exact .bind (mqttSetMessageHandler_sameCounter topicFilter messageHandler) fun _ => .pure _

/-- An identifier that a request has taken. It is placed in a packet unless the
serialiser has refused to make one. -/
structure Issue where
  id : UInt16
  placed : Bool
  deriving DecidableEq

/-- What a call issues when it is made in `s`. -/
def issued (p : Platform ω τ H) (call : Call H) (s : Client ω τ H) : Option Issue :=
  match call.serializer with
  | none => none
  | some packet =>
    match number p packet s with
    | .ok (some numbered) _ => some ⟨numbered.id, 0 < numbered.len⟩
    | .ok none _ | .error _ _ => none

theorem issued_id {call : Call H} {issue : Issue} (h : issued p call s = some issue) :
    issue.id = nextId s.client := by
  unfold issued at h
  cases hserializer : call.serializer with
  | none => simp [hserializer] at h
  | some packet =>
    have hcounts := number_counts (p := p) (s := s) packet
    cases hnumber : number p packet s with
    | ok result t =>
      rw [wp_ok hnumber] at hcounts
      cases result with
      | some numbered =>
        simp only [hserializer, hnumber, Option.some.injEq] at h
        rw [← h]
        exact hcounts.1
      | none => simp [hserializer, hnumber] at h
    | error e t => simp [hserializer, hnumber] at h

/-- The counter goes on by one if the call issues an identifier, and otherwise it stays. -/
theorem perform_counter {call : Call H} {reply : Reply}
    (hrun : perform p fuel call s = .ok reply t) : t.client.nextPacketid =
      if (issued p call s).isSome then next maxPacketId s.client.nextPacketid
      else s.client.nextPacketid := by
  have hcall := perform_numbered p fuel call
  unfold issued
  cases hserializer : call.serializer with
  | none =>
    rw [hserializer] at hcall
    exact (wp_ok hrun).mp (hcall s)
  | some packet =>
    rw [hserializer] at hcall
    obtain ⟨rest, hbegins, hrest⟩ := hcall
    rw [hbegins, bind_eq_ok] at hrun
    obtain ⟨result, u, hnumber, hrun⟩ := hrun
    have hcounts := wp_result (number_counts packet) hnumber
    have hsame : SameCounter u t := (wp_ok hrun).mp (hrest result u)
    cases result with
    | some numbered =>
      simp only [hnumber, Option.isSome_some, if_pos]
      exact Eq.trans hsame hcounts.2
    | none =>
      simp only [hnumber, Option.isSome_none, Bool.false_eq_true, if_false]
      exact Eq.trans hsame hcounts

/-- A run has issued these identifiers, one call after the other; between two of them the
world does as it likes. A call that ends without a result is the last. -/
inductive Issued (p : Platform ω τ H) (fuel : ℕ) (s : Client ω τ H) :
    List Issue → Option (Client ω τ H) → Prop
  | start : Issued p fuel s [] (some s)
  | call {issues : List Issue} {t u : Client ω τ H} {call : Call H} {result : Option Reply}
      (world : ω) : Issued p fuel s issues (some t) →
      Hoare.Ends (perform p fuel call) { t with world := world } result u →
      Issued p fuel s (issues ++ (issued p call { t with world := world }).toList)
        (result.map fun _ => u)

theorem Issued.issue {issues : List Issue} {call : Call H} {reply : Reply} {issue : Issue}
    {u : Client ω τ H} (h : Issued p fuel s issues (some t)) (world : ω)
    (hissued : issued p call { t with world := world } = some issue)
    (hrun : perform p fuel call { t with world := world } = .ok reply u) :
    Issued p fuel s (issues ++ [issue]) (some u) := by
  have hcall := h.call world (.value hrun)
  rw [hissued] at hcall
  exact hcall

theorem Issued.silent {issues : List Issue} {call : Call H} {reply : Reply} {u : Client ω τ H}
    (h : Issued p fuel s issues (some t)) (world : ω) (hsilent : call.serializer = none)
    (hrun : perform p fuel call { t with world := world } = .ok reply u) :
    Issued p fuel s issues (some u) := by
  have hcall := h.call world (.value hrun)
  have hissued : issued p call { t with world := world } = none := by simp [issued, hsilent]
  rw [hissued, Option.toList_none, List.append_nil] at hcall
  exact hcall

theorem Issued.counts {issues : List Issue} {final : Option (Client ω τ H)}
    (h : Issued p fuel s issues final) (hs : s.client.nextPacketid = 1) :
    issues.map (·.id.toNat) = values maxPacketId issues.length ∧
      ∀ t ∈ final, t.client.nextPacketid = value maxPacketId issues.length := by
  have hpos : 0 < maxPacketId := by decide
  induction h with
  | start => exact ⟨rfl, fun t ht => Option.mem_some.mp ht ▸ hs⟩
  | @call issues t u call result world _ hends ih =>
    obtain ⟨hids, hcounter⟩ := ih
    have hnext : next maxPacketId t.client.nextPacketid =
        value maxPacketId (issues.length + 1) := by
      rw [hcounter t rfl, next_value hpos]
    constructor
    · cases hissued : issued p call { t with world := world } with
      | none => simpa using hids
      | some issue =>
        have hid : issue.id.toNat = value maxPacketId (issues.length + 1) := by
          have hle := value_le hpos (issues.length + 1)
          rw [issued_id hissued, nextId_eq_ofNat, hnext, UInt16.toNat_ofNat']
          exact Nat.mod_eq_of_lt (hle.trans_lt (by decide))
        simp [hids, hid, values_succ]
    · intro v hv
      cases hends with
      | error hrun => cases hv
      | value hrun =>
        cases hv
        rw [perform_counter hrun]
        cases hissued : issued p call { t with world := world } with
        | none => simpa using hcounter t rfl
        | some issue => simpa using hnext

/-- The identifiers lie in 1, …, 65535, and no two of 65535 consecutive ones are equal. -/
def KeepsApart (ids : List UInt16) : Prop :=
  (∀ id ∈ ids, 1 ≤ id.toNat ∧ id.toNat ≤ maxPacketId) ∧
    ∀ i : ℕ, ((ids.drop i).take maxPacketId).Nodup

def placedIds (issues : List Issue) : List UInt16 := (issues.filter (·.placed)).map (·.id)

/-- Requests keep their identifiers apart if those that are refused count as well, and so
in a run in which none is refused. -/
theorem issued_keepsApart (p : Platform ω τ H) (fuel commandTimeoutMs : ℕ) (old : MQTTClient τ H)
    (sendbuf readbuf : List UInt8) (world : ω) {issues : List Issue}
    {final : Option (Client ω τ H)}
    (hrun : Issued p fuel (mqttClientInit p old commandTimeoutMs sendbuf readbuf world) issues
      final) :
    KeepsApart (issues.map (·.id)) ∧
      ((∀ issue ∈ issues, issue.placed = true) → KeepsApart (placedIds issues)) := by
  have hids := (hrun.counts rfl).1
  have hapart : KeepsApart (issues.map (·.id)) := by
    constructor
    · intro id hid
      obtain ⟨issue, hissue, rfl⟩ := List.mem_map.mp hid
      apply mem_values (m := maxPacketId) (k := issues.length) (by decide)
      rw [← hids]
      exact List.mem_map_of_mem hissue
    · intro i
      apply List.Nodup.of_map UInt16.toNat
      rw [List.map_take, List.map_drop, List.map_map]
      exact hids ▸ values_window_nodup issues.length i
  refine ⟨hapart, fun hplaced => ?_⟩
  rw [placedIds, List.filter_eq_self.mpr hplaced]
  exact hapart

/-- A client after a handshake, with this counter. -/
def readyClient (nextPacketid : ℕ) (isconnected : Bool) (inbox : List UInt8) :
    Client (List UInt8) Unit Unit where
  client :=
    { nextPacketid := nextPacketid
      commandTimeoutMs := 1000
      buf := [0x10, 12, 0, 4, 77, 81, 84, 84, 4, 0, 0, 0, 0, 0] ++ List.replicate 10 0
      readbuf := [0x20, 2, 0, 0] ++ List.replicate 12 0
      keepAliveInterval := 0
      pingOutstanding := false
      isconnected := isconnected
      cleansession := false
      messageHandlers := [⟨none, some ()⟩]
      defaultMessageHandler := none
      lastSent := ()
      lastReceived := () }
  own := ()
  world := inbox

/-- A payload of 30 bytes; the send buffer has 24. -/
def publishLarge : Call Unit :=
  .publish ⟨[97], unterminated_a⟩
    { qos := 1, retained := 0, dup := 0, id := none, payload := List.replicate 30 1,
      payloadlen := 30 }

/-- A CONNACK that accepts. -/
def connackBytes : List UInt8 := [0x20, 2, 0, 0]

/-- The client of the examples, before it has connected. -/
def freshClient : Client (List UInt8) Unit Unit :=
  mqttClientInit inboxPlatform (inboxClient false []).client 1000 (List.replicate 24 0)
    (List.replicate 16 0) []

theorem connect_fresh : perform inboxPlatform 8 (.connect (some persistentOptions))
    { freshClient with world := connackBytes } = .ok ⟨0, none⟩ (readyClient 1 true []) := by
  cbv

theorem connect_again (n : ℕ) : perform inboxPlatform 8 (.connect (some persistentOptions))
    (readyClient n false connackBytes) = .ok ⟨0, none⟩ (readyClient n true []) := by
  cbv

theorem publishLarge_refused (n : ℕ) :
    perform inboxPlatform 8 publishLarge (readyClient n true []) =
      .ok ⟨failure, some (UInt16.ofNat (next maxPacketId n))⟩
        (readyClient (next maxPacketId n) false []) := by
  unfold next
  cbv

theorem issued_publishLarge (n : ℕ) : issued inboxPlatform publishLarge (readyClient n true []) =
    some ⟨UInt16.ofNat (next maxPacketId n), false⟩ := by
  unfold next
  cbv

theorem issued_publishOne (n : ℕ) (inbox : List UInt8) :
    issued inboxPlatform (publishOne 1) (readyClient n true inbox) =
      some ⟨UInt16.ofNat (next maxPacketId n), true⟩ := by
  unfold next
  cbv

theorem publishOne_reconnect (n : ℕ) : (do
      let _ ← perform inboxPlatform 8 (publishOne 1)
      let _ ← perform inboxPlatform 8 .disconnect
      perform inboxPlatform 8 (.connect (some persistentOptions)))
    (readyClient n true ([0x40, 2, 0, 2] ++ connackBytes)) =
      .ok ⟨0, none⟩ (readyClient (next maxPacketId n) true []) := by
  unfold next
  cbv

/-- The client of the examples has issued these identifiers, and has counted `k` times. -/
def Counted (issues : List Issue) (k : ℕ) : Prop :=
  Issued inboxPlatform 8 freshClient issues (some (readyClient (value maxPacketId k) true []))

theorem counted_start : Counted [] 0 :=
  .call connackBytes .start (.value connect_fresh)

theorem next_maxPacketId (k : ℕ) :
    next maxPacketId (value maxPacketId k) = value maxPacketId (k + 1) :=
  next_value (by decide) k

theorem Counted.placed {issues : List Issue} {k : ℕ} (h : Counted issues k) :
    Counted (issues ++ [⟨UInt16.ofNat (value maxPacketId (k + 1)), true⟩]) (k + 1) := by
  have hrun := publishOne_reconnect (value maxPacketId k)
  have hissued := issued_publishOne (value maxPacketId k) ([0x40, 2, 0, 2] ++ connackBytes)
  rw [next_maxPacketId] at hrun hissued
  obtain ⟨published, t, hpublish, hrun⟩ := bind_eq_ok.mp hrun
  obtain ⟨closed, u, hdisconnect, hconnect⟩ := bind_eq_ok.mp hrun
  have hpublished := Issued.issue h _ hissued hpublish
  have hclosed := hpublished.silent t.world rfl hdisconnect
  exact hclosed.silent u.world rfl hconnect

theorem Counted.refused {issues : List Issue} {k : ℕ} (h : Counted issues k) :
    Counted (issues ++ [⟨UInt16.ofNat (value maxPacketId (k + 1)), false⟩]) (k + 1) := by
  have hrun := publishLarge_refused (value maxPacketId k)
  have hissued := issued_publishLarge (value maxPacketId k)
  rw [next_maxPacketId] at hrun hissued
  have hclosed := Issued.issue h [] hissued hrun
  exact hclosed.silent connackBytes rfl (connect_again _)

theorem Counted.refusals {issues : List Issue} {k : ℕ} (h : Counted issues k) (count : ℕ) :
    ∃ refused, Counted (issues ++ refused) (k + count) ∧
      ∀ issue ∈ refused, issue.placed = false := by
  induction count with
  | zero => exact ⟨[], by rwa [List.append_nil], by simp⟩
  | succ count ih =>
    obtain ⟨refused, hcounted, hrefused⟩ := ih
    have hnext := hcounted.refused
    rw [List.append_assoc] at hnext
    exact ⟨_, hnext, by simpa [or_imp, forall_and] using hrefused⟩

theorem issued_not_keepsApart : ∃ issues final, Issued inboxPlatform 8 freshClient issues final ∧
    placedIds issues = [2, 2] ∧ ¬ KeepsApart (placedIds issues) := by
  have hfirst : Counted [⟨2, true⟩] 1 := counted_start.placed
  obtain ⟨refused, hcounted, hrefused⟩ := hfirst.refusals 65534
  have hlast : Counted ([⟨2, true⟩] ++ refused ++ [⟨2, true⟩]) 65536 := hcounted.placed
  have hplaced : placedIds ([⟨2, true⟩] ++ refused ++ [⟨2, true⟩]) = [2, 2] := by
    have hnone : refused.filter (·.placed) = [] := by
      rw [List.filter_eq_nil_iff]
      exact fun issue hissue => by simp [hrefused issue hissue]
    simp [placedIds, hnone]
  refine ⟨_, _, hlast, hplaced, fun hapart => ?_⟩
  rw [hplaced] at hapart
  have hnodup := hapart.2 0
  simp [maxPacketId] at hnodup

/-- Two packets, and no refusal. -/
theorem issued_keepsApart_placed : ∃ final,
    Issued inboxPlatform 8 freshClient [⟨2, true⟩, ⟨3, true⟩] final ∧
    KeepsApart [2, 3] ∧ KeepsApart (placedIds [⟨2, true⟩, ⟨3, true⟩]) := by
  have hrun : Counted [⟨2, true⟩, ⟨3, true⟩] 2 := counted_start.placed.placed
  have hapart := issued_keepsApart inboxPlatform 8 1000 (inboxClient false []).client
    (List.replicate 24 0) (List.replicate 16 0) [] hrun
  exact ⟨_, hrun, hapart.1, hapart.2 (by simp)⟩

end MqttEmbedded.ClientC
