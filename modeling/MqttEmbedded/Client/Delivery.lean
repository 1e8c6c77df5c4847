import MqttEmbedded.Client.Platform
import MqttEmbedded.Lib.SlotTable

/-!
# Finding and calling the message handlers

`MQTTPacket_equals`, and the handler table of the two clients: the same code
stands in both.
-/

namespace MqttEmbedded

open Hoare

/-- `strncmp(aptr, bptr, count) == 0`; what lies behind a list is a terminator. -/
def strncmpEq : ℕ → List UInt8 → List UInt8 → Bool
  | 0, _, _ => true
  | count + 1, a, b =>
    if a.headD 0 ≠ b.headD 0 then false
    else if a.headD 0 = 0 then true
    else strncmpEq count a.tail b.tail

def mqttPacketEquals (a : MQTTString) (b : CString) : Bool :=
  let (aptr, alen) := match a.cstring with
    | some cstring => (cstring.bytes, strlen cstring)
    | none => (a.lenstring.data.getD [], a.lenstring.len)
  alen = strlen b && strncmpEq alen aptr b.bytes

def separator : UInt8 := 47
def singleLevel : UInt8 := 43
def multiLevel : UInt8 := 35

/-- Assume topic filter and name is in correct format: # can only be at end, + and
# can only be next to separator. -/
def topicMatches : (filter name : List UInt8) → Bool
  | [], name => name.isEmpty
  | _ :: _, [] => false
  | curf :: filter, curn :: name =>
    if curn = separator ∧ curf ≠ separator then false
    else if curf ≠ singleLevel ∧ curf ≠ multiLevel ∧ curf ≠ curn then false
    -- skip until we meet the next separator, or end of string
    else if curf = singleLevel then topicMatches filter (name.dropWhile (· ≠ separator))
    -- skip until end of string
    else if curf = multiLevel then topicMatches filter []
    else topicMatches filter name

def isTopicMatched (topicFilter : CString) (topicName : MQTTString) : Bool :=
  topicMatches topicFilter.bytes ((topicName.lenstring.data.getD []).take topicName.lenstring.len)

/-- A filter without a terminator inside is compared to its end. -/
theorem strncmpEq_iff : ∀ {a b : List UInt8}, a.length = b.length → 0 ∉ b → ∀ more : List UInt8,
    (strncmpEq b.length (a ++ more) b = true ↔ a = b)
  | [], [], _, _, _ => by simp [strncmpEq]
  | x :: a, y :: b, hlen, hzero, more => by
    rw [List.mem_cons, not_or] at hzero
    have ih := strncmpEq_iff (by simpa using hlen) hzero.2 more (a := a)
    simp only [List.length_cons, strncmpEq, List.cons_append, List.headD_cons, List.tail_cons,
      List.cons.injEq, ne_eq]
    by_cases hxy : x = y
    · have hx : x ≠ 0 := fun h => hzero.1 (by rw [← hxy, h])
      simp [hxy, ← ih, hxy ▸ hx]
    · simp [hxy]

/-- On a string the packet delimits, the comparison is that of the bytes. -/
theorem mqttPacketEquals_iff {len : ℕ} {text more : List UInt8} (hlen : text.length = len)
    (b : CString) :
    mqttPacketEquals ⟨none, ⟨len, some (text ++ more)⟩⟩ b = true ↔ text = b.bytes := by
  subst hlen
  unfold mqttPacketEquals
  rw [Bool.and_eq_true, decide_eq_true_iff]
  change text.length = b.bytes.length ∧ strncmpEq text.length (text ++ more) b.bytes = true ↔ _
  constructor
  · rintro ⟨hlen, hcmp⟩
    rw [hlen] at hcmp
    exact (strncmpEq_iff hlen b.unterminated more).mp hcmp
  · rintro rfl
    exact ⟨rfl, (strncmpEq_iff rfl b.unterminated more).mpr rfl⟩

section

variable {χ ω τ H : Type} (p : Platform ω τ H)

/-- The loop of `deliverMessage` over the table, with the `rc` so far. -/
def callHandlers (md : MessageData) :
    List (MessageHandler H) → ℤ → Prog (Session χ ω τ H) ℤ
  | [], rc => pure rc
  | ⟨some topicFilter, some fp⟩ :: handlers, rc => do
    if mqttPacketEquals md.topicName topicFilter || isTopicMatched topicFilter md.topicName then
      invoke p fp md
      callHandlers md handlers success
    else callHandlers md handlers rc
  | _ :: handlers, rc => callHandlers md handlers rc

def deliverMessage (topicName : MQTTString) (message : MQTTMessage) :
    Prog (Session χ ω τ H) ℤ := do
  let c ← getClient
  -- we have to find the right message handler - indexed by topic
  let rc ← callHandlers p ⟨message, topicName⟩ c.messageHandlers failure
  match c.defaultMessageHandler with
  | some fp =>
    if rc = failure then do
      invoke p fp ⟨message, topicName⟩
      pure success
    else pure rc
  | none => pure rc

def setMessageHandler (messageHandlers : List (MessageHandler H)) (topicFilter : CString)
    (messageHandler : Option H) : ℤ × List (MessageHandler H) :=
  -- first check for an existing matching slot
  match messageHandlers.findIdx? fun slot => slot.topicFilter = some topicFilter with
  | some i =>
    match messageHandler with
    | none => (success, messageHandlers.set i ⟨none, none⟩) -- remove existing
    | some fp => (success, messageHandlers.set i ⟨some topicFilter, some fp⟩)
  | none =>
    -- if no existing, look for empty slot (unless we are removing)
    match messageHandler, messageHandlers.findIdx? fun slot => slot.topicFilter.isNone with
    | some fp, some i => (success, messageHandlers.set i ⟨some topicFilter, some fp⟩)
    | _, _ => (failure, messageHandlers)

/-- Forget every subscription; the function pointers stay where they are. -/
def clearHandlers (messageHandlers : List (MessageHandler H)) : List (MessageHandler H) :=
  messageHandlers.map fun slot => { slot with topicFilter := none }

section Moves

variable {p} {R : Session χ ω τ H → Session χ ω τ H → Prop} [Std.Refl R]
  [IsTrans (Session χ ω τ H) R] (outward : p.Outward R)
include outward

theorem callHandlers_moves (md : MessageData) : ∀ (slots : List (MessageHandler H)) (rc : ℤ),
    Moves R (callHandlers p md slots rc : Prog (Session χ ω τ H) ℤ)
  | [], rc => .pure rc
  | ⟨some _, some fp⟩ :: slots, rc =>
    .ite (.bind (outward.invoke fp md) fun _ => callHandlers_moves md slots success)
      (callHandlers_moves md slots rc)
  | ⟨none, _⟩ :: slots, rc => callHandlers_moves md slots rc
  | ⟨some _, none⟩ :: slots, rc => callHandlers_moves md slots rc

theorem deliverMessage_moves (topicName : MQTTString) (message : MQTTMessage) :
    Moves R (deliverMessage p topicName message : Prog (Session χ ω τ H) ℤ) := by
  refine .bind getClient_moves fun c => .bind (callHandlers_moves outward _ _ _) fun rc => ?_
  cases c.defaultMessageHandler with
  | none => exact .pure rc
  | some fp => exact .ite (.bind (outward.invoke fp _) fun _ => .pure _) (.pure _)

end Moves

def MessageHandler.handlerFor (topic : List UInt8) (slot : MessageHandler H) : Option H :=
  match slot with
  | ⟨some topicFilter, some fp⟩ =>
    if topic = topicFilter.bytes ∨ topicMatches topicFilter.bytes topic then some fp else none
  | _ => none

/-- The handlers that match, or else the default handler. -/
def handlersFor (c : MQTTClient τ H) (topic : List UInt8) : List H :=
  match c.messageHandlers.filterMap (MessageHandler.handlerFor topic) with
  | [] => c.defaultMessageHandler.toList
  | fps => fps

def invokeAll (md : MessageData) (fps : List H) (world : ω) : ω :=
  fps.foldl (fun world fp => p.invoke fp md world) world

variable {E : Fault → Session χ ω τ H → Prop} {topic more : List UInt8} {message : MQTTMessage}

theorem wp_callHandlers {md : MessageData}
    (hname : md.topicName = ⟨none, ⟨topic.length, some (topic ++ more)⟩⟩) :
    ∀ (slots : List (MessageHandler H)) (rc : ℤ) {Q : ℤ → Session χ ω τ H → Prop}
      {s : Session χ ω τ H}, wp (callHandlers p md slots rc) Q E s ↔
      Q (if slots.filterMap (MessageHandler.handlerFor topic) = [] then rc else success)
        { s with
          world := invokeAll p md (slots.filterMap (MessageHandler.handlerFor topic)) s.world }
  | [], rc, Q, s => by simp [callHandlers, invokeAll]
  | ⟨some topicFilter, some fp⟩ :: slots, rc, Q, s => by
    have hequals : mqttPacketEquals ⟨none, ⟨topic.length, some (topic ++ more)⟩⟩ topicFilter =
        true ↔ topic = topicFilter.bytes := mqttPacketEquals_iff rfl topicFilter
    have hmatched : isTopicMatched topicFilter md.topicName =
        topicMatches topicFilter.bytes topic := by
      simp [hname, isTopicMatched]
    rw [← hname] at hequals
    by_cases htakes : topic = topicFilter.bytes ∨ topicMatches topicFilter.bytes topic
    · have htest : (mqttPacketEquals md.topicName topicFilter ||
          isTopicMatched topicFilter md.topicName) = true := by
        rw [Bool.or_eq_true, hequals, hmatched]
        exact htakes
      rw [callHandlers, if_pos htest, wp_bind, wp_invoke, wp_callHandlers hname]
      simp [MessageHandler.handlerFor, htakes, invokeAll]
    · have htest : ¬ (mqttPacketEquals md.topicName topicFilter ||
          isTopicMatched topicFilter md.topicName) = true := by
        rw [Bool.or_eq_true, hequals, hmatched]
        exact htakes
      rw [callHandlers, if_neg htest, wp_callHandlers hname]
      simp [MessageHandler.handlerFor, htakes]
  | ⟨none, fp⟩ :: slots, rc, Q, s => by
    rw [List.filterMap_cons_none rfl, callHandlers, wp_callHandlers hname]
    simp
  | ⟨some topicFilter, none⟩ :: slots, rc, Q, s => by
    rw [List.filterMap_cons_none rfl, callHandlers, wp_callHandlers hname]
    simp

/-- A message goes to the handlers of its topic and changes nothing but the world. -/
theorem wp_deliverMessage {Q : ℤ → Session χ ω τ H → Prop} {s : Session χ ω τ H}
    (hQ : ∀ rc, Q rc { s with
      world := invokeAll p ⟨message, ⟨none, ⟨topic.length, some (topic ++ more)⟩⟩⟩
        (handlersFor s.client topic) s.world }) :
    wp (deliverMessage p ⟨none, ⟨topic.length, some (topic ++ more)⟩⟩ message) Q E s := by
  unfold deliverMessage
  rw [wp_bind, wp_getClient, wp_bind]
  have hname : (⟨message, ⟨none, ⟨topic.length, some (topic ++ more)⟩⟩⟩ : MessageData).topicName =
    ⟨none, ⟨topic.length, some (topic ++ more)⟩⟩ := rfl
  rw [wp_callHandlers p hname]
  unfold handlersFor at hQ
  cases hslots : s.client.messageHandlers.filterMap (MessageHandler.handlerFor topic) with
  | nil =>
    cases hdefault : s.client.defaultMessageHandler with
    | none => simpa [hslots, hdefault, invokeAll] using hQ failure
    | some fp => simpa [hslots, hdefault, invokeAll] using hQ success
  | cons fp fps =>
    have hrc : ¬ success = failure := by decide
    cases hdefault : s.client.defaultMessageHandler with
    | none => simpa [hslots, invokeAll] using hQ success
    | some fp => simpa [hslots, invokeAll, hrc] using hQ success

end

section

open SlotTable

variable {H : Type}

/-- The entry in a slot; the function pointer of an empty slot may be left over. -/
def MessageHandler.entry : MessageHandler H → Option (CString × H)
  | ⟨some topicFilter, some fp⟩ => some (topicFilter, fp)
  | _ => none

/-- The test of `deliverMessage` for a filter. -/
def takes (topicName : MQTTString) (topicFilter : CString) : Bool :=
  mqttPacketEquals topicName topicFilter || isTopicMatched topicFilter topicName

/-- The entries that take a topic, in the order of the table. -/
def takers (topicName : MQTTString) (slots : List (MessageHandler H)) : List (CString × H) :=
  (entries MessageHandler.entry slots).filter fun entry => takes topicName entry.1

theorem takers_cons (topicName : MQTTString) (topicFilter : CString) (fp : H)
    (slots : List (MessageHandler H)) :
    takers topicName (⟨some topicFilter, some fp⟩ :: slots) =
      if takes topicName topicFilter then (topicFilter, fp) :: takers topicName slots
      else takers topicName slots := by
  simp [takers, entries, MessageHandler.entry, List.filter_cons]

variable {χ ω τ : Type} {p : Platform ω τ H}

theorem callHandlers_takers (md : MessageData) : ∀ (slots : List (MessageHandler H)) (rc : ℤ)
    (s : Session χ ω τ H), callHandlers p md slots rc s =
      .ok (if takers md.topicName slots = [] then rc else success) { s with
        world := invokeAll p md ((takers md.topicName slots).map Prod.snd) s.world }
  | [], rc, s => rfl
  | ⟨none, _⟩ :: slots, rc, s => callHandlers_takers md slots rc s
  | ⟨some _, none⟩ :: slots, rc, s => callHandlers_takers md slots rc s
  | ⟨some topicFilter, some fp⟩ :: slots, rc, s => by
    rw [callHandlers, takers_cons]
    by_cases htakes : takes md.topicName topicFilter = true
    · have hcalled : (invoke p fp md >>= fun _ => callHandlers p md slots success) s =
          callHandlers p md slots success { s with world := p.invoke fp md s.world } := rfl
      rw [if_pos htakes, if_pos (show (_ || _) = true from htakes), hcalled,
        callHandlers_takers md slots success]
      simp [invokeAll]
    · rw [if_neg htakes, if_neg (show ¬ (_ || _) = true from htakes)]
      exact callHandlers_takers md slots rc s

/-- Who is called for a topic: those that take it, or else the default handler. -/
def called (topicName : MQTTString) (c : MQTTClient τ H) : List H :=
  if takers topicName c.messageHandlers = [] then c.defaultMessageHandler.toList
  else (takers topicName c.messageHandlers).map Prod.snd

theorem deliverMessage_called (topicName : MQTTString) (message : MQTTMessage)
    (s : Session χ ω τ H) : deliverMessage p topicName message s =
      .ok (if called topicName s.client = [] then failure else success) { s with
        world := invokeAll p ⟨message, topicName⟩ (called topicName s.client) s.world } := by
  unfold deliverMessage called
  rw [getClient_bind]
  have hcall := callHandlers_takers (p := p) ⟨message, topicName⟩ s.client.messageHandlers failure s
  simp only [bind, EStateM.bind, hcall]
  cases takers topicName s.client.messageHandlers with
  | nil =>
    cases s.client.defaultMessageHandler with
    | none => rfl
    | some fp => rfl
  | cons entry rest =>
    have hne : ¬ success = failure := by decide
    cases s.client.defaultMessageHandler with
    | none => simp [pure, EStateM.pure]
    | some fp => simp [hne, pure, EStateM.pure]

end

end MqttEmbedded
