import MqttEmbedded.Lib.SlotTable
import MqttEmbedded.ClientC.Operations

/-!
# The handler table is a finite map

The slots of `messageHandlers` hold pairwise different filters, each with its
handler, and what is done to them is done to a map of as many entries at most.
A message goes to the handler of every entry of the map that takes its topic.
-/

namespace MqttEmbedded

open Hoare

namespace ClientC

open SlotTable

variable {ω τ H : Type} {p : Platform ω τ H}

abbrev HandlerMap (H : Type) (capacity : ℕ) := BoundedMap CString H capacity

/-- The table stands for the map, and no filter is without a handler. -/
structure TableOf {capacity : ℕ} (slots : List (MessageHandler H)) (m : HandlerMap H capacity) :
    Prop where
  represents : Represents MessageHandler.entry slots m
  handled : ∀ slot ∈ slots, slot.topicFilter.isSome → slot.fp.isSome

namespace TableOf

variable {capacity : ℕ} {slots : List (MessageHandler H)} {m : HandlerMap H capacity}
  {topicFilter : CString} {i : ℕ}

/-- The slot that the first loop finds. -/
theorem entryAt_of_findIdx? (h : TableOf slots m)
    (hfind : (slots.findIdx? fun slot => slot.topicFilter = some topicFilter) = some i) :
    ∃ fp, entryAt MessageHandler.entry slots i = some (topicFilter, fp) := by
  obtain ⟨hi, hfilter, -⟩ := List.findIdx?_eq_some_iff_getElem.mp hfind
  have hfilter := of_decide_eq_true hfilter
  have hsome := h.handled slots[i] (List.getElem_mem hi) (by rw [hfilter]; rfl)
  obtain ⟨fp, hfp⟩ := Option.isSome_iff_exists.mp hsome
  refine ⟨fp, ?_⟩
  cases hslot : slots[i] with
  | mk filter pointer =>
    rw [hslot] at hfilter hfp
    cases hfilter
    cases hfp
    simp [entryAt, hi, hslot, MessageHandler.entry]

theorem value_of_findIdx?_none (h : TableOf slots m)
    (hfind : (slots.findIdx? fun slot => slot.topicFilter = some topicFilter) = none) :
    m.value topicFilter = none := by
  rw [h.represents.value_eq_none]
  intro i fp hi
  have hil := lt_length_of_entryAt hi
  have hslot := List.findIdx?_eq_none_iff.mp hfind slots[i] (List.getElem_mem hil)
  have hview : MessageHandler.entry slots[i] = some (topicFilter, fp) := by
    simpa [entryAt, hil] using hi
  cases hs : slots[i] with
  | mk filter pointer =>
    rw [hs] at hslot hview
    cases filter with
    | none => cases hview
    | some filter =>
      cases pointer with
      | none => cases hview
      | some pointer =>
        cases hview
        simp at hslot

/-- Filters without a handler do not come in by way of a slot that has both or none. -/
theorem handled_set (h : TableOf slots m) {new : MessageHandler H}
    (hnew : new.topicFilter.isSome → new.fp.isSome) :
    ∀ slot ∈ slots.set i new, slot.topicFilter.isSome → slot.fp.isSome := by
  intro slot hslot
  rcases List.mem_or_eq_of_mem_set hslot with hold | rfl
  · exact h.handled slot hold
  · exact hnew

/-- What `MQTTSetMessageHandler` does to the table is done to the map; what cannot be
done there is refused and changes nothing. -/
theorem setMessageHandler (h : TableOf slots m) (topicFilter : CString)
    (messageHandler : Option H) :
    match m.assign topicFilter messageHandler with
    | some m' => ∃ slots', setMessageHandler slots topicFilter messageHandler = (success, slots') ∧
        TableOf slots' m'
    | none => setMessageHandler slots topicFilter messageHandler = (failure, slots) := by
  unfold MqttEmbedded.setMessageHandler
  cases hfind : slots.findIdx? fun slot => slot.topicFilter = some topicFilter with
  | some i =>
    obtain ⟨fp, hi⟩ := h.entryAt_of_findIdx? hfind
    have hknown : m.value topicFilter ≠ none := by
      rw [(h.represents.value_eq topicFilter fp).mpr ⟨i, hi⟩]
      exact Option.some_ne_none fp
    cases messageHandler with
    | none =>
      rw [BoundedMap.assign_known hknown]
      exact ⟨_, rfl, h.represents.erase rfl hi, h.handled_set fun hnone => by cases hnone⟩
    | some new =>
      rw [BoundedMap.assign_hasRoom (.inl hknown)]
      refine ⟨_, rfl, h.represents.insert (lt_length_of_entryAt hi) rfl _ (fun j fp' hj => ?_)
        fun k' fp' hi' => ?_, h.handled_set fun _ => rfl⟩
      · exact h.represents.distinct hj hi
      · rw [hi] at hi'
        exact (Prod.mk.inj (Option.some.inj hi')).1.symm
  | none =>
    have hunknown := h.value_of_findIdx?_none hfind
    cases messageHandler with
    | none => rw [BoundedMap.assign_unknown hunknown]
    | some new =>
      cases hfree : slots.findIdx? fun slot => slot.topicFilter.isNone with
      | some i =>
        obtain ⟨hi, hnone, -⟩ := List.findIdx?_eq_some_iff_getElem.mp hfree
        have hempty : MessageHandler.entry slots[i] = none := by
          cases hslot : slots[i] with
          | mk filter pointer =>
            rw [hslot] at hnone
            obtain rfl := Option.isNone_iff_eq_none.mp hnone
            rfl
        have hroom : m.HasRoom topicFilter :=
          .inr (h.represents.size_lt_iff.mpr ⟨slots[i], List.getElem_mem hi, hempty⟩)
        have hslots := (h.represents.value_eq_none topicFilter).mp hunknown
        rw [BoundedMap.assign_hasRoom hroom]
        refine ⟨_, rfl, h.represents.insert hi rfl hroom (fun j fp' hj => absurd hj (hslots j fp'))
          fun k' fp' hi' => ?_, h.handled_set fun _ => rfl⟩
        simp [entryAt, hi, hempty] at hi'
      | none =>
        have hfull : ¬ m.HasRoom topicFilter := by
          rintro (hknown | hroom)
          · exact hknown hunknown
          · obtain ⟨slot, hslot, hempty⟩ := h.represents.size_lt_iff.mp hroom
            have hsome := List.findIdx?_eq_none_iff.mp hfree slot hslot
            have hfilter : slot.topicFilter.isSome := by
              simpa [Option.isNone_iff_eq_none, Option.isSome_iff_ne_none] using hsome
            have hfp := h.handled slot hslot hfilter
            obtain ⟨filter, pointer⟩ := slot
            obtain ⟨filter, rfl⟩ := Option.isSome_iff_exists.mp hfilter
            obtain ⟨pointer, rfl⟩ := Option.isSome_iff_exists.mp hfp
            cases hempty
        rw [BoundedMap.assign_full hfull]

theorem cleared (hlen : slots.length = capacity) :
    TableOf (clearHandlers slots) (BoundedMap.empty : HandlerMap H capacity) := by
  have hempty (i : ℕ) : entryAt MessageHandler.entry (clearHandlers slots) i = none := by
    unfold entryAt clearHandlers
    rw [List.getElem?_map]
    cases slots[i]? <;> rfl
  refine ⟨⟨fun hi => ?_, (List.length_map _).trans hlen, fun k v => ?_⟩, fun slot hslot hsome => ?_⟩
  · rw [hempty] at hi
    cases hi
  · simp [BoundedMap.empty, hempty]
  · obtain ⟨_, -, rfl⟩ := List.mem_map.mp hslot
    cases hsome

end TableOf

inductive TableCall (H : Type) where
  | setMessageHandler (topicFilter : CString) (messageHandler : Option H)
  | cleanSession

/-- The calls on the client, with what `MQTTSetMessageHandler` returned. -/
def tableCalls : List (TableCall H) → Prog (Client ω τ H) (List ℤ)
  | [] => pure []
  | .setMessageHandler topicFilter messageHandler :: calls => do
    let rc ← mqttSetMessageHandler topicFilter messageHandler
    let rcs ← tableCalls calls
    pure (rc :: rcs)
  | .cleanSession :: calls => do
    mqttCleanSession
    tableCalls calls

/-- The same calls on the map. -/
noncomputable def mapCalls {capacity : ℕ} :
    List (TableCall H) → HandlerMap H capacity → List ℤ × HandlerMap H capacity
  | [], m => ([], m)
  | .setMessageHandler topicFilter messageHandler :: calls, m =>
    match m.assign topicFilter messageHandler with
    | some m' => (success :: (mapCalls calls m').1, (mapCalls calls m').2)
    | none => (failure :: (mapCalls calls m).1, (mapCalls calls m).2)
  | .cleanSession :: calls, _ => mapCalls calls BoundedMap.empty

theorem tableCalls_refines {capacity : ℕ} : ∀ (calls : List (TableCall H))
    {m : HandlerMap H capacity} {s : Client ω τ H}, TableOf s.client.messageHandlers m →
    ∃ slots, tableCalls calls s = .ok (mapCalls calls m).1 { s with
        client := { s.client with messageHandlers := slots } } ∧
      TableOf slots (mapCalls calls m).2
  | [], m, s, h => ⟨s.client.messageHandlers, rfl, h⟩
  | .setMessageHandler topicFilter messageHandler :: calls, m, s, h => by
    have hset := h.setMessageHandler topicFilter messageHandler
    have hcall (result : ℤ × List (MessageHandler H)) (hresult : setMessageHandler
        s.client.messageHandlers topicFilter messageHandler = result) :
        tableCalls (.setMessageHandler topicFilter messageHandler :: calls) s =
        (tableCalls calls >>= fun rcs => pure (result.1 :: rcs)) { s with
          client := { s.client with messageHandlers := result.2 } } := by
      rw [← hresult]
      rfl
    unfold mapCalls
    cases hassign : m.assign topicFilter messageHandler with
    | some m' =>
      rw [hassign] at hset
      obtain ⟨slots, hresult, htable⟩ := hset
      obtain ⟨slots', hrun, htable'⟩ := tableCalls_refines calls (s := { s with
        client := { s.client with messageHandlers := slots } }) htable
      refine ⟨slots', ?_, htable'⟩
      rw [hcall _ hresult]
      simp only [bind, EStateM.bind, hrun]
      rfl
    | none =>
      rw [hassign] at hset
      obtain ⟨slots', hrun, htable'⟩ := tableCalls_refines calls h
      refine ⟨slots', ?_, htable'⟩
      rw [hcall _ hset]
      simp only [bind, EStateM.bind, hrun]
      rfl
  | .cleanSession :: calls, m, s, h => by
    obtain ⟨slots, hrun, htable⟩ := tableCalls_refines calls (s := { s with
      client := { s.client with messageHandlers := clearHandlers s.client.messageHandlers } })
      (TableOf.cleared h.represents.length)
    exact ⟨slots, hrun, htable⟩

/-- The entries that take a topic are those of the map that do, each once. -/
theorem TableOf.takers {capacity : ℕ} {slots : List (MessageHandler H)} {m : HandlerMap H capacity}
    (h : TableOf slots m) (topicName : MQTTString) :
    ((takers topicName slots).map Prod.fst).Nodup ∧ ∀ topicFilter fp,
      (topicFilter, fp) ∈ takers topicName slots ↔
        m.value topicFilter = some fp ∧ takes topicName topicFilter = true := by
  constructor
  · have hkeys := distinct_iff_nodup.mp h.represents.distinct
    exact hkeys.sublist (List.filter_sublist.map Prod.fst)
  · intro topicFilter fp
    rw [MqttEmbedded.takers, List.mem_filter, h.represents.mem_entries]

/-- From a fresh client on the table is the map that the calls make of the empty one,
and returns what the map allows. A message then calls the handler of each entry that
takes its topic, once, or else the default handler, and is delivered if there is one. -/
theorem handlerTable_map (p : Platform ω τ H) (old : MQTTClient τ H) (commandTimeoutMs : ℕ)
    (sendbuf readbuf : List UInt8) (world : ω) (calls : List (TableCall H)) :
    ∃ (slots : List (MessageHandler H)) (rcs : List ℤ)
      (m : HandlerMap H old.messageHandlers.length),
      (rcs, m) = mapCalls calls BoundedMap.empty ∧ TableOf slots m ∧
      tableCalls calls (mqttClientInit p old commandTimeoutMs sendbuf readbuf world) =
        .ok rcs { mqttClientInit p old commandTimeoutMs sendbuf readbuf world with
          client :=
            { (mqttClientInit p old commandTimeoutMs sendbuf readbuf world).client with
              messageHandlers := slots } } ∧
      ∀ (topicName : MQTTString) (message : MQTTMessage) (t : Client ω τ H),
        ∃ entries : List (CString × H), (entries.map Prod.fst).Nodup ∧
          (∀ topicFilter fp, (topicFilter, fp) ∈ entries ↔
            m.value topicFilter = some fp ∧ takes topicName topicFilter = true) ∧
          ∃ fps, fps = (if entries = [] then t.client.defaultMessageHandler.toList
              else entries.map Prod.snd) ∧
            deliverMessage p topicName message { t with
                client := { t.client with messageHandlers := slots } } =
              .ok (if fps = [] then failure else success) { t with
                client := { t.client with messageHandlers := slots }
                world := invokeAll p ⟨message, topicName⟩ fps t.world } := by
  have hcleared : TableOf (clearHandlers old.messageHandlers)
      (BoundedMap.empty : HandlerMap H old.messageHandlers.length) := .cleared rfl
  obtain ⟨slots, hrun, htable⟩ := tableCalls_refines calls
    (s := mqttClientInit p old commandTimeoutMs sendbuf readbuf world) hcleared
  refine ⟨slots, _, _, rfl, htable, hrun, fun topicName message t => ?_⟩
  obtain ⟨hnodup, hmem⟩ := htable.takers topicName
  refine ⟨takers topicName slots, hnodup, hmem, _, rfl, ?_⟩
  exact deliverMessage_called topicName message _

end ClientC
end MqttEmbedded
