import MqttEmbedded.Packet.Grammar
import MqttEmbedded.Packet.SerializeBounds

/-!
# SUBSCRIBE and UNSUBSCRIBE, encoded and decoded

After the identifier comes a list of filters, for SUBSCRIBE each with a quality of
service. The deserialisers of `MQTTSubscribeServer.c` and `MQTTUnsubscribeServer.c`
take one entry after the other off the body; what they do is what the grammar of
entries says, as far as the arrays of the caller reach.
-/

namespace MqttEmbedded

open Region Entries

/-- `entries` are the members counted. -/
structure RequestFields (entry : Type) where
  dup : ℕ
  packetid : Option ℕ
  entries : List entry

section

variable (buf : List UInt8) (maxcount capacity enddata : ℕ)

/-- The arrays of the caller have `capacity` members. A store past them has no result, nor has a
loop that goes on for more than `rounds` rounds. -/
def subscribeReadLoop : ℕ → ℕ → List (MQTTString × ℤ) → Option (ℤ × List (MQTTString × ℤ))
  | 0, _, _ => none
  | rounds + 1, curdata, entries =>
    if curdata < enddata then
      if entries.length = maxcount then some (mqttpacketReadError, entries)
      else if entries.length < capacity then do
        match ← readMQTTLenString buf curdata enddata with
        | .refused _ => some (mqttpacketReadError, entries)
        | .read topicFilter curdata =>
          if enddata ≤ curdata then some (mqttpacketReadError, entries)
          else
            let requestedQoS ← readChar buf curdata
            subscribeReadLoop rounds (curdata + 1) (entries ++ [(topicFilter, requestedQoS)])
      else none
    else some (1, entries)

def mqttDeserializeSubscribe : Option (ℤ × Option (RequestFields (MQTTString × ℤ))) := do
  let header ← buf[0]?
  if MQTTHeader.type header ≠ MsgType.subscribe.code then some (mqttpacketReadError, none)
  else
    let dup := MQTTHeader.dup header
    let (rc, mylen) ← mqttPacketDecodeBuf buf 1
    if rc = 0 then some (rc, some ⟨dup, none, []⟩)
    else
      let curdata := 1 + rc
      let enddata := curdata + mylen
      let packetid ← readInt buf curdata
      let (rc, entries) ←
        subscribeReadLoop buf maxcount capacity enddata (mylen + 1) (curdata + 2) []
      some (rc, some ⟨dup, some packetid, entries⟩)

/-- On the way out for a filter that does not fit, `rc` is still the size of the length
field. -/
def unsubscribeReadLoop (rc : ℤ) : ℕ → ℕ → List MQTTString → Option (ℤ × List MQTTString)
  | 0, _, _ => none
  | rounds + 1, curdata, topicFilters =>
    if curdata < enddata then
      if topicFilters.length < capacity then do
        match ← readMQTTLenString buf curdata enddata with
        | .refused _ => some (rc, topicFilters)
        | .read topicFilter curdata =>
          unsubscribeReadLoop rc rounds curdata (topicFilters ++ [topicFilter])
      else none
    else some (1, topicFilters)

end

/-- `maxcount` is taken and not looked at. -/
def mqttDeserializeUnsubscribe (buf : List UInt8) (_maxcount capacity : ℕ) :
    Option (ℤ × Option (RequestFields MQTTString)) := do
  let header ← buf[0]?
  if MQTTHeader.type header ≠ MsgType.unsubscribe.code then some (0, none)
  else
    let dup := MQTTHeader.dup header
    let (rc, mylen) ← mqttPacketDecodeBuf buf 1
    let curdata := 1 + rc
    let enddata := curdata + mylen
    let packetid ← readInt buf curdata
    let (rc, topicFilters) ←
      unsubscribeReadLoop buf capacity enddata rc (mylen + 1) (curdata + 2) []
    some (rc, some ⟨dup, some packetid, topicFilters⟩)

/-- A filter and a quality of service, as they stand in a SUBSCRIBE. -/
def subscription : Format UInt8 (Text × UInt8) where
  write := fun (filter, qos) => stringBytes filter.bytes ++ [qos]
  next := fun xs =>
    match nextText xs with
    | some (filter, qos :: rest) => some ((filter, qos), rest)
    | _ => none
  next_eq_some := by
    rintro xs ⟨filter, qos⟩ rest
    constructor
    · intro h
      split at h
      · rename_i filter' qos' rest' hnext
        rw [nextText_eq_some] at hnext
        obtain ⟨hentry, rfl⟩ := Prod.mk.inj (Option.some.inj h)
        obtain ⟨rfl, rfl⟩ := Prod.mk.inj hentry
        rw [hnext, List.append_assoc, List.singleton_append]
      · exact nomatch h
    · rintro rfl
      rw [List.append_assoc, List.singleton_append,
        (nextText_eq_some _ filter (qos :: rest)).mpr rfl]
  write_ne_nil := fun entry h => by simpa using congrArg List.length h

/-- What the deserialiser stores of an entry. -/
def storedEntry (entry : Text × UInt8) (after : List UInt8) : MQTTString × ℤ :=
  (entry.1.slice (entry.2 :: after), signedChar entry.2)

section

variable {buf xs tail : List UInt8} {maxcount capacity curdata enddata rounds : ℕ}

/-- The loop stores the entries that the body begins with, as many as there may be. -/
theorem subscribeReadLoop_split (entries : List (MQTTString × ℤ))
    (h : buf.drop curdata = xs ++ tail) (hend : enddata = curdata + xs.length)
    (hrounds : xs.length < rounds) (hcount : entries.length ≤ maxcount)
    (hroom : min maxcount (entries.length + subscription.begun xs) ≤ capacity) :
    subscribeReadLoop buf maxcount capacity enddata rounds curdata entries =
      some (if (subscription.split xs).2 = [] ∧
          entries.length + (subscription.split xs).1.length ≤ maxcount
        then 1 else mqttpacketReadError,
        entries ++ (subscription.tellAll storedEntry ((subscription.split xs).2 ++ tail)
          (subscription.split xs).1).take (maxcount - entries.length)) := by
  induction rounds generalizing xs curdata entries with
  | zero => omega
  | succ rounds ih =>
    by_cases hxs : xs = []
    · have hge : ¬ curdata < enddata := by
        rw [hend, hxs]
        simp
      simp [subscribeReadLoop, hge, hxs, hcount]
    · have hpos := List.length_pos_iff.mpr hxs
      have hbegun := subscription.begun_pos hxs
      rw [subscribeReadLoop, if_pos (by omega)]
      by_cases hfull : entries.length = maxcount
      · have hlong : ¬ ((subscription.split xs).2 = [] ∧
            entries.length + (subscription.split xs).1.length ≤ maxcount) := by
          rintro ⟨hrest, hle⟩
          simp only [Format.begun, hrest, List.length_nil] at hbegun
          omega
        rw [if_pos hfull, if_neg hlong, hfull, Nat.sub_self, List.take_zero, List.append_nil]
      · rw [if_neg hfull, if_pos (by omega), readMQTTLenString_next h hend]
        simp only [Option.bind_eq_bind, Option.bind_some]
        cases hnext : nextText xs with
        | none =>
          have hnone : subscription.next xs = none := by simp only [subscription, hnext]
          simp [textRead_of_none hnext, subscription.split_of_none hnone, hxs]
        | some next =>
          obtain ⟨filter, following⟩ := next
          cases following with
          | nil =>
            have hnone : subscription.next xs = none := by simp only [subscription, hnext]
            have hlength := length_of_nextText hnext
            rw [List.length_nil] at hlength
            have hge : enddata ≤ curdata + 2 + filter.bytes.length := by omega
            simp [textRead_of_some hnext, subscription.split_of_none hnone, hxs, hge]
          | cons qos rest =>
            have hsome : subscription.next xs = some ((filter, qos), rest) := by
              simp only [subscription, hnext]
            have hlength := length_of_nextText hnext
            rw [List.length_cons] at hlength
            have hlt : ¬ enddata ≤ curdata + 2 + filter.bytes.length := by omega
            have hdrop : buf.drop (curdata + 2 + filter.bytes.length) = qos :: (rest ++ tail) :=
              drop_of_nextText h hnext
            have hdrop' : buf.drop (curdata + 2 + filter.bytes.length + 1) = rest ++ tail :=
              drop_of_drop (show _ = [qos] ++ (rest ++ tail) from hdrop)
            rw [subscription.begun_of_some hsome] at hroom
            have hstored : (entries ++ [storedEntry (filter, qos) (rest ++ tail)]).length =
                entries.length + 1 := by simp
            have hrest := ih (entries ++ [storedEntry (filter, qos) (rest ++ tail)]) hdrop'
              (by omega) (by omega) (by omega) (by omega)
            have hplace : subscription.writeAll (subscription.split rest).1 ++
                ((subscription.split rest).2 ++ tail) = rest ++ tail := by
              rw [← List.append_assoc, subscription.writeAll_split]
            have hleft : maxcount - entries.length = maxcount - (entries.length + 1) + 1 := by omega
            have hcomm (n : ℕ) : entries.length + 1 + n = entries.length + (n + 1) := by omega
            rw [textRead_of_some hnext]
            simp only [hlt, if_false, readChar_eq hdrop, Option.bind_some]
            refine hrest.trans ?_
            rw [subscription.split_of_some hsome, hstored, hleft]
            simp only [Format.tellAll_cons, hplace, List.take_succ_cons, List.append_assoc,
              List.singleton_append, List.length_cons, hcomm]

/-- The loop stores all the filters that the body begins with, if the array has room for
them and for the one that is begun in vain. -/
theorem unsubscribeReadLoop_split (capacity : ℕ) (rc : ℤ) (topicFilters : List MQTTString)
    (h : buf.drop curdata = xs ++ tail) (hend : enddata = curdata + xs.length)
    (hrounds : xs.length < rounds) :
    unsubscribeReadLoop buf capacity enddata rc rounds curdata topicFilters =
      if xs = [] ∨ topicFilters.length + textFormat.begun xs ≤ capacity then
        some (if (textFormat.split xs).2 = [] then 1 else rc,
          topicFilters ++ textFormat.tellAll Text.slice ((textFormat.split xs).2 ++ tail)
            (textFormat.split xs).1)
      else none := by
  induction rounds generalizing xs curdata topicFilters with
  | zero => omega
  | succ rounds ih =>
    by_cases hxs : xs = []
    · have hge : ¬ curdata < enddata := by
        rw [hend, hxs]
        simp
      simp [unsubscribeReadLoop, hge, hxs]
    · have hpos := List.length_pos_iff.mpr hxs
      have hbegun := textFormat.begun_pos hxs
      rw [unsubscribeReadLoop, if_pos (by omega)]
      simp only [hxs, false_or]
      by_cases hroom : topicFilters.length < capacity
      · rw [if_pos hroom, readMQTTLenString_next h hend]
        simp only [Option.bind_eq_bind, Option.bind_some]
        cases hnext : nextText xs with
        | none =>
          have hone := textFormat.begun_of_none hnext hxs
          have hle : topicFilters.length + textFormat.begun xs ≤ capacity := by omega
          simp [textRead_of_none hnext, textFormat.split_of_none hnext, hxs, hle]
        | some result =>
          obtain ⟨filter, rest⟩ := result
          have hlength := length_of_nextText hnext
          have hrest := ih (topicFilters ++ [filter.slice (rest ++ tail)])
            (drop_of_nextText h hnext) (by omega) (by omega)
          have hplace : textFormat.writeAll (textFormat.split rest).1 ++
              ((textFormat.split rest).2 ++ tail) = rest ++ tail := by
            rw [← List.append_assoc, textFormat.writeAll_split]
          have hfits : (rest = [] ∨ topicFilters.length + 1 + textFormat.begun rest ≤ capacity) ↔
              topicFilters.length + textFormat.begun xs ≤ capacity := by
            rw [textFormat.begun_of_some hnext]
            constructor
            · rintro (rfl | hle)
              · simp [Format.begun]
                omega
              · omega
            · intro hle
              exact .inr (by omega)
          rw [textRead_of_some hnext]
          refine hrest.trans ?_
          rw [textFormat.split_of_some hnext]
          simp only [List.length_append, List.length_singleton, hfits, Format.tellAll_cons, hplace,
            List.append_assoc, List.singleton_append]
      · rw [if_neg hroom, if_neg (by omega)]

end

section

variable {w : WireFrame} {id : UInt16} {xs : List UInt8}

theorem readInt_id (hbody : w.body = intBytes id.toNat ++ xs) (tail : List UInt8) :
    readInt (w.bytes ++ tail) (1 + w.field.length) = some id.toNat ∧
      (w.bytes ++ tail).drop (1 + w.field.length + 2) = xs ++ tail ∧
      1 + w.field.length + w.body.length = 1 + w.field.length + 2 + xs.length := by
  have hdrop := w.drop_body tail
  have hlength := congrArg List.length hbody
  rw [List.length_append, length_intBytes] at hlength
  rw [hbody, List.append_assoc] at hdrop
  exact ⟨readInt_eq id.toNat_lt hdrop, drop_of_drop hdrop, by omega⟩

theorem mqttDeserializeSubscribe_frame {maxcount capacity : ℕ}
    (htype : w.type = MsgType.subscribe.code)
    (hbody : w.body = intBytes id.toNat ++ xs) (tail : List UInt8)
    (hroom : min maxcount (subscription.begun xs) ≤ capacity) :
    mqttDeserializeSubscribe (w.bytes ++ tail) maxcount capacity = some
      (if (subscription.split xs).2 = [] ∧ (subscription.split xs).1.length ≤ maxcount
        then 1 else mqttpacketReadError,
      some ⟨MQTTHeader.dup w.header, some id.toNat,
        (subscription.tellAll storedEntry ((subscription.split xs).2 ++ tail)
          (subscription.split xs).1).take maxcount⟩) := by
  obtain ⟨hid, hdrop, hend⟩ := readInt_id hbody tail
  have htype' : MQTTHeader.type w.header = MsgType.subscribe.code := htype
  have hfield : w.field.length ≠ 0 := w.isField.length_pos.ne'
  have hrounds : xs.length < w.body.length + 1 := by omega
  have hloop := subscribeReadLoop_split [] hdrop hend hrounds (Nat.zero_le maxcount)
    (by simpa using hroom)
  unfold mqttDeserializeSubscribe
  simp only [w.head_bytes, htype', ne_eq, not_true_eq_false, if_false, w.decodeBuf, hfield, hid,
    hloop, Option.bind_eq_bind, Option.bind_some, List.length_nil, Nat.zero_add, List.nil_append,
    Nat.sub_zero]

theorem mqttDeserializeUnsubscribe_frame (maxcount capacity : ℕ)
    (htype : w.type = MsgType.unsubscribe.code) (hbody : w.body = intBytes id.toNat ++ xs)
    (tail : List UInt8) :
    mqttDeserializeUnsubscribe (w.bytes ++ tail) maxcount capacity =
      if textFormat.begun xs ≤ capacity then some
        (if (textFormat.split xs).2 = [] then 1 else (w.field.length : ℤ),
        some ⟨MQTTHeader.dup w.header, some id.toNat,
          textFormat.tellAll Text.slice ((textFormat.split xs).2 ++ tail) (textFormat.split xs).1⟩)
      else none := by
  obtain ⟨hid, hdrop, hend⟩ := readInt_id hbody tail
  have htype' : MQTTHeader.type w.header = MsgType.unsubscribe.code := htype
  have hrounds : xs.length < w.body.length + 1 := by omega
  have hloop := unsubscribeReadLoop_split capacity w.field.length [] hdrop hend hrounds
  have hfits : (xs = [] ∨ 0 + textFormat.begun xs ≤ capacity) ↔
      textFormat.begun xs ≤ capacity := by
    rw [Nat.zero_add, or_iff_right_iff_imp]
    rintro rfl
    simp [Format.begun]
  simp only [List.length_nil, hfits] at hloop
  unfold mqttDeserializeUnsubscribe
  simp only [w.head_bytes, htype', ne_eq, not_true_eq_false, if_false, w.decodeBuf, hid, hloop,
    Option.bind_eq_bind, Option.bind_some]
  split_ifs <;> rfl

end

section

variable (w : WireFrame) (maxcount : ℕ)

/-- The body is an identifier and at most `maxcount` entries. -/
def Lists {entry : Type} (f : Format UInt8 entry) (id : UInt16) (entries : List entry) : Prop :=
  w.body = intBytes id.toNat ++ f.writeAll entries ∧ entries.length ≤ maxcount

variable {w maxcount}

theorem Lists.split {entry : Type} {f : Format UInt8 entry} {id id' : UInt16}
    {entries : List entry} {xs : List UInt8} (h : Lists w maxcount f id entries)
    (hbody : w.body = intBytes id'.toNat ++ xs) :
    id = id' ∧ f.split xs = (entries, []) ∧ entries.length ≤ maxcount := by
  obtain ⟨hlists, hcount⟩ := h
  obtain ⟨rfl, hxs⟩ := id_unique (hlists.symm.trans hbody)
  exact ⟨rfl, f.eq_writeAll_iff.mp hxs.symm, hcount⟩

theorem exists_lists_iff {entry : Type} (f : Format UInt8 entry) {id : UInt16} {xs : List UInt8}
    (hbody : w.body = intBytes id.toNat ++ xs) :
    (∃ id' entries, Lists w maxcount f id' entries) ↔
      (f.split xs).2 = [] ∧ (f.split xs).1.length ≤ maxcount := by
  constructor
  · rintro ⟨id', entries, hlists⟩
    obtain ⟨-, hsplit, hcount⟩ := hlists.split hbody
    rw [hsplit]
    exact ⟨rfl, hcount⟩
  · rintro ⟨hrest, hcount⟩
    have hxs := f.eq_writeAll_iff.mpr (show f.split xs = (_, []) from Prod.ext rfl hrest)
    exact ⟨id, _, hbody.trans (congrArg _ hxs), hcount⟩

end

/-- The same of UNSUBSCRIBE. -/
def AcceptsFilters (w : WireFrame) (maxcount : ℕ) : Prop :=
  ∃ rc fields, mqttDeserializeUnsubscribe w.bytes maxcount maxcount = some (rc, some fields) ∧
    (rc = 1 ↔ ∃ id topicFilters, Lists w maxcount textFormat id topicFilters) ∧
    ∀ id topicFilters, Lists w maxcount textFormat id topicFilters →
      fields = ⟨MQTTHeader.dup w.header, some id.toNat,
        textFormat.tellAll Text.slice [] topicFilters⟩

/-- There is an identifier, the array has a member for every filter that is begun, and if
the last one is not complete then the size of the length field is not taken for success. -/
def FiltersTold (w : WireFrame) (maxcount : ℕ) : Prop :=
  2 ≤ w.body.length ∧ textFormat.begun (w.body.drop 2) ≤ maxcount ∧
    ((textFormat.split (w.body.drop 2)).2 = [] ∨ w.field.length ≠ 1)

theorem mqttDeserializeUnsubscribe_short {w : WireFrame} (maxcount capacity : ℕ)
    (htype : w.type = MsgType.unsubscribe.code) (hlen : w.body.length < 2) :
    mqttDeserializeUnsubscribe w.bytes maxcount capacity = none := by
  have htype' : MQTTHeader.type w.header = MsgType.unsubscribe.code := htype
  have hdecode := w.decodeBuf []
  have hhead := w.head_bytes []
  rw [List.append_nil] at hdecode hhead
  have hnone : w.bytes[1 + w.field.length + 1]? = none := by
    rw [List.getElem?_eq_none_iff, w.length_bytes]
    omega
  have hread : readInt w.bytes (1 + w.field.length) = none := by
    simp only [readInt, hnone, Option.bind_eq_bind, Option.bind_none, Option.bind_fun_none]
  simp only [mqttDeserializeUnsubscribe, hhead, htype', ne_eq, not_true_eq_false, if_false,
    hdecode, hread, Option.bind_eq_bind, Option.bind_some, Option.bind_none]

/-- Filters are accepted as they should be where the array has been made large enough, and
what is not a list of them is not hidden by the size of the length field. -/
theorem mqttDeserializeUnsubscribe_accepts (w : WireFrame) (maxcount : ℕ)
    (htype : w.type = MsgType.unsubscribe.code) :
    AcceptsFilters w maxcount ↔ FiltersTold w maxcount := by
  by_cases hlen : 2 ≤ w.body.length
  · obtain ⟨id, hbody⟩ := exists_id hlen
    have hcall := mqttDeserializeUnsubscribe_frame maxcount maxcount htype hbody []
    rw [List.append_nil, List.append_nil] at hcall
    by_cases hbegun : textFormat.begun (w.body.drop 2) ≤ maxcount
    · rw [if_pos hbegun] at hcall
      constructor
      · rintro ⟨rc, fields, hresult, haccepted, -⟩
        rw [hcall] at hresult
        obtain ⟨rfl, -⟩ := Prod.mk.inj (Option.some.inj hresult)
        rw [exists_lists_iff textFormat hbody] at haccepted
        refine ⟨hlen, hbegun, or_iff_not_imp_left.mpr fun hrest hone => ?_⟩
        rw [if_neg hrest, hone] at haccepted
        exact hrest (haccepted.mp rfl).1
      · rintro ⟨-, -, htold⟩
        refine ⟨_, _, hcall, ?_, ?_⟩
        · rw [exists_lists_iff textFormat hbody]
          by_cases hrest : (textFormat.split (w.body.drop 2)).2 = []
          · simp only [Format.begun, hrest, List.length_nil] at hbegun
            rw [if_pos hrest]
            exact iff_of_true rfl ⟨hrest, by omega⟩
          · have hfield := htold.resolve_left hrest
            rw [if_neg hrest]
            exact iff_of_false (by omega) fun h => hrest h.1
        · intro id' topicFilters hlists
          obtain ⟨rfl, hsplit, -⟩ := hlists.split hbody
          rw [hsplit]
    · rw [if_neg hbegun] at hcall
      constructor
      · rintro ⟨rc, fields, hresult, -⟩
        rw [hcall] at hresult
        cases hresult
      · exact fun h => absurd h.2.1 hbegun
  · have hnone := mqttDeserializeUnsubscribe_short maxcount maxcount htype (not_le.mp hlen)
    constructor
    · rintro ⟨rc, fields, hresult, -⟩
      rw [hnone] at hresult
      cases hresult
    · exact fun h => absurd h.1 hlen

/-- Two filters without a character. -/
def twoFilters : WireFrame := ⟨0xA2, [6], [0, 1, 0, 0, 0, 0], .last (by decide), by decide⟩

theorem mqttDeserializeUnsubscribe_accepts_two : AcceptsFilters twoFilters 2 :=
  (mqttDeserializeUnsubscribe_accepts twoFilters 2 rfl).mpr
    ⟨by decide, by decide, .inl (by decide)⟩

/-- Where only one is expected, the other is stored after the end of the array. -/
theorem mqttDeserializeUnsubscribe_not_accepts :
    twoFilters.type = MsgType.unsubscribe.code ∧ ¬ AcceptsFilters twoFilters 1 := by
  have hcall : mqttDeserializeUnsubscribe twoFilters.bytes 1 1 = none := rfl
  refine ⟨rfl, ?_⟩
  rintro ⟨rc, fields, hresult, -⟩
  rw [hcall] at hresult
  exact nomatch hresult

theorem exists_subscriptions {filters : List MQTTString} {qoss : List ℤ}
    (hfilters : ∀ filter ∈ filters, Sendable filter) (hqoss : ∀ qos ∈ qoss, qos ∈ [0, 1, 2])
    (hlen : qoss.length = filters.length) :
    ∃ entries, subscribeEntries filters qoss = subscription.writeAll entries ∧
      entries.map (fun entry => entry.1.bytes) = filters.map MQTTString.text ∧
      entries.map (fun entry => signedChar entry.2) = qoss := by
  induction filters generalizing qoss with
  | nil =>
    rw [List.length_nil, List.length_eq_zero_iff] at hlen
    subst hlen
    exact ⟨[], rfl, rfl, rfl⟩
  | cons filter filters ih =>
    cases qoss with
    | nil => exact nomatch hlen
    | cons qos qoss =>
      obtain ⟨entries, hbytes, htexts, hvalues⟩ := ih
        (fun filter' hmem => hfilters filter' (List.mem_cons_of_mem _ hmem))
        (fun qos' hmem => hqoss qos' (List.mem_cons_of_mem _ hmem)) (Nat.succ.inj hlen)
      obtain ⟨t, ht⟩ := exists_text (hfilters filter List.mem_cons_self)
      have hqos : signedChar (UInt8.ofInt qos) = qos := by
        have hmem := hqoss qos List.mem_cons_self
        simp only [List.mem_cons, List.not_mem_nil, or_false] at hmem
        exact signedChar_ofInt (by omega) (by omega)
      refine ⟨(t, UInt8.ofInt qos) :: entries, ?_, ?_, ?_⟩
      · rw [subscribeEntries, hbytes, ← ht, Format.writeAll_cons]
        simp [subscription]
      · rw [List.map_cons, List.map_cons, htexts, ht]
      · rw [List.map_cons, hvalues, hqos]

theorem exists_filters {filters : List MQTTString}
    (hfilters : ∀ filter ∈ filters, Sendable filter) :
    ∃ entries, unsubscribeEntries filters = textFormat.writeAll entries ∧
      entries.map Text.bytes = filters.map MQTTString.text := by
  induction filters with
  | nil => exact ⟨[], rfl, rfl⟩
  | cons filter filters ih =>
    obtain ⟨entries, hbytes, htexts⟩ := ih
      fun filter' hmem => hfilters filter' (List.mem_cons_of_mem _ hmem)
    obtain ⟨t, ht⟩ := exists_text (hfilters filter List.mem_cons_self)
    refine ⟨t :: entries, ?_, ?_⟩
    · rw [Format.writeAll_cons, ← hbytes]
      simp [unsubscribeEntries, textFormat, ht]
    · rw [List.map_cons, List.map_cons, htexts, ht]

def SubscribeInverse : Prop :=
  ∀ (dup : UInt8) (packetid : UInt16) (topicFilters : List MQTTString) (requestedQoSs : List ℤ)
    (buf : List UInt8) (maxcount capacity : ℕ), dup.toNat ≤ 1 →
    (∀ filter ∈ topicFilters, Sendable filter) → (∀ qos ∈ requestedQoSs, qos ∈ [0, 1, 2]) →
    requestedQoSs.length = topicFilters.length →
    mqttSerializeSubscribeLength topicFilters ≤ maxRemainingLength →
    mqttPacketLen (mqttSerializeSubscribeLength topicFilters) ≤ buf.length →
    topicFilters.length ≤ maxcount → topicFilters.length ≤ capacity →
    ∃ result, mqttSerializeSubscribe buf dup packetid topicFilters requestedQoSs = some result ∧
      ∀ tail, ∃ fields,
        mqttDeserializeSubscribe (written result ++ tail) maxcount capacity =
          some (1, some fields) ∧
        fields.dup = dup.toNat ∧ fields.packetid = some packetid.toNat ∧
        fields.entries.map (fun entry => entry.1.text) = topicFilters.map MQTTString.text ∧
        fields.entries.map Prod.snd = requestedQoSs

def UnsubscribeInverse : Prop :=
  ∀ (dup : UInt8) (packetid : UInt16) (topicFilters : List MQTTString) (buf : List UInt8)
    (maxcount capacity : ℕ), dup.toNat ≤ 1 → (∀ filter ∈ topicFilters, Sendable filter) →
    mqttSerializeUnsubscribeLength topicFilters ≤ maxRemainingLength →
    mqttPacketLen (mqttSerializeUnsubscribeLength topicFilters) ≤ buf.length →
    topicFilters.length ≤ capacity →
    ∃ result, mqttSerializeUnsubscribe buf dup packetid topicFilters = some result ∧
      ∀ tail, ∃ fields,
        mqttDeserializeUnsubscribe (written result ++ tail) maxcount capacity =
          some (1, some fields) ∧
        fields.dup = dup.toNat ∧ fields.packetid = some packetid.toNat ∧
        fields.entries.map MQTTString.text = topicFilters.map MQTTString.text

theorem subscribeInverse : SubscribeInverse := by
  intro dup packetid topicFilters requestedQoSs buf maxcount capacity hdup hfilters hqoss hlen hmax
    hroom hcount hcapacity
  obtain ⟨entries, hentries, htexts, hvalues⟩ := exists_subscriptions hfilters hqoss hlen
  have hone : ∀ filter ∈ topicFilters, filter.OneForm := fun filter hmem => (hfilters filter hmem).1
  have hbody : (intBytes packetid.toNat ++ subscribeEntries topicFilters requestedQoSs).length =
      mqttSerializeSubscribeLength topicFilters := by
    rw [List.length_append, length_intBytes]
    exact (length_subscribeEntries topicFilters requestedQoSs 2 hone hlen.ge).symm
  have hnumber : entries.length = topicFilters.length := by
    rw [← List.length_map (fun entry : Text × UInt8 => entry.1.bytes), htexts, List.length_map]
  have hcall : mqttSerializeSubscribe buf dup packetid topicFilters requestedQoSs = _ :=
    mqttSerializeSubscribe_eq buf hone hlen.ge (lt_of_le_maxRemainingLength hmax)
  obtain ⟨result, hresult, hwritten⟩ := written_of_eq hmax hbody hroom hcall
  rw [← hbody] at hmax
  refine ⟨result, hresult, fun tail => ?_⟩
  have hbegun : min maxcount (subscription.begun (subscription.writeAll entries)) ≤ capacity := by
    rw [subscription.begun_writeAll]
    omega
  have hsplit := subscription.eq_writeAll_iff.mp
    (show subscription.writeAll entries = subscription.writeAll entries from rfl)
  have hread := mqttDeserializeSubscribe_frame (w := frameOf (subscribeHeader dup) _ hmax)
    (MQTTHeader.type_ofBits_code _ _ _ _) (congrArg (intBytes packetid.toNat ++ ·) hentries) tail
    hbegun
  have hbytes : (frameOf (subscribeHeader dup) _ hmax).bytes = written result := hwritten.symm
  have hfits : entries.length ≤ maxcount := by omega
  have htaken : (subscription.tellAll storedEntry ([] ++ tail) entries).length ≤ maxcount := by
    rwa [Format.length_tellAll]
  rw [hbytes, hsplit, if_pos ⟨rfl, hfits⟩, List.take_of_length_le htaken] at hread
  refine ⟨_, hread, ?_, rfl, ?_, ?_⟩
  · simp only [frameOf, subscribeHeader, MQTTHeader.dup_ofBits]
    omega
  · exact (subscription.map_tellAll storedEntry _ (fun entry rest =>
      entry.1.text_slice (entry.2 :: rest)) entries).trans htexts
  · exact (subscription.map_tellAll storedEntry _ (fun _ _ => rfl) entries).trans hvalues

theorem unsubscribeInverse : UnsubscribeInverse := by
  intro dup packetid topicFilters buf maxcount capacity hdup hfilters hmax hroom hcapacity
  obtain ⟨entries, hentries, htexts⟩ := exists_filters hfilters
  have hone : ∀ filter ∈ topicFilters, filter.OneForm := fun filter hmem => (hfilters filter hmem).1
  have hbody : (intBytes packetid.toNat ++ unsubscribeEntries topicFilters).length =
      mqttSerializeUnsubscribeLength topicFilters := by
    rw [List.length_append, length_intBytes]
    exact (length_unsubscribeEntries topicFilters 2 hone).symm
  have hnumber : entries.length = topicFilters.length := by
    rw [← List.length_map Text.bytes, htexts, List.length_map]
  have hcall : mqttSerializeUnsubscribe buf dup packetid topicFilters = _ :=
    mqttSerializeUnsubscribe_eq buf hone (lt_of_le_maxRemainingLength hmax)
  obtain ⟨result, hresult, hwritten⟩ := written_of_eq hmax hbody hroom hcall
  rw [← hbody] at hmax
  refine ⟨result, hresult, fun tail => ?_⟩
  have hbegun : textFormat.begun (textFormat.writeAll entries) ≤ capacity := by
    rw [textFormat.begun_writeAll]
    omega
  have hsplit := textFormat.eq_writeAll_iff.mp
    (show textFormat.writeAll entries = textFormat.writeAll entries from rfl)
  have hread := mqttDeserializeUnsubscribe_frame (w := frameOf (unsubscribeHeader dup) _ hmax)
    maxcount capacity (MQTTHeader.type_ofBits_code _ _ _ _)
    (congrArg (intBytes packetid.toNat ++ ·) hentries) tail
  have hbytes : (frameOf (unsubscribeHeader dup) _ hmax).bytes = written result := hwritten.symm
  rw [hbytes, hsplit, if_pos hbegun, if_pos rfl] at hread
  refine ⟨_, hread, ?_, rfl, ?_⟩
  · simp only [frameOf, unsubscribeHeader, MQTTHeader.dup_ofBits]
    omega
  · exact (textFormat.map_tellAll _ _ (fun t rest => t.text_slice rest) entries).trans htexts

/-- What has been encoded is decoded to the same requests. -/
theorem requests_inverse : SubscribeInverse ∧ UnsubscribeInverse :=
  ⟨subscribeInverse, unsubscribeInverse⟩

end MqttEmbedded
