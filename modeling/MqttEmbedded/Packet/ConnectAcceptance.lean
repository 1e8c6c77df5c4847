import MqttEmbedded.Packet.ConnectCodec

/-!
# What is accepted as a CONNECT

The strings of a CONNECT are read up to the end of the buffer, whatever the remaining length
says; between the first string and the last ones no one asks whether there is another byte;
and of the name of the protocol only as many characters are compared as the sender has given.
-/

namespace MqttEmbedded

open Region

/-- If the string is given, the bytes begin with it and this is the slice; `rest` is left. -/
def HoldsString (given : Prop) [Decidable given] (bytes rest : List UInt8)
    (before s : MQTTString) : Prop :=
  if given then ∃ t : Text, bytes = stringBytes t.bytes ++ rest ∧ s = t.slice rest
  else bytes = rest ∧ s = before

/-- What is left after a string, if it is complete. -/
def stringRest (given : Prop) [Decidable given] (bytes : List UInt8) : Option (List UInt8) :=
  if given then (nextText bytes).map Prod.snd else some bytes

/-- A user name or a password at the end of the buffer is taken for one only if it has a
character. -/
def credentialRest (given : Prop) [Decidable given] (bytes : List UInt8) : Option (List UInt8) :=
  if given ∧ bytes.length < 3 then none else stringRest given bytes

/-- What is left after the user name and the password. -/
def credentialsRest (flags : UInt8) (bytes : List UInt8) : Option (List UInt8) :=
  if ConnectFlags.username flags = 0 ∧ ConnectFlags.password flags ≠ 0 then none
  else (credentialRest (ConnectFlags.username flags ≠ 0) bytes).bind
    (credentialRest (ConnectFlags.password flags ≠ 0))

/-- What is left after the topic and the message of the will. -/
def willRest (flags : UInt8) (bytes : List UInt8) : Option (List UInt8) :=
  (stringRest (ConnectFlags.will flags ≠ 0) bytes).bind
    (stringRest (ConnectFlags.will flags ≠ 0))

/-- What is left after the strings, from the client id on. -/
def stringsRest (flags : UInt8) (bytes : List UInt8) : Option (List UInt8) :=
  ((stringRest True bytes).bind (willRest flags)).bind (credentialsRest flags)

def HoldsWill (flags : UInt8) (bytes rest : List UInt8) (before data : ConnectData) : Prop :=
  ∃ mid, HoldsString (ConnectFlags.will flags ≠ 0) bytes mid before.will.topicName
      data.will.topicName ∧
    HoldsString (ConnectFlags.will flags ≠ 0) mid rest before.will.message data.will.message

def HoldsCredentials (flags : UInt8) (bytes rest : List UInt8) (before data : ConnectData) :
    Prop :=
  ∃ mid, HoldsString (ConnectFlags.username flags ≠ 0) bytes mid before.username data.username ∧
    HoldsString (ConnectFlags.password flags ≠ 0) mid rest before.password data.password

/-- The strings are those that the bytes hold, in their order. -/
def HoldsStrings (flags : UInt8) (bytes rest : List UInt8) (before data : ConnectData) : Prop :=
  ∃ b₁ b₂, HoldsString True bytes b₁ before.clientID data.clientID ∧
    HoldsWill flags b₁ b₂ before data ∧ HoldsCredentials flags b₂ rest before data

section

variable {given : Prop} [Decidable given] {bytes rest : List UInt8} {before s : MQTTString}
  {flags : UInt8} {data data' : ConnectData}

theorem HoldsString.of_given {t : Text} (hgiven : given) (h : nextText bytes = some (t, rest)) :
    HoldsString given bytes rest before (t.slice rest) := by
  rw [HoldsString, if_pos hgiven]
  exact ⟨t, (nextText_eq_some bytes t rest).mp h, rfl⟩

theorem HoldsString.of_not_given (hgiven : ¬ given) : HoldsString given bytes bytes s s := by
  rw [HoldsString, if_neg hgiven]
  exact ⟨rfl, rfl⟩

theorem HoldsString.rest_eq (h : HoldsString given bytes rest before s) :
    stringRest given bytes = some rest := by
  unfold HoldsString at h
  unfold stringRest
  split_ifs at h ⊢
  · obtain ⟨t, hbytes, -⟩ := h
    rw [(nextText_eq_some bytes t rest).mpr hbytes]
    rfl
  · rw [h.1]

theorem stringRest_of_credentialRest (h : credentialRest given bytes = some rest) :
    stringRest given bytes = some rest := by
  unfold credentialRest at h
  split_ifs at h
  exact h

theorem HoldsStrings.rest_eq {left : List UInt8} (h : HoldsStrings flags bytes left data data')
    (hrest : stringsRest flags bytes = some rest) : left = rest := by
  obtain ⟨b₁, b₂, hclient, ⟨b₃, htopic, hmessage⟩, b₄, hname, hword⟩ := h
  rw [stringsRest, hclient.rest_eq, Option.bind_some, willRest, htopic.rest_eq, Option.bind_some,
    hmessage.rest_eq, Option.bind_some, credentialsRest] at hrest
  split_ifs at hrest
  obtain ⟨b₄', hname', hword'⟩ := Option.bind_eq_some_iff.mp hrest
  have hmid := stringRest_of_credentialRest hname'
  rw [hname.rest_eq] at hmid
  obtain rfl := Option.some.inj hmid
  have hend := stringRest_of_credentialRest hword'
  rw [hword.rest_eq] at hend
  exact Option.some.inj hend

end

section

variable {flags : UInt8} {buf rest : List UInt8} {curdata : ℕ} (data : ConnectData)

theorem readMQTTLenString_drop (buf : List UInt8) (curdata : ℕ) :
    readMQTTLenString buf curdata buf.length =
      some (textRead (buf.drop curdata) [] curdata) := by
  by_cases hle : curdata ≤ buf.length
  · have hend : buf.length = curdata + (buf.drop curdata).length := by
      rw [List.length_drop]
      omega
    exact readMQTTLenString_next (List.append_nil (buf.drop curdata)).symm hend
  · have hnone : buf.drop curdata = [] := List.drop_eq_nil_of_le (by omega)
    rw [hnone, readMQTTLenString, if_neg (by omega)]
    rfl

theorem textRead_last {xs : List UInt8} {t : Text} (hnext : nextText xs = some (t, rest)) :
    textRead xs [] curdata = .read (t.slice rest) (curdata + 2 + t.bytes.length) := by
  rw [textRead_of_some hnext, List.append_nil]

theorem drop_nextText {t : Text} (h : nextText (buf.drop curdata) = some (t, rest)) :
    buf.drop (curdata + 2 + t.bytes.length) = rest := by
  rw [drop_of_nextText (List.append_nil _).symm h, List.append_nil]

/-- The will is read, or is not complete. -/
theorem readWill_rest (flags : UInt8) (buf : List UInt8) (curdata : ℕ) :
    ∃ complete will curdata',
      readWill flags buf buf.length curdata data =
        some (complete, { data with will := will }, curdata') ∧
      if complete = true then
        willRest flags (buf.drop curdata) = some (buf.drop curdata') ∧
        HoldsWill flags (buf.drop curdata) (buf.drop curdata') data { data with will := will }
      else willRest flags (buf.drop curdata) = none := by
  unfold readWill willRest stringRest
  by_cases hwill : ConnectFlags.will flags ≠ 0
  · simp only [if_pos hwill, readMQTTLenString_drop, Option.bind_eq_bind, Option.bind_some]
    cases htopic : nextText (buf.drop curdata) with
    | none =>
      rw [textRead_of_none htopic]
      exact ⟨false, _, curdata, rfl, rfl⟩
    | some topic =>
      obtain ⟨topic, mid⟩ := topic
      have hmid := drop_nextText htopic
      simp only [textRead_last htopic, Option.map_some, Option.bind_some, hmid]
      cases hmessage : nextText mid with
      | none =>
        rw [textRead_of_none hmessage]
        exact ⟨false, _, _, rfl, rfl⟩
      | some message =>
        obtain ⟨message, rest⟩ := message
        rw [textRead_last hmessage]
        rw [← hmid] at hmessage
        have hrest := drop_nextText hmessage
        rw [hmid] at hmessage
        refine ⟨true, _, _, rfl, ?_⟩
        rw [if_pos rfl, hrest]
        exact ⟨rfl, mid, .of_given hwill htopic, .of_given hwill hmessage⟩
  · simp only [if_neg hwill]
    refine ⟨true, data.will, curdata, rfl, rfl, buf.drop curdata, ?_, ?_⟩
    · exact .of_not_given hwill
    · exact .of_not_given hwill

theorem credentialRest_of_given {given : Prop} [Decidable given] (hgiven : given) :
    credentialRest given (buf.drop curdata) =
      if buf.length < curdata + 3 then none
      else (nextText (buf.drop curdata)).map Prod.snd := by
  have hshort : (buf.drop curdata).length < 3 ↔ buf.length < curdata + 3 := by
    rw [List.length_drop]
    omega
  simp only [credentialRest, stringRest, hgiven, true_and, if_true, hshort]

theorem credentialRest_of_not_given {given : Prop} [Decidable given] (hgiven : ¬ given)
    (bytes : List UInt8) : credentialRest given bytes = some bytes := by
  simp only [credentialRest, stringRest, hgiven, false_and, if_false]

/-- User name and password are read, or one of them is missing. -/
theorem readCredentials_rest (flags : UInt8) (buf : List UInt8) (curdata : ℕ) :
    ∃ rc username password,
      readCredentials flags buf buf.length curdata data =
        some (rc, { data with username := username, password := password }) ∧
      (rc = 0 ∧ credentialsRest flags (buf.drop curdata) = none ∨
        rc = 1 ∧ ∃ rest, credentialsRest flags (buf.drop curdata) = some rest ∧
          HoldsCredentials flags (buf.drop curdata) rest data
            { data with username := username, password := password }) := by
  unfold readCredentials credentialsRest
  by_cases hname : ConnectFlags.username flags ≠ 0
  · have hboth : ¬ (ConnectFlags.username flags = 0 ∧ ConnectFlags.password flags ≠ 0) :=
      fun h => hname h.1
    rw [if_pos hname, if_neg hboth, credentialRest_of_given hname]
    by_cases hend : buf.length < curdata + 3
    · rw [if_pos hend, if_pos hend]
      exact ⟨0, _, _, rfl, .inl ⟨rfl, rfl⟩⟩
    · simp only [if_neg hend, readMQTTLenString_drop, Option.bind_eq_bind, Option.bind_some]
      cases htext : nextText (buf.drop curdata) with
      | none =>
        rw [textRead_of_none htext]
        exact ⟨0, _, _, rfl, .inl ⟨rfl, rfl⟩⟩
      | some text =>
        obtain ⟨name, mid⟩ := text
        have hmid := drop_nextText htext
        simp only [textRead_last htext, Option.map_some, Option.bind_some]
        by_cases hword : ConnectFlags.password flags ≠ 0
        · rw [if_pos hword, ← hmid, credentialRest_of_given hword]
          by_cases hend' : buf.length < curdata + 2 + name.bytes.length + 3
          · rw [if_pos hend', if_pos hend']
            exact ⟨0, _, _, rfl, .inl ⟨rfl, rfl⟩⟩
          · simp only [if_neg hend', hmid]
            cases htext' : nextText mid with
            | none =>
              rw [textRead_of_none htext']
              exact ⟨0, _, _, rfl, .inl ⟨rfl, rfl⟩⟩
            | some text' =>
              obtain ⟨word, rest⟩ := text'
              rw [textRead_last htext']
              refine ⟨1, _, _, rfl, .inr ⟨rfl, rest, rfl, mid, ?_, ?_⟩⟩
              · exact .of_given hname htext
              · exact .of_given hword htext'
        · rw [if_neg hword, credentialRest_of_not_given hword]
          refine ⟨1, _, _, rfl, .inr ⟨rfl, mid, rfl, mid, ?_, ?_⟩⟩
          · exact .of_given hname htext
          · exact .of_not_given hword
  · rw [if_neg hname]
    by_cases hword : ConnectFlags.password flags ≠ 0
    · rw [if_pos hword, if_pos ⟨not_not.mp hname, hword⟩]
      exact ⟨0, _, _, rfl, .inl ⟨rfl, rfl⟩⟩
    · rw [if_neg hword, if_neg fun h => hword h.2, credentialRest_of_not_given hname,
        Option.bind_some, credentialRest_of_not_given hword]
      refine ⟨1, data.username, data.password, rfl,
        .inr ⟨rfl, _, rfl, buf.drop curdata, ?_, ?_⟩⟩
      · exact .of_not_given hname
      · exact .of_not_given hword

/-- With the flags and the interval there, the strings are read, or one of them is missing. -/
theorem readOptions_rest {high low : UInt8} {bytes : List UInt8}
    (h : buf.drop curdata = flags :: high :: low :: bytes) :
    ∃ rc data', readOptions buf buf.length curdata data = some (rc, data') ∧
      (rc = 0 ∧ stringsRest flags bytes = none ∨
        rc = 1 ∧ ∃ rest, stringsRest flags bytes = some rest ∧
          HoldsStrings flags bytes rest data data') := by
  have hint : buf.drop (curdata + 1) = high :: low :: bytes :=
    drop_of_drop (show _ = [flags] ++ (high :: low :: bytes) from h)
  have hbytes : buf.drop (curdata + 3) = bytes :=
    drop_of_drop (show _ = [flags, high, low] ++ bytes from h)
  simp only [readOptions, getElem?_of_drop h, readInt_bytes hint, readMQTTLenString_drop, hbytes,
    Option.bind_eq_bind, Option.bind_some, stringsRest, stringRest, if_true]
  cases hclient : nextText bytes with
  | none =>
    rw [textRead_of_none hclient]
    exact ⟨0, _, rfl, .inl ⟨rfl, rfl⟩⟩
  | some client =>
    obtain ⟨client, b₁⟩ := client
    rw [textRead_last hclient]
    rw [← hbytes] at hclient
    have hdrop := drop_nextText hclient
    rw [hbytes] at hclient
    simp only [Option.map_some, Option.bind_some]
    obtain ⟨data', hdata'⟩ : ∃ data', data' = { data with
      cleansession := UInt8.ofNat (ConnectFlags.cleansession flags)
      keepAliveInterval := UInt16.ofNat (256 * high.toNat + low.toNat)
      clientID := client.slice b₁
      willFlag := UInt8.ofNat (ConnectFlags.will flags) } := ⟨_, rfl⟩
    obtain ⟨complete, will, curdata', hread, hwill⟩ :=
      readWill_rest data' flags buf (curdata + 3 + 2 + client.bytes.length)
    rw [hdrop] at hwill
    rw [← hdata', hread]
    simp only [Option.bind_some]
    cases complete with
    | false =>
      have hnone : willRest flags b₁ = none := hwill
      rw [hnone]
      exact ⟨0, _, rfl, .inl ⟨rfl, rfl⟩⟩
    | true =>
      obtain ⟨hrest, hholds⟩ := hwill
      rw [hrest, if_pos rfl, Option.bind_some]
      obtain ⟨rc, username, password, hread', hcredentials⟩ :=
        readCredentials_rest { data' with will := will } flags buf curdata'
      refine ⟨rc, _, hread', ?_⟩
      obtain ⟨hzero, hnone⟩ | ⟨hone, rest, hsome, hholds'⟩ := hcredentials
      · exact .inl ⟨hzero, hnone⟩
      · refine .inr ⟨hone, rest, hsome, b₁, buf.drop curdata', ?_, ?_, ?_⟩
        · rw [hdata']
          exact .of_given trivial hclient
        · rw [hdata'] at hholds ⊢
          exact hholds
        · rw [hdata'] at hholds' ⊢
          exact hholds'

/-- The name of the protocol, as far as it is compared, and the version. -/
def Recognized (name : Text) (version : UInt8) : Prop :=
  version = 3 ∧ SameStart name.bytes mqisdpName.bytes ∨
    version = 4 ∧ SameStart name.bytes mqttName.bytes

/-- One of the two names of the protocol, with its version. -/
def ExactProtocol (name : Text) (version : UInt8) : Prop :=
  version = 3 ∧ name.bytes = mqisdpName.bytes ∨ version = 4 ∧ name.bytes = mqttName.bytes

instance (name : Text) (version : UInt8) : Decidable (Recognized name version) :=
  inferInstanceAs (Decidable (_ ∨ _))

instance (name : Text) (version : UInt8) : Decidable (ExactProtocol name version) :=
  inferInstanceAs (Decidable (_ ∨ _))

theorem checkVersion_slice (name : Text) (version : UInt8) (after : List UInt8) :
    ∃ recognized, mqttPacketCheckVersion (name.slice after) (signedChar version) =
      some recognized ∧ (recognized = true ↔ Recognized name version) := by
  have hthree : signedChar version = 3 ↔ version = 3 := signedChar_eq_natCast (by decide)
  have hfour : signedChar version = 4 ↔ version = 4 := signedChar_eq_natCast (by decide)
  simp only [mqttPacketCheckVersion, hthree, hfour, Recognized, Text.slice]
  by_cases h3 : version = 3
  · rw [if_pos h3]
    refine ⟨_, memcmpEq_sameStart name.bytes mqisdpName.bytes after, ?_⟩
    simp [h3]
  · by_cases h4 : version = 4
    · rw [if_neg h3, if_pos h4]
      refine ⟨_, memcmpEq_sameStart name.bytes mqttName.bytes after, ?_⟩
      simp [h4]
    · rw [if_neg h3, if_neg h4]
      exact ⟨false, rfl, by simp [h3, h4]⟩

variable {header version : UInt8} {k n : ℕ} {name : Text} {bytes : List UInt8}

theorem mqttDeserializeConnect_recognized (hhead : buf[0]? = some header)
    (htype : MQTTHeader.type header = MsgType.connect.code)
    (hdecode : mqttPacketDecodeBuf buf 1 = some (k, n))
    (hnext : nextText (buf.drop (1 + k)) = some (name, version :: bytes)) :
    mqttDeserializeConnect data buf buf.length =
      if Recognized name version then
        readOptions buf buf.length (1 + k + 2 + name.bytes.length + 1) data
      else some (0, data) := by
  have hdrop := drop_nextText hnext
  have hlength := congrArg List.length hdrop
  rw [List.length_drop, List.length_cons] at hlength
  have hend : ¬ buf.length < 1 + k + 2 + name.bytes.length := by omega
  obtain ⟨recognized, hcheck, hiff⟩ := checkVersion_slice name version (version :: bytes)
  simp only [mqttDeserializeConnect, hhead, htype, ne_eq, not_true_eq_false, if_false, hdecode,
    readMQTTLenString_drop, textRead_last hnext, hend, readChar_eq hdrop, hcheck, hiff,
    Option.bind_eq_bind, Option.bind_some]

/-- The version is read even if the packet ends before it. -/
theorem mqttDeserializeConnect_cut (hhead : buf[0]? = some header)
    (htype : MQTTHeader.type header = MsgType.connect.code)
    (hdecode : mqttPacketDecodeBuf buf 1 = some (k, n))
    (hnext : nextText (buf.drop (1 + k)) = some (name, [])) :
    mqttDeserializeConnect data buf buf.length = none := by
  have hdrop := drop_nextText hnext
  have hbytes := congrArg List.length ((nextText_eq_some _ name []).mp hnext)
  rw [List.append_nil, length_stringBytes, List.length_drop] at hbytes
  have hend : ¬ buf.length < 1 + k + 2 + name.bytes.length := by omega
  have hget : buf[1 + k + 2 + name.bytes.length]? = none :=
    List.getElem?_eq_none (List.drop_eq_nil_iff.mp hdrop)
  simp only [mqttDeserializeConnect, hhead, htype, ne_eq, not_true_eq_false, if_false, hdecode,
    readMQTTLenString_drop, textRead_last hnext, hend, readChar, hget,
    Option.bind_eq_bind, Option.bind_some, Option.bind_none]

theorem mqttDeserializeConnect_nameless (hhead : buf[0]? = some header)
    (htype : MQTTHeader.type header = MsgType.connect.code)
    (hdecode : mqttPacketDecodeBuf buf 1 = some (k, n))
    (hnext : nextText (buf.drop (1 + k)) = none) :
    mqttDeserializeConnect data buf buf.length = some (0, data) := by
  simp only [mqttDeserializeConnect, hhead, htype, ne_eq, not_true_eq_false, if_false, hdecode,
    readMQTTLenString_drop, textRead_of_none hnext, Option.bind_eq_bind, Option.bind_some]

theorem mqttDeserializeConnect_other (hhead : buf[0]? = some header)
    (htype : MQTTHeader.type header ≠ MsgType.connect.code) :
    mqttDeserializeConnect data buf buf.length = some (0, data) := by
  simp only [mqttDeserializeConnect, hhead, htype, ne_eq, not_false_eq_true, if_true,
    Option.bind_eq_bind, Option.bind_some]

theorem drop_of_getElem? {b : UInt8} (h : buf[curdata]? = some b) :
    buf.drop curdata = b :: buf.drop (curdata + 1) := by
  obtain ⟨hlt, hget⟩ := List.getElem?_eq_some_iff.mp h
  rw [List.drop_eq_getElem_cons hlt, hget]

theorem readOptions_drop {result : ℤ × ConnectData}
    (h : readOptions buf buf.length curdata data = some result) :
    ∃ flags high low bytes, buf.drop curdata = flags :: high :: low :: bytes := by
  unfold readOptions at h
  obtain ⟨flags, hflags, h⟩ := Option.bind_eq_some_iff.mp h
  obtain ⟨keepAliveInterval, hint, -⟩ := Option.bind_eq_some_iff.mp h
  obtain ⟨high, hhigh, hint⟩ := Option.bind_eq_some_iff.mp hint
  obtain ⟨low, hlow, -⟩ := Option.bind_eq_some_iff.mp hint
  refine ⟨flags, high, low, buf.drop (curdata + 1 + 1 + 1), ?_⟩
  rw [drop_of_getElem? hflags, drop_of_getElem? hhigh, drop_of_getElem? hlow]

theorem HoldsString.suffix {given : Prop} [Decidable given] {before s : MQTTString}
    (h : HoldsString given bytes rest before s) : rest <:+ bytes := by
  unfold HoldsString at h
  split_ifs at h
  · obtain ⟨t, rfl, -⟩ := h
    exact List.suffix_append _ _
  · exact h.1 ▸ List.suffix_refl _

theorem HoldsStrings.suffix {data data' : ConnectData}
    (h : HoldsStrings flags bytes rest data data') : rest <:+ bytes := by
  obtain ⟨b₁, b₂, hclient, ⟨b₃, htopic, hmessage⟩, b₄, hname, hword⟩ := h
  calc rest <:+ b₄ := hword.suffix
    _ <:+ b₂ := hname.suffix
    _ <:+ b₃ := hmessage.suffix
    _ <:+ b₁ := htopic.suffix
    _ <:+ bytes := hclient.suffix

end

/-- The buffer begins with a CONNECT that has this body, in it the name of the protocol, the
version, the flags, the interval and the strings, and these are the strings in `data'`. -/
def WellFormedConnect (data data' : ConnectData) (buf : List UInt8) : Prop :=
  ∃ (w : WireFrame) (name : Text) (version flags high low : UInt8)
      (strings left after : List UInt8),
    buf = w.bytes ++ after ∧ w.type = MsgType.connect.code ∧
    w.body = stringBytes name.bytes ++ version :: flags :: high :: low :: (strings ++ left) ∧
    ExactProtocol name version ∧
    HoldsStrings flags (strings ++ left ++ after) (left ++ after) data data'

/-- Nothing is read past the end of the buffer, and only a well-formed CONNECT is accepted. -/
def AcceptsConnect (data : ConnectData) (buf : List UInt8) : Prop :=
  ∃ rc data', mqttDeserializeConnect data buf buf.length = some (rc, data') ∧
    (rc = 1 → WellFormedConnect data data' buf)

/-- After a version that is recognised there are the flags and the interval; and if the strings
come to their end in the buffer, they end in the packet and the packet in the buffer. -/
def OptionsTold (size k n : ℕ) (name : Text) (version : UInt8) (bytes : List UInt8) : Prop :=
  ∃ flags high low strings, bytes = flags :: high :: low :: strings ∧
    ∀ rest, stringsRest flags strings = some rest →
      k ≤ 4 ∧ 1 + k + n ≤ size ∧ size ≤ 1 + k + n + rest.length ∧ ExactProtocol name version

/-- The buffer is not empty and, if it is a CONNECT, holds its length field and, if it holds
the name of the protocol, the version. -/
def ConnectTold (buf : List UInt8) : Prop :=
  ∃ header, buf[0]? = some header ∧ (MQTTHeader.type header = MsgType.connect.code →
    ∃ k n, mqttPacketDecodeBuf buf 1 = some (k, n) ∧
      ∀ name bytes, nextText (buf.drop (1 + k)) = some (name, bytes) →
        ∃ version bytes', bytes = version :: bytes' ∧
          (Recognized name version → OptionsTold buf.length k n name version bytes'))

section

variable {data : ConnectData} {buf : List UInt8}

theorem ConnectTold.accepts (h : ConnectTold buf) : AcceptsConnect data buf := by
  obtain ⟨header, hhead, htold⟩ := h
  by_cases htype : MQTTHeader.type header = MsgType.connect.code
  · obtain ⟨k, n, hdecode, htold⟩ := htold htype
    cases hnext : nextText (buf.drop (1 + k)) with
    | none =>
      exact ⟨0, data, mqttDeserializeConnect_nameless data hhead htype hdecode hnext,
        fun h => absurd h (by decide)⟩
    | some next =>
      obtain ⟨name, bytes⟩ := next
      obtain ⟨version, bytes, rfl, hoptions⟩ := htold name bytes hnext
      have hcall := mqttDeserializeConnect_recognized data hhead htype hdecode hnext
      by_cases hrecognized : Recognized name version
      · obtain ⟨flags, high, low, strings, rfl, hstrings⟩ := hoptions hrecognized
        have hdrop := drop_nextText hnext
        obtain ⟨rc, data', hread, hrest⟩ := readOptions_rest data
          (drop_of_drop (show _ = [version] ++ flags :: high :: low :: strings from hdrop))
        rw [if_pos hrecognized] at hcall
        refine ⟨rc, data', hcall.trans hread, fun hone => ?_⟩
        obtain ⟨hzero, -⟩ | ⟨-, rest, hsome, hholds⟩ := hrest
        · omega
        obtain ⟨hk, hlen, hend, hexact⟩ := hstrings rest hsome
        obtain ⟨w, after, rfl, rfl, rfl, rfl⟩ := exists_frame hhead hdecode hk hlen
        rw [w.drop_body] at hnext
        have hbody := (nextText_eq_some _ name _).mp hnext
        rw [List.length_append, w.length_bytes] at hend
        -- what comes after the packet is no longer than what the strings leave
        have hafter : after <:+ rest := by
          have hsuffix : rest <:+ w.body ++ after := by
            rw [hbody]
            calc rest <:+ strings := hholds.suffix
              _ <:+ [version, flags, high, low] ++ strings := List.suffix_append _ _
              _ <:+ _ := List.suffix_append _ _
          exact List.suffix_of_suffix_length_le (List.suffix_append _ _) hsuffix (by omega)
        obtain ⟨left, rfl⟩ := hafter
        obtain ⟨strings, rfl⟩ := hholds.suffix
        rw [← List.append_assoc] at hholds
        refine ⟨w, name, version, flags, high, low, strings, left, after, rfl, htype, ?_, hexact,
          hholds⟩
        have hsplit : w.body ++ after = stringBytes name.bytes ++
            version :: flags :: high :: low :: (strings ++ left) ++ after := by
          rw [hbody]
          simp
        exact List.append_cancel_right hsplit
      · rw [if_neg hrecognized] at hcall
        exact ⟨0, data, hcall, fun h => absurd h (by decide)⟩
  · exact ⟨0, data, mqttDeserializeConnect_other data hhead htype, fun h => absurd h (by decide)⟩

theorem AcceptsConnect.told (h : AcceptsConnect data buf) : ConnectTold buf := by
  obtain ⟨rc, data', hresult, haccepted⟩ := h
  have hrun := hresult
  unfold mqttDeserializeConnect at hrun
  obtain ⟨header, hhead, hrun⟩ := Option.bind_eq_some_iff.mp hrun
  refine ⟨header, hhead, fun htype => ?_⟩
  rw [if_neg (not_not.mpr htype)] at hrun
  obtain ⟨⟨k, n⟩, hdecode, -⟩ := Option.bind_eq_some_iff.mp hrun
  refine ⟨k, n, hdecode, fun name bytes hnext => ?_⟩
  cases bytes with
  | nil =>
    rw [mqttDeserializeConnect_cut data hhead htype hdecode hnext] at hresult
    cases hresult
  | cons version bytes =>
    refine ⟨version, bytes, rfl, fun hrecognized => ?_⟩
    rw [mqttDeserializeConnect_recognized data hhead htype hdecode hnext,
      if_pos hrecognized] at hresult
    have hdrop := drop_of_drop (show _ = [version] ++ bytes from drop_nextText hnext)
    obtain ⟨flags, high, low, strings, hbytes⟩ := readOptions_drop data hresult
    obtain ⟨rc', data'', hread, hrest⟩ := readOptions_rest data hbytes
    rw [List.length_singleton] at hdrop
    refine ⟨flags, high, low, strings, hdrop.symm.trans hbytes, fun rest hsome => ?_⟩
    obtain ⟨rfl, rfl⟩ := Prod.mk.inj (Option.some.inj (hresult.symm.trans hread))
    obtain ⟨-, hnone⟩ | ⟨hone, -⟩ := hrest
    · rw [hnone] at hsome
      cases hsome
    obtain ⟨w, name', version', flags', high', low', strings', left, after, rfl, -, hbody, hexact,
      hholds⟩ := haccepted hone
    rw [w.decodeBuf] at hdecode
    obtain ⟨rfl, rfl⟩ := Prod.mk.inj (Option.some.inj hdecode)
    rw [w.drop_body, hbody, List.append_assoc, (nextText_eq_some _ name' _).mpr rfl] at hnext
    obtain ⟨rfl, hafter⟩ := Prod.mk.inj (Option.some.inj hnext)
    have hstrings := hafter.trans (congrArg (version :: ·) (hdrop.symm.trans hbytes))
    simp only [List.cons_append, List.cons.injEq] at hstrings
    obtain ⟨rfl, rfl, rfl, rfl, rfl⟩ := hstrings
    obtain rfl := hholds.rest_eq hsome
    refine ⟨w.length_field, ?_, ?_, hexact⟩
    · rw [List.length_append, w.length_bytes]
      omega
    · rw [List.length_append, List.length_append, w.length_bytes]
      omega

/-- The end of the packet of a CONNECT whose strings come to their end. -/
theorem ConnectTold.ends {header version flags high low : UInt8} {k n : ℕ} {name : Text}
    {strings rest : List UInt8} (h : ConnectTold buf) (hhead : buf[0]? = some header)
    (htype : MQTTHeader.type header = MsgType.connect.code)
    (hdecode : mqttPacketDecodeBuf buf 1 = some (k, n))
    (hnext : nextText (buf.drop (1 + k)) =
      some (name, version :: flags :: high :: low :: strings))
    (hrecognized : Recognized name version) (hrest : stringsRest flags strings = some rest) :
    k ≤ 4 ∧ 1 + k + n ≤ buf.length ∧ buf.length ≤ 1 + k + n + rest.length ∧
      ExactProtocol name version := by
  obtain ⟨header', hhead', htold⟩ := h
  obtain rfl := Option.some.inj (hhead'.symm.trans hhead)
  obtain ⟨k', n', hdecode', htold⟩ := htold htype
  obtain ⟨rfl, rfl⟩ := Prod.mk.inj (Option.some.inj (hdecode'.symm.trans hdecode))
  obtain ⟨version', bytes, hbytes, hoptions⟩ := htold name _ hnext
  obtain ⟨rfl, rfl⟩ := List.cons.inj hbytes
  obtain ⟨flags', high', low', strings', hfields, hstrings⟩ := hoptions hrecognized
  simp only [List.cons.injEq] at hfields
  obtain ⟨rfl, rfl, rfl, rfl⟩ := hfields
  exact hstrings rest hrest

/-- A buffer is accepted for what it is if and only if nothing in it is cut off where no one
looks, and what is accepted names the protocol in full and ends in its own packet. -/
theorem mqttDeserializeConnect_acceptsConnect (data : ConnectData) (buf : List UInt8) :
    AcceptsConnect data buf ↔ ConnectTold buf :=
  ⟨AcceptsConnect.told, ConnectTold.accepts⟩

end

/-- A CONNECT that ends with the name of the protocol is read past its end; a name of no
characters is recognised; and the options are read although the packet has no body. -/
theorem mqttDeserializeConnect_not_acceptsConnect :
    ¬ AcceptsConnect connectDataInitializer [16, 6, 0, 4, 77, 81, 84, 84] ∧
    ¬ AcceptsConnect connectDataInitializer [16, 8, 0, 0, 4, 2, 0, 60, 0, 0] ∧
    ¬ AcceptsConnect connectDataInitializer [16, 0, 0, 4, 77, 81, 84, 84, 4, 2, 0, 60, 0, 0] := by
  refine ⟨fun h => ?_, fun h => ?_, fun h => ?_⟩
  · obtain ⟨rc, data', hresult, -⟩ := h
    have hcut : mqttDeserializeConnect connectDataInitializer [16, 6, 0, 4, 77, 81, 84, 84] 8 =
        none := mqttDeserializeConnect_cut _ rfl rfl rfl rfl
    exact Option.some_ne_none _ (hresult.symm.trans hcut)
  · have hnext : nextText [0, 0, 4, 2, 0, 60, 0, 0] =
        some (⟨[], by decide⟩, [4, 2, 0, 60, 0, 0]) := rfl
    obtain ⟨-, -, -, hexact⟩ := h.told.ends rfl rfl rfl hnext (by decide) rfl
    exact absurd hexact (by decide)
  · have hnext : nextText [0, 4, 77, 81, 84, 84, 4, 2, 0, 60, 0, 0] =
        some (⟨[77, 81, 84, 84], by decide⟩, [4, 2, 0, 60, 0, 0]) := rfl
    obtain ⟨-, -, hend, -⟩ := h.told.ends rfl rfl rfl hnext (by decide) rfl
    exact absurd hend (by decide)

end MqttEmbedded
