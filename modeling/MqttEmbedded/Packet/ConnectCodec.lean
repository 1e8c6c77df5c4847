import MqttEmbedded.Packet.Grammar
import MqttEmbedded.Packet.SerializeBounds
import MqttEmbedded.Packet.SerializeSession

/-!
# CONNECT, encoded and decoded

The deserialiser of `MQTTConnectServer.c` finds out from the flags which of the strings
are there. It fills in the connect data that it is given, where it never touches the
version, and it takes a name or a password of no characters at the end of the packet for
one that is missing.
-/

namespace MqttEmbedded

open Region

namespace ConnectFlags

def cleansession (all : UInt8) : ℕ := all.toNat / 2 % 2
def will (all : UInt8) : ℕ := all.toNat / 4 % 2
def willQoS (all : UInt8) : ℕ := all.toNat / 8 % 4
def willRetain (all : UInt8) : ℕ := all.toNat / 32 % 2
def password (all : UInt8) : ℕ := all.toNat / 64 % 2
def username (all : UInt8) : ℕ := all.toNat / 128

end ConnectFlags

/-- `memcmp(data, name, count) == 0`. -/
def memcmpEq (data : Option (List UInt8)) (name : List UInt8) (count : ℕ) : Option Bool := do
  let bytes ← Region.read (data.getD []) 0 count
  let bytes' ← Region.read name 0 count
  some (bytes = bytes')

def mqttPacketCheckVersion (protocol : MQTTString) (version : ℤ) : Option Bool :=
  if version = 3 then
    memcmpEq protocol.lenstring.data mqisdpName.bytes (min 6 protocol.lenstring.len)
  else if version = 4 then
    memcmpEq protocol.lenstring.data mqttName.bytes (min 4 protocol.lenstring.len)
  else some false

section

variable (flags : UInt8) (buf : List UInt8) (enddata curdata : ℕ) (data : ConnectData)

/-- The will, and whether it is complete. -/
def readWill : Option (Bool × ConnectData × ℕ) :=
  if ConnectFlags.will flags ≠ 0 then do
    let data := { data with will := { data.will with
      qos := UInt8.ofNat (ConnectFlags.willQoS flags)
      retained := UInt8.ofNat (ConnectFlags.willRetain flags) } }
    match ← readMQTTLenString buf curdata enddata with
    | .refused len =>
      let topicName := (StringRead.refused len).stored data.will.topicName
      some (false, { data with will := { data.will with topicName := topicName } }, curdata)
    | .read topicName curdata =>
      let data := { data with will := { data.will with topicName := topicName } }
      match ← readMQTTLenString buf curdata enddata with
      | .refused len =>
        let message := (StringRead.refused len).stored data.will.message
        some (false, { data with will := { data.will with message := message } }, curdata)
      | .read message curdata =>
        some (true, { data with will := { data.will with message := message } }, curdata)
  else some (true, data, curdata)

def readCredentials : Option (ℤ × ConnectData) :=
  if ConnectFlags.username flags ≠ 0 then
    if enddata < curdata + 3 then some (0, data)
    else do
      match ← readMQTTLenString buf curdata enddata with
      | .refused len => -- username flag set, but no username supplied
        some (0, { data with username := (StringRead.refused len).stored data.username })
      | .read username curdata =>
        let data := { data with username := username }
        if ConnectFlags.password flags ≠ 0 then
          if enddata < curdata + 3 then some (0, data)
          else
            match ← readMQTTLenString buf curdata enddata with
            | .refused len => -- password flag set, but no password supplied
              some (0, { data with password := (StringRead.refused len).stored data.password })
            | .read password _ => some (1, { data with password := password })
        else some (1, data)
  else if ConnectFlags.password flags ≠ 0 then some (0, data)
  else some (1, data)

/-- What comes after the version of the protocol. -/
def readOptions : Option (ℤ × ConnectData) := do
  let flags ← buf[curdata]?
  let data := { data with cleansession := UInt8.ofNat (ConnectFlags.cleansession flags) }
  let keepAliveInterval ← readInt buf (curdata + 1)
  let data := { data with keepAliveInterval := UInt16.ofNat keepAliveInterval }
  match ← readMQTTLenString buf (curdata + 3) enddata with
  | .refused len =>
    some (0, { data with clientID := (StringRead.refused len).stored data.clientID })
  | .read clientID curdata =>
    let data := { data with
      clientID := clientID, willFlag := UInt8.ofNat (ConnectFlags.will flags) }
    let (complete, data, curdata) ← readWill flags buf enddata curdata data
    if complete then readCredentials flags buf enddata curdata data else some (0, data)

end

/-- The remaining length is read and not looked at; `enddata` is `len` bytes on from the
start of the buffer. -/
def mqttDeserializeConnect (data : ConnectData) (buf : List UInt8) (len : ℕ) :
    Option (ℤ × ConnectData) := do
  let header ← buf[0]?
  if MQTTHeader.type header ≠ MsgType.connect.code then some (0, data)
  else
    let (rc, _) ← mqttPacketDecodeBuf buf 1
    match ← readMQTTLenString buf (1 + rc) len with
    | .refused _ => some (0, data)
    | .read protocol curdata =>
      if len < curdata then some (0, data)
      else
        let version ← readChar buf curdata
        -- another version is not parsed on: its format is not known
        if ← mqttPacketCheckVersion protocol version then
          readOptions buf len (curdata + 1) data
        else some (0, data)

namespace ConnectFlags

variable (u p r q w c : ℕ)

theorem toNat_connectFlags : (connectFlags u p r q w c).toNat =
    u % 2 * 128 + p % 2 * 64 + r % 2 * 32 + q % 4 * 8 + w % 2 * 4 + c % 2 * 2 := by
  rw [connectFlags, UInt8.toNat_ofNat']
  omega

@[simp] theorem username_connectFlags : username (connectFlags u p r q w c) = u % 2 := by
  rw [username, toNat_connectFlags]
  omega

@[simp] theorem password_connectFlags : password (connectFlags u p r q w c) = p % 2 := by
  rw [password, toNat_connectFlags]
  omega

@[simp] theorem willRetain_connectFlags : willRetain (connectFlags u p r q w c) = r % 2 := by
  rw [willRetain, toNat_connectFlags]
  omega

@[simp] theorem willQoS_connectFlags : willQoS (connectFlags u p r q w c) = q % 4 := by
  rw [willQoS, toNat_connectFlags]
  omega

@[simp] theorem will_connectFlags : will (connectFlags u p r q w c) = w % 2 := by
  rw [will, toNat_connectFlags]
  omega

@[simp] theorem cleansession_connectFlags : cleansession (connectFlags u p r q w c) = c % 2 := by
  rw [cleansession, toNat_connectFlags]
  omega

end ConnectFlags

/-- From `curdata` to `enddata`, where the buffer ends, there are these bytes. -/
def Ahead (buf : List UInt8) (enddata curdata : ℕ) (bytes : List UInt8) : Prop :=
  buf.drop curdata = bytes ∧ enddata = curdata + bytes.length

section

variable {buf : List UInt8} {enddata curdata : ℕ} {xs ys : List UInt8}

theorem Ahead.skip (h : Ahead buf enddata curdata (xs ++ ys)) :
    Ahead buf enddata (curdata + xs.length) ys := by
  obtain ⟨hdrop, hend⟩ := h
  rw [List.length_append] at hend
  exact ⟨drop_of_drop hdrop, by omega⟩

theorem Ahead.text {t : Text} (h : Ahead buf enddata curdata (stringBytes t.bytes ++ ys)) :
    readMQTTLenString buf curdata enddata =
        some (.read (t.slice ys) (curdata + 2 + t.bytes.length)) ∧
      Ahead buf enddata (curdata + 2 + t.bytes.length) ys := by
  have hskip := h.skip
  rw [length_stringBytes, ← Nat.add_assoc] at hskip
  obtain ⟨hdrop, hend⟩ := h
  have hnext := (nextText_eq_some _ t ys).mpr rfl
  rw [← List.append_nil (stringBytes t.bytes ++ ys)] at hdrop
  refine ⟨?_, hskip⟩
  rw [readMQTTLenString_next hdrop hend, textRead_of_some hnext, List.append_nil]

/-- A string that is written when it is given. -/
def givenBytes (s : MQTTString) : List UInt8 := if s.Given then stringBytes s.text else []

theorem givenBytes_of_not_given {s : MQTTString} (h : ¬ s.Given) : givenBytes s = [] := if_neg h

/-- A string is there if it was given, with the same characters. -/
def SameString (s t : MQTTString) : Prop := (t.Given ↔ s.Given) ∧ t.text = s.text

theorem sameString_slice {s : MQTTString} {t : Text} (hgiven : s.Given) (ht : t.bytes = s.text)
    (after : List UInt8) : SameString s (t.slice after) := by
  refine ⟨iff_of_true (.inr rfl) hgiven, ?_⟩
  rw [t.text_slice, ht]

theorem sameString_initializer {s : MQTTString} (h : ¬ s.Given) :
    SameString s mqttStringInitializer := by
  obtain ⟨hcstring, hdata⟩ := not_or.mp h
  rw [Option.not_isSome_iff_eq_none] at hcstring hdata
  refine ⟨iff_of_false (by decide) h, ?_⟩
  simp [MQTTString.text, hcstring, hdata, mqttStringInitializer]

end

/-- A name without a character is not the last string, and a password is not one. -/
def CredentialsTold (options : ConnectData) : Prop :=
  (options.username.Given → options.username.text = [] → options.password.Given) ∧
    (options.password.Given → options.password.text ≠ [])

section

variable {options : ConnectData} (data : ConnectData) {buf : List UInt8} {enddata curdata : ℕ}

/-- The strings of the options that the packet carries have a length of two bytes. -/
structure Short (options : ConnectData) : Prop where
  clientID : Sendable options.clientID
  topicName : Sendable options.will.topicName
  message : Sendable options.will.message
  username : Sendable options.username
  password : Sendable options.password

theorem username_connectFlagsOf (options : ConnectData) :
    ConnectFlags.username (connectFlagsOf options) ≠ 0 ↔ options.username.Given := by
  rw [connectFlagsOf, ConnectFlags.username_connectFlags]
  split_ifs with h
  · exact iff_of_true (by decide) h
  · exact iff_of_false (by decide) h

theorem password_connectFlagsOf (options : ConnectData) :
    ConnectFlags.password (connectFlagsOf options) ≠ 0 ↔ options.password.Given := by
  rw [connectFlagsOf, ConnectFlags.password_connectFlags]
  split_ifs with h
  · exact iff_of_true (by decide) h
  · exact iff_of_false (by decide) h

theorem will_connectFlagsOf (options : ConnectData) :
    ConnectFlags.will (connectFlagsOf options) ≠ 0 ↔ options.willFlag ≠ 0 := by
  rw [connectFlagsOf, ConnectFlags.will_connectFlags]
  split_ifs with h
  · exact iff_of_true (by decide) h
  · exact iff_of_false (by decide) h

theorem readCredentials_name (hshort : Short options) (hname : options.username.Given)
    (hword : ¬ options.password.Given)
    (h : Ahead buf enddata curdata (givenBytes options.username ++ givenBytes options.password)) :
    ∃ name : Text, name.bytes = options.username.text ∧
      readCredentials (connectFlagsOf options) buf enddata curdata data =
        if options.username.text = [] then some (0, data)
        else some (1, { data with username := name.slice [] }) := by
  obtain ⟨name, hbytes⟩ := exists_text hshort.username
  rw [givenBytes_of_not_given hword, givenBytes, if_pos hname, ← hbytes] at h
  have hend := h.2
  rw [List.append_nil, length_stringBytes] at hend
  refine ⟨name, hbytes, ?_⟩
  rw [readCredentials, if_pos ((username_connectFlagsOf options).mpr hname), ← hbytes]
  by_cases hempty : name.bytes = []
  · rw [hempty, List.length_nil] at hend
    rw [if_pos (by omega), if_pos hempty]
  · have hpos := List.length_pos_iff.mpr hempty
    have hflag : ¬ ConnectFlags.password (connectFlagsOf options) ≠ 0 :=
      (password_connectFlagsOf options).not.mpr hword
    rw [if_neg (by omega), if_neg hempty, h.text.1]
    simp only [Option.bind_eq_bind, Option.bind_some, if_neg hflag]

/-- With a password the name is read, and the password if it has a character. -/
theorem readCredentials_both (hshort : Short options) (hname : options.username.Given)
    (hword : options.password.Given)
    (h : Ahead buf enddata curdata (givenBytes options.username ++ givenBytes options.password)) :
    ∃ name word : Text, name.bytes = options.username.text ∧
      word.bytes = options.password.text ∧
      readCredentials (connectFlagsOf options) buf enddata curdata data =
        if options.password.text = [] then
          some (0, { data with username := name.slice (stringBytes word.bytes) })
        else some (1, { data with
          username := name.slice (stringBytes word.bytes), password := word.slice [] }) := by
  obtain ⟨name, hbytes⟩ := exists_text hshort.username
  obtain ⟨word, hbytes'⟩ := exists_text hshort.password
  rw [givenBytes, if_pos hname, ← hbytes, givenBytes, if_pos hword, ← hbytes'] at h
  obtain ⟨hread, hahead⟩ := h.text
  have hend := h.2
  have hend' := hahead.2
  rw [List.length_append, length_stringBytes, length_stringBytes] at hend
  rw [length_stringBytes] at hend'
  refine ⟨name, word, hbytes, hbytes', ?_⟩
  rw [readCredentials, if_pos ((username_connectFlagsOf options).mpr hname), if_neg (by omega),
    hread, ← hbytes']
  simp only [Option.bind_eq_bind, Option.bind_some,
    if_pos ((password_connectFlagsOf options).mpr hword)]
  by_cases hempty : word.bytes = []
  · rw [hempty, List.length_nil] at hend'
    rw [if_pos (by omega), if_pos hempty]
  · have hpos := List.length_pos_iff.mpr hempty
    rw [← List.append_nil (stringBytes word.bytes)] at hahead
    rw [if_neg (by omega), if_neg hempty, hahead.text.1]
    rfl

theorem readCredentials_neither (hname : ¬ options.username.Given)
    (hword : ¬ options.password.Given) :
    readCredentials (connectFlagsOf options) buf enddata curdata data = some (1, data) := by
  rw [readCredentials, if_neg ((username_connectFlagsOf options).not.mpr hname),
    if_neg ((password_connectFlagsOf options).not.mpr hword)]

/-- Into connect data without them, name and password are read as they were given. -/
theorem readCredentials_told (hshort : Short options)
    (hgiven : options.password.Given → options.username.Given)
    (h : Ahead buf enddata curdata (givenBytes options.username ++ givenBytes options.password))
    (hname : data.username = mqttStringInitializer)
    (hword : data.password = mqttStringInitializer) :
    ∃ rc username password,
      readCredentials (connectFlagsOf options) buf enddata curdata data =
        some (rc, { data with username := username, password := password }) ∧
      (rc = 1 ↔ CredentialsTold options) ∧
      (rc = 1 → SameString options.username username ∧ SameString options.password password) := by
  by_cases hn : options.username.Given
  · by_cases hw : options.password.Given
    · obtain ⟨name, word, hbytes, hbytes', hread⟩ :=
        readCredentials_both data hshort hn hw h
      by_cases hempty : options.password.text = []
      · rw [if_pos hempty] at hread
        refine ⟨0, _, data.password, hread, iff_of_false (by decide) fun htold => ?_, nofun⟩
        exact htold.2 hw hempty
      · rw [if_neg hempty] at hread
        refine ⟨1, _, _, hread, iff_of_true rfl ⟨fun _ _ => hw, fun _ => hempty⟩, fun _ => ?_⟩
        exact ⟨sameString_slice hn hbytes _, sameString_slice hw hbytes' _⟩
    · obtain ⟨name, hbytes, hread⟩ := readCredentials_name data hshort hn hw h
      by_cases hempty : options.username.text = []
      · rw [if_pos hempty] at hread
        refine ⟨0, data.username, data.password, hread, iff_of_false (by decide) fun htold => ?_,
          nofun⟩
        exact hw (htold.1 hn hempty)
      · rw [if_neg hempty] at hread
        refine ⟨1, _, data.password, hread, iff_of_true rfl
          ⟨fun _ htext => absurd htext hempty, fun hpass => absurd hpass hw⟩, fun _ => ?_⟩
        exact ⟨sameString_slice hn hbytes _, hword ▸ sameString_initializer hw⟩
  · have hw : ¬ options.password.Given := fun hpass => hn (hgiven hpass)
    refine ⟨1, data.username, data.password, readCredentials_neither data hn hw, iff_of_true rfl
      ⟨fun hpass => absurd hpass hn, fun hpass => absurd hpass hw⟩, fun _ => ?_⟩
    exact ⟨hname ▸ sameString_initializer hn, hword ▸ sameString_initializer hw⟩

/-- What comes before the credentials is as it was given. -/
structure SameRequest (options data : ConnectData) : Prop where
  clientID : data.clientID.text = options.clientID.text
  keepAliveInterval : data.keepAliveInterval = options.keepAliveInterval
  cleansession : data.cleansession = options.cleansession
  willFlag : data.willFlag = options.willFlag
  will : options.willFlag ≠ 0 → data.will.topicName.text = options.will.topicName.text ∧
    data.will.message.text = options.will.message.text ∧
    data.will.retained = options.will.retained ∧ data.will.qos = options.will.qos

/-- The flags have the values that they may have. -/
structure Flags (options : ConnectData) : Prop where
  cleansession : options.cleansession.toNat ≤ 1
  willFlag : options.willFlag.toNat ≤ 1
  retained : options.will.retained.toNat ≤ 1
  qos : options.will.qos.toNat ≤ 2

theorem ofNat_eq_of_toNat {n : ℕ} {b : UInt8} (h : n = b.toNat) : UInt8.ofNat n = b := by
  rw [h, UInt8.ofNat_toNat]

def willBytes (options : ConnectData) : List UInt8 :=
  if options.willFlag ≠ 0 then
    stringBytes options.will.topicName.text ++ stringBytes options.will.message.text else []

theorem readWill_told (hshort : Short options) (hflags : Flags options) {rest : List UInt8}
    (h : Ahead buf enddata curdata (willBytes options ++ rest)) :
    ∃ will curdata', readWill (connectFlagsOf options) buf enddata curdata data =
        some (true, { data with will := will }, curdata') ∧ Ahead buf enddata curdata' rest ∧
      (options.willFlag ≠ 0 → will.topicName.text = options.will.topicName.text ∧
        will.message.text = options.will.message.text ∧
        will.retained = options.will.retained ∧ will.qos = options.will.qos) := by
  by_cases hwill : options.willFlag ≠ 0
  · obtain ⟨topic, htopic⟩ := exists_text hshort.topicName
    obtain ⟨message, hmessage⟩ := exists_text hshort.message
    rw [willBytes, if_pos hwill, ← htopic, ← hmessage, List.append_assoc] at h
    obtain ⟨hread, hahead⟩ := h.text
    obtain ⟨hread', hrest⟩ := hahead.text
    rw [readWill, if_pos ((will_connectFlagsOf options).mpr hwill), hread]
    simp only [Option.bind_eq_bind, Option.bind_some, hread']
    refine ⟨_, _, rfl, hrest, fun _ => ⟨?_, ?_, ?_, ?_⟩⟩
    · exact (topic.text_slice _).trans htopic
    · exact (message.text_slice _).trans hmessage
    · have hretained := hflags.retained
      apply ofNat_eq_of_toNat
      rw [connectFlagsOf, ConnectFlags.willRetain_connectFlags, if_pos hwill]
      omega
    · have hqos := hflags.qos
      apply ofNat_eq_of_toNat
      rw [connectFlagsOf, ConnectFlags.willQoS_connectFlags, if_pos hwill]
      omega
  · rw [willBytes, if_neg hwill, List.nil_append] at h
    rw [readWill, if_neg ((will_connectFlagsOf options).not.mpr hwill)]
    exact ⟨data.will, curdata, rfl, h, fun hne => absurd hne hwill⟩

theorem readOptions_told (hshort : Short options) (hflags : Flags options) {rest : List UInt8}
    (h : Ahead buf enddata curdata ([connectFlagsOf options] ++
      (intBytes options.keepAliveInterval.toNat ++ (stringBytes options.clientID.text ++
      (willBytes options ++ rest))))) :
    ∃ data' curdata', readOptions buf enddata curdata data =
        readCredentials (connectFlagsOf options) buf enddata curdata' data' ∧
      Ahead buf enddata curdata' rest ∧ SameRequest options data' ∧
      data'.mqttVersion = data.mqttVersion ∧ data'.username = data.username ∧
      data'.password = data.password := by
  obtain ⟨clientID, hclient⟩ := exists_text hshort.clientID
  rw [← hclient] at h
  have hflag := getElem?_of_drop h.1
  have hint := h.skip
  have hkeep := readInt_eq options.keepAliveInterval.toNat_lt hint.1
  obtain ⟨hread, hahead⟩ := hint.skip.text
  obtain ⟨data', hdata'⟩ : ∃ data', data' = { data with
    cleansession := UInt8.ofNat (ConnectFlags.cleansession (connectFlagsOf options))
    keepAliveInterval := UInt16.ofNat options.keepAliveInterval.toNat
    clientID := clientID.slice (willBytes options ++ rest)
    willFlag := UInt8.ofNat (ConnectFlags.will (connectFlagsOf options)) } := ⟨_, rfl⟩
  obtain ⟨will, curdata', hwill, hrest, hsame⟩ := readWill_told data' hshort hflags hahead
  rw [List.length_singleton] at hkeep hread hwill
  rw [length_intBytes] at hread hwill
  refine ⟨{ data' with will := will }, curdata', ?_, hrest, ⟨?_, ?_, ?_, ?_, hsame⟩, ?_, ?_, ?_⟩
  · rw [readOptions, hflag]
    simp only [Option.bind_eq_bind, Option.bind_some, hkeep, hread]
    rw [hdata'] at hwill
    rw [hwill, hdata']
    rfl
  · rw [hdata']
    exact (clientID.text_slice _).trans hclient
  · rw [hdata']
    exact UInt16.ofNat_toNat
  · have hclean := hflags.cleansession
    rw [hdata']
    apply ofNat_eq_of_toNat
    rw [connectFlagsOf, ConnectFlags.cleansession_connectFlags]
    omega
  · have hwillFlag := hflags.willFlag
    rw [hdata']
    apply ofNat_eq_of_toNat
    rw [connectFlagsOf, ConnectFlags.will_connectFlags]
    split_ifs with hne
    · have hpos : options.willFlag.toNat ≠ 0 := fun h => hne (UInt8.toNat_inj.mp h)
      omega
    · rw [not_not.mp hne]
      rfl
  · rw [hdata']
  · rw [hdata']
  · rw [hdata']

/-- As far as the shorter one goes, they are the same. -/
def SameStart (xs ys : List UInt8) : Prop := xs <+: ys ∨ ys <+: xs

instance (xs ys : List UInt8) : Decidable (SameStart xs ys) := inferInstanceAs (Decidable (_ ∨ _))

theorem sameStart_iff (xs ys : List UInt8) :
    SameStart xs ys ↔ xs.take (min ys.length xs.length) = ys.take (min ys.length xs.length) := by
  rcases le_total xs.length ys.length with hle | hle
  · rw [Nat.min_eq_right hle, List.take_length, SameStart]
    constructor
    · rintro (h | h)
      · exact List.prefix_iff_eq_take.mp h
      · rw [h.eq_of_length_le hle, List.take_length]
    · exact fun h => .inl (List.prefix_iff_eq_take.mpr h)
  · rw [Nat.min_eq_left hle, List.take_length, SameStart]
    constructor
    · rintro (h | h)
      · rw [h.eq_of_length_le hle, List.take_length]
      · exact (List.prefix_iff_eq_take.mp h).symm
    · exact fun h => .inr (List.prefix_iff_eq_take.mpr h.symm)

theorem memcmpEq_sameStart (xs ys after : List UInt8) :
    memcmpEq (some (xs ++ after)) ys (min ys.length xs.length) =
      some (decide (SameStart xs ys)) := by
  have hread : Region.read (xs ++ after) 0 (min ys.length xs.length) =
      some (xs.take (min ys.length xs.length)) := by
    rw [Region.read_eq (by rw [List.length_append]; omega), List.drop_zero,
      List.take_append_of_le_length (by omega)]
  have hread' : Region.read ys 0 (min ys.length xs.length) =
      some (ys.take (min ys.length xs.length)) := by
    rw [Region.read_eq (by omega), List.drop_zero]
  rw [memcmpEq, Option.getD_some, hread, hread']
  simp only [Option.bind_eq_bind, Option.bind_some, sameStart_iff]

theorem memcmpEq_self (name after : List UInt8) :
    memcmpEq (some (name ++ after)) name (min name.length name.length) = some true := by
  rw [memcmpEq_sameStart, decide_eq_true (show SameStart name name from .inl List.prefix_rfl)]

/-- The name of the protocol and its version are read and recognised. -/
theorem readProtocol {rest : List UInt8}
    (hversion : options.mqttVersion = 3 ∨ options.mqttVersion = 4)
    (h : Ahead buf enddata curdata (options.protocol ++ rest)) :
    ∃ protocol curdata' version,
      readMQTTLenString buf curdata enddata = some (.read protocol curdata') ∧
      ¬ enddata < curdata' ∧ readChar buf curdata' = some version ∧
      mqttPacketCheckVersion protocol version = some true ∧
      Ahead buf enddata (curdata' + 1) rest := by
  obtain ⟨name, version, hprotocol, hcheck⟩ : ∃ (name : Text) (version : UInt8),
      options.protocol = stringBytes name.bytes ++ [version] ∧
      ∀ after, mqttPacketCheckVersion (name.slice after) (signedChar version) = some true := by
    rcases hversion with h | h
    · exact ⟨⟨mqisdpName.bytes, by decide⟩, 3, by simp [ConnectData.protocol, h],
        memcmpEq_self mqisdpName.bytes⟩
    · exact ⟨⟨mqttName.bytes, by decide⟩, 4, by simp [ConnectData.protocol, h],
        memcmpEq_self mqttName.bytes⟩
  rw [hprotocol, List.append_assoc] at h
  obtain ⟨hread, hahead⟩ := h.text
  have hend := hahead.2
  exact ⟨_, _, _, hread, by omega, readChar_eq hahead.1, hcheck _, hahead.skip⟩

/-- The connect data are those that were given. -/
structure Recovered (options data : ConnectData) : Prop where
  mqttVersion : data.mqttVersion = options.mqttVersion
  session : SameRequest options data
  username : SameString options.username data.username
  password : SameString options.password data.password

def ConnectInverse (options : ConnectData) : Prop :=
  ∀ buf : List UInt8, mqttPacketLen (mqttSerializeConnectLength options) ≤ buf.length →
    ∃ result data, mqttSerializeConnect buf options = some result ∧
      mqttDeserializeConnect connectDataInitializer (written result) (written result).length =
        some (1, data) ∧ Recovered options data

theorem Short.oneForm (h : Short options) : options.OneForm :=
  ⟨h.clientID.1, h.topicName.1, h.message.1, h.username.1, h.password.1⟩

theorem Short.length_le (h : Short options) :
    mqttSerializeConnectLength options ≤ maxRemainingLength := by
  have hclient := h.clientID.2
  have htopic := h.topicName.2
  have hmessage := h.message.2
  have hname := h.username.2
  have hword := h.password.2
  unfold mqttSerializeConnectLength maxRemainingLength
  dsimp only
  split_ifs <;> omega

/-- What has been encoded is accepted if the credentials can be told, and decoded to the same
but for the version. -/
theorem connect_decode_encode (hshort : Short options) (hflags : Flags options)
    (hversion : options.mqttVersion = 3 ∨ options.mqttVersion = 4)
    (hgiven : options.password.Given → options.username.Given)
    (hroom : mqttPacketLen (mqttSerializeConnectLength options) ≤ buf.length) :
    ∃ result rc data, mqttSerializeConnect buf options = some result ∧
      mqttDeserializeConnect connectDataInitializer (written result) (written result).length =
        some (rc, data) ∧
      (rc = 1 ↔ CredentialsTold options) ∧ data.mqttVersion = 4 ∧ SameRequest options data ∧
      (rc = 1 → SameString options.username data.username ∧
        SameString options.password data.password) := by
  have hmax := hshort.length_le
  have hbody := ConnectData.length_body hshort.oneForm hversion
  have hcall : mqttSerializeConnect buf options = _ :=
    mqttSerializeConnect_eq buf hshort.oneForm hversion (lt_of_le_maxRemainingLength hmax)
  obtain ⟨result, hresult, hwritten⟩ := written_of_eq hmax hbody hroom hcall
  rw [← hbody] at hmax
  obtain ⟨w, hw⟩ : ∃ w, w = frameOf connectHeader options.body hmax := ⟨_, rfl⟩
  have hbytes : w.bytes = written result := hw ▸ hwritten.symm
  have hdrop := w.drop_body []
  have hdecode := w.decodeBuf []
  have hhead := w.head_bytes []
  rw [List.append_nil] at hdrop hdecode hhead
  rw [List.append_nil] at hdrop
  have hahead : Ahead w.bytes w.bytes.length (1 + w.field.length) options.body := by
    have hsame : w.body = options.body := hw ▸ rfl
    exact ⟨hsame ▸ hdrop, hsame ▸ w.length_bytes⟩
  have htype : MQTTHeader.type w.header = MsgType.connect.code :=
    hw ▸ MQTTHeader.type_ofBits_code .connect 0 0 0
  obtain ⟨protocol, curdata, version, hread, hend, hchar, hcheck, hrest⟩ :=
    readProtocol hversion hahead
  obtain ⟨data', curdata', hoptions, hcredentials, hsession, hdata, hname, hword⟩ :=
    readOptions_told connectDataInitializer hshort hflags hrest
  obtain ⟨rc, username, password, hend', haccepted, hstrings⟩ :=
    readCredentials_told data' hshort hgiven hcredentials hname hword
  refine ⟨result, rc, { data' with username := username, password := password }, hresult, ?_,
    haccepted, hdata, ⟨hsession.1, hsession.2, hsession.3, hsession.4, hsession.5⟩, hstrings⟩
  rw [← hbytes, ← hend', ← hoptions]
  simp only [mqttDeserializeConnect, hhead, htype, ne_eq, not_true_eq_false, if_false, hdecode,
    hread, if_neg hend, hchar, hcheck, Option.bind_eq_bind, Option.bind_some, if_true]

end

/-- Of the connect data of a legal request everything is recovered for the version that the
connect data have from the start, if the credentials can be told. -/
theorem connect_inverse {options : ConnectData} (hshort : Short options) (hflags : Flags options)
    (hversion : options.mqttVersion = 3 ∨ options.mqttVersion = 4)
    (hgiven : options.password.Given → options.username.Given) :
    ConnectInverse options ↔ options.mqttVersion = 4 ∧ CredentialsTold options := by
  constructor
  · intro hinverse
    have hroom : mqttPacketLen (mqttSerializeConnectLength options) ≤
        (List.replicate (mqttPacketLen (mqttSerializeConnectLength options))
          (0 : UInt8)).length := by
      rw [List.length_replicate]
    obtain ⟨result, data, hresult, hread, hrecovered⟩ := hinverse _ hroom
    obtain ⟨result', rc, data', hresult', hread', haccepted, hdata, -⟩ :=
      connect_decode_encode hshort hflags hversion hgiven hroom
    obtain rfl := Option.some.inj (hresult.symm.trans hresult')
    obtain ⟨rfl, rfl⟩ := Prod.mk.inj (Option.some.inj (hread.symm.trans hread'))
    exact ⟨hrecovered.mqttVersion.symm.trans hdata, haccepted.mp rfl⟩
  · rintro ⟨hfour, htold⟩ buf hroom
    obtain ⟨result, rc, data, hresult, hread, haccepted, hdata, hsession, hstrings⟩ :=
      connect_decode_encode hshort hflags hversion hgiven hroom
    obtain rfl := haccepted.mpr htold
    obtain ⟨hname, hword⟩ := hstrings rfl
    exact ⟨result, data, hresult, hread, hdata.trans hfour.symm, hsession, hname, hword⟩

/-- A request with everything in it. -/
theorem connect_inverse_full : ConnectInverse fullRequest := by
  have hshort : Short fullRequest := by constructor <;> decide
  have hflags : Flags fullRequest := by constructor <;> decide
  have htold : CredentialsTold fullRequest := by constructor <;> decide
  exact (connect_inverse hshort hflags (.inr rfl) fun _ => by decide).mpr ⟨rfl, htold⟩

/-- A request of MQTT 3.1 with nothing in it. -/
def oldRequest : ConnectData := { connectDataInitializer with mqttVersion := 3 }

/-- A request with a name that has no character. -/
def namelessRequest : ConnectData :=
  { connectDataInitializer with username := MQTTString.ofCString ⟨[], by decide⟩ }

/-- The first is decoded with another version, and the second is refused. -/
theorem connect_not_inverse :
    ¬ ConnectInverse oldRequest ∧ ¬ ConnectInverse namelessRequest := by
  constructor
  · intro h
    obtain ⟨result, data, hresult, hread, hrecovered⟩ := h (List.replicate 16 0) (by decide)
    have hcall : mqttSerializeConnect (List.replicate 16 0) oldRequest = some
        (16, [16, 14, 0, 6, 77, 81, 73, 115, 100, 112, 3, 2, 0, 60, 0, 0]) := by decide +kernel
    obtain rfl := Option.some.inj (hresult.symm.trans hcall)
    have hversion : ((mqttDeserializeConnect connectDataInitializer
        [16, 14, 0, 6, 77, 81, 73, 115, 100, 112, 3, 2, 0, 60, 0, 0] 16).map fun decoded =>
        decoded.2.mqttVersion) = some 4 := by decide +kernel
    have hdecoded := congrArg (Option.map fun decoded => decoded.2.mqttVersion) hread
    have hfour := Option.some.inj (hdecoded.symm.trans hversion)
    exact absurd (hfour.symm.trans hrecovered.mqttVersion) (by decide)
  · intro h
    obtain ⟨result, data, hresult, hread, -⟩ := h (List.replicate 16 0) (by decide)
    have hcall : mqttSerializeConnect (List.replicate 16 0) namelessRequest = some
        (16, [16, 14, 0, 4, 77, 81, 84, 84, 4, 130, 0, 60, 0, 0, 0, 0]) := by decide +kernel
    obtain rfl := Option.some.inj (hresult.symm.trans hcall)
    have hrefused : ((mqttDeserializeConnect connectDataInitializer
        [16, 14, 0, 4, 77, 81, 84, 84, 4, 130, 0, 60, 0, 0, 0, 0] 16).map Prod.fst) =
        some 0 := by decide +kernel
    have hdecoded := congrArg (Option.map Prod.fst) hread
    have hzero : (1 : ℤ) = 0 := Option.some.inj (hdecoded.symm.trans hrefused)
    exact absurd hzero (by decide)

end MqttEmbedded
