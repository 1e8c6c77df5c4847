import MqttEmbedded.Client.Delivery
import MqttEmbedded.Lib.LevelPatterns

/-!
# What a topic filter matches

The rules of MQTT are about levels: `+` is for one level, `#` for all that are left. The
loop of `isTopicMatched` goes over bytes, and a wildcard takes the byte that it meets
before anything is skipped; so it does what the rules say, as long as there is such a byte.
-/

namespace MqttEmbedded

open LevelPatterns

/-- The levels of a topic name or of a filter. -/
def topicLevels (topic : List UInt8) : List (List UInt8) := topic.splitOn separator

/-- What a level of a filter stands for. -/
def levelPiece (level : List UInt8) : Piece (List UInt8) :=
  if level = [singleLevel] then .any else if level = [multiLevel] then .rest else .exact level

/-- A wildcard is a level of its own, and `#` is the last one. -/
structure WellFormedLevels (levels : List (List UInt8)) : Prop where
  whole : ∀ level ∈ levels, level = [singleLevel] ∨ level = [multiLevel] ∨
    (singleLevel ∉ level ∧ multiLevel ∉ level)
  last : ∀ level ∈ levels.dropLast, level ≠ [multiLevel]

def WellFormedFilter (topicFilter : List UInt8) : Prop := WellFormedLevels (topicLevels topicFilter)

def filterPieces (topicFilter : List UInt8) : List (Piece (List UInt8)) :=
  (topicLevels topicFilter).map levelPiece

/-- The topic name matches the filter under the rules of MQTT: `+` is for one level, empty or
not, and `#` for any number of levels. -/
def FilterMatches (topicFilter topic : List UInt8) : Prop :=
  Matches (fun _ => True) (fun _ => True) (filterPieces topicFilter) (topicLevels topic)

/-- What the loop lets `+` stand for. -/
def HasByte (level : List UInt8) : Prop := level ≠ []

/-- What the loop lets `#` stand for. -/
def BeginsWithByte (levels : List (List UInt8)) : Prop :=
  ∃ level rest, levels = level :: rest ∧ level ≠ []

theorem WellFormedLevels.tail {level : List UInt8} {levels : List (List UInt8)}
    (h : WellFormedLevels (level :: levels)) : WellFormedLevels levels := by
  refine ⟨fun l hl => h.whole l (List.mem_cons_of_mem _ hl), fun l hl => h.last l ?_⟩
  cases levels with
  | nil => cases hl
  | cons next levels => exact List.mem_cons_of_mem _ hl

theorem WellFormedLevels.rest_last {levels : List (List UInt8)}
    (h : WellFormedLevels ([multiLevel] :: levels)) : levels = [] := by
  cases levels with
  | nil => rfl
  | cons next levels => exact absurd rfl (h.last [multiLevel] List.mem_cons_self)

section

variable {level m tail ntail : List UInt8} {levels nlevels : List (List UInt8)}

theorem topicMatches_exact (hsingle : singleLevel ∉ level) (hmulti : multiLevel ∉ level)
    (hlevel : separator ∉ level) (hm : separator ∉ m) (htail : Onward separator tail levels)
    (hntail : Onward separator ntail nlevels) :
    topicMatches (level ++ tail) (m ++ ntail) = true ↔
      level = m ∧ topicMatches tail ntail = true := by
  induction level generalizing m with
  | nil =>
    cases m with
    | nil => simp
    | cons c m =>
      have hc : c ≠ separator := fun h => hm (h ▸ List.mem_cons_self)
      cases htail with
      | stop => simp [topicMatches]
      | next xs =>
        have hne : separator ≠ c := hc.symm
        have hkind : separator ≠ singleLevel ∧ separator ≠ multiLevel := by decide
        simp [topicMatches, hne, hkind.1, hkind.2]
  | cons a level ih =>
    have ha : a ≠ separator := fun h => hlevel (h ▸ List.mem_cons_self)
    have hasingle : a ≠ singleLevel := fun h => hsingle (h ▸ List.mem_cons_self)
    have hamulti : a ≠ multiLevel := fun h => hmulti (h ▸ List.mem_cons_self)
    cases m with
    | nil =>
      cases hntail with
      | stop => simp [topicMatches]
      | next xs => simp [topicMatches, ha]
    | cons c m =>
      have hc : c ≠ separator := fun h => hm (h ▸ List.mem_cons_self)
      have hrest := ih (fun h => hsingle (List.mem_cons_of_mem _ h))
        (fun h => hmulti (List.mem_cons_of_mem _ h)) (fun h => hlevel (List.mem_cons_of_mem _ h))
        (fun h => hm (List.mem_cons_of_mem _ h))
      by_cases hac : a = c
      · subst hac
        simp only [List.cons_append, topicMatches]
        rw [if_neg (fun h => hc h.1), if_neg (fun h => h.2.2 rfl), if_neg hasingle,
          if_neg hamulti, hrest]
        simp
      · simp only [List.cons_append, topicMatches]
        rw [if_neg (fun h => hc h.1), if_pos ⟨hasingle, hamulti, hac⟩]
        simp [hac]

/-- The separator stops what `+` skips, and it may not be the first byte. -/
theorem topicMatches_any (hm : separator ∉ m) (hntail : Onward separator ntail nlevels) :
    topicMatches (singleLevel :: tail) (m ++ ntail) = true ↔
      HasByte m ∧ topicMatches tail ntail = true := by
  cases m with
  | nil =>
    cases hntail with
    | stop => simp [topicMatches, HasByte]
    | next xs => simp [topicMatches, HasByte, separator, singleLevel]
  | cons c m =>
    have hc : c ≠ separator := fun h => hm (h ▸ List.mem_cons_self)
    have hskip : (m ++ ntail).dropWhile (fun b => decide (b ≠ separator)) = ntail := by
      rw [List.dropWhile_append_of_pos]
      · cases hntail with
        | stop => rfl
        | next xs => simp
      · intro b hb
        exact decide_eq_true fun h => hm (List.mem_cons_of_mem _ (h ▸ hb))
    simp only [List.cons_append, topicMatches]
    rw [if_neg (fun h => hc h.1), if_neg (fun h => h.1 rfl), if_pos trivial, hskip]
    simp [HasByte]

theorem topicMatches_rest (hm : separator ∉ m) (hntail : Onward separator ntail nlevels) :
    topicMatches [multiLevel] (m ++ ntail) = true ↔ HasByte m := by
  cases m with
  | nil =>
    cases hntail with
    | stop => simp [topicMatches, HasByte]
    | next xs => simp [topicMatches, HasByte, separator, multiLevel]
  | cons c m =>
    have hc : c ≠ separator := fun h => hm (h ▸ List.mem_cons_self)
    have hne : multiLevel ≠ singleLevel := by decide
    simp only [List.cons_append, topicMatches]
    rw [if_neg (fun h => hc h.1), if_neg (fun h => h.2.1 rfl), if_neg hne, if_pos trivial]
    simp [HasByte]

end

theorem not_beginsWithByte_nil : ¬ BeginsWithByte [] := by
  intro h
  obtain ⟨_, _, heq, -⟩ := h
  cases heq

theorem beginsWithByte_cons {level : List UInt8} {levels : List (List UInt8)} :
    BeginsWithByte (level :: levels) ↔ HasByte level := by
  constructor
  · rintro ⟨_, _, heq, hbyte⟩
    obtain ⟨rfl, -⟩ := List.cons.inj heq
    exact hbyte
  · exact fun h => ⟨level, levels, rfl, h⟩

theorem levelPiece_exact {level : List UInt8} (hsingle : singleLevel ∉ level)
    (hmulti : multiLevel ∉ level) : levelPiece level = .exact level := by
  have hne (b : UInt8) (hb : b ∉ level) : level ≠ [b] := by
    rintro rfl
    exact hb List.mem_cons_self
  rw [levelPiece, if_neg (hne _ hsingle), if_neg (hne _ hmulti)]

/-- After a level the separators go in step. -/
theorem topicMatches_onward {tail ntail : List UInt8} {levels nlevels : List (List UInt8)}
    (htail : Onward separator tail levels) (hntail : Onward separator ntail nlevels)
    (hnext : ∀ xs ys, tail = separator :: xs → (topicMatches xs ys = true ↔
      Matches HasByte BeginsWithByte (filterPieces xs) (topicLevels ys))) :
    topicMatches tail ntail = true ↔
      Matches HasByte BeginsWithByte (levels.map levelPiece) nlevels := by
  cases htail with
  | stop =>
    rw [List.map_nil, matches_nil]
    cases hntail with
    | stop => simp [topicMatches]
    | next ys => simp [topicMatches, List.splitOn_ne_nil]
  | next xs =>
    cases hntail with
    | stop =>
      have hpieces : (xs.splitOn separator).map levelPiece ≠ [] := by
        simp [List.splitOn_ne_nil]
      refine iff_of_false (by simp [topicMatches]) ?_
      exact not_matches_no_level hpieces not_beginsWithByte_nil
    | next ys =>
      have hstep : topicMatches (separator :: xs) (separator :: ys) = topicMatches xs ys := by
        simp [topicMatches, separator, singleLevel, multiLevel]
      rw [hstep]
      exact hnext xs ys rfl

/-- On a well-formed filter the loop follows the rules, with wildcards that stand for no level
without a byte. -/
theorem topicMatches_iff {topicFilter : List UInt8} (hfilter : WellFormedFilter topicFilter)
    (topic : List UInt8) : topicMatches topicFilter topic = true ↔
      Matches HasByte BeginsWithByte (filterPieces topicFilter) (topicLevels topic) := by
  induction hlen : topicFilter.length using Nat.strong_induction_on
    generalizing topicFilter topic with
  | _ n ih =>
    obtain ⟨level, tail, levels, rfl, hlevel, htail⟩ := exists_onward separator topicFilter
    obtain ⟨m, ntail, nlevels, rfl, hm, hntail⟩ := exists_onward separator topic
    unfold WellFormedFilter topicLevels at hfilter
    unfold filterPieces topicLevels
    rw [splitOn_onward hlevel htail] at hfilter ⊢
    rw [splitOn_onward hm hntail, List.map_cons]
    have hrest := topicMatches_onward htail hntail fun xs ys hxs => by
      subst hxs
      have htailLevels := hfilter.tail
      cases htail with
      | next =>
        have hlt : xs.length < n := by
          rw [← hlen, List.length_append, List.length_cons]
          omega
        exact ih xs.length hlt htailLevels ys rfl
    obtain rfl | rfl | ⟨hsingle, hmulti⟩ := hfilter.whole level List.mem_cons_self
    · rw [levelPiece, if_pos rfl, matches_any, List.singleton_append, topicMatches_any hm hntail,
        hrest]
    · obtain rfl := hfilter.rest_last
      obtain rfl := htail.eq_nil rfl
      have hpiece : levelPiece [multiLevel] = .rest := rfl
      rw [hpiece, List.map_nil, matches_rest, beginsWithByte_cons, List.append_nil,
        topicMatches_rest hm hntail]
    · rw [levelPiece_exact hsingle hmulti, matches_exact,
        topicMatches_exact hsingle hmulti hlevel hm htail hntail, hrest]

/-- A filter that is taken for a name matches itself, byte for byte. -/
theorem matches_self {levels : List (List UInt8)} (h : WellFormedLevels levels) :
    Matches HasByte BeginsWithByte (levels.map levelPiece) levels := by
  induction levels with
  | nil => exact .done
  | cons level levels ih =>
    have htail := ih h.tail
    rw [List.map_cons, levelPiece]
    split_ifs with hany hrest
    · subst hany
      exact .any (List.cons_ne_nil _ _) htail
    · subst hrest
      obtain rfl := h.rest_last
      exact .rest ⟨_, _, rfl, List.cons_ne_nil _ _⟩
    · exact .exact level htail

/-- A topic name in the buffer, with what comes after it. -/
def topicSlice (topic more : List UInt8) : MQTTString :=
  ⟨none, ⟨topic.length, some (topic ++ more)⟩⟩

section

variable {topicFilter : CString} {topic : List UInt8}

theorem isTopicMatched_slice (topicFilter : CString) (topic more : List UInt8) :
    isTopicMatched topicFilter (topicSlice topic more) = topicMatches topicFilter.bytes topic := by
  simp [isTopicMatched, topicSlice]

/-- Both tests of `deliverMessage` together. -/
theorem takes_iff (hfilter : WellFormedFilter topicFilter.bytes) (more : List UInt8) :
    takes (topicSlice topic more) topicFilter = true ↔
      Matches HasByte BeginsWithByte (filterPieces topicFilter.bytes) (topicLevels topic) := by
  rw [takes, Bool.or_eq_true, isTopicMatched_slice, topicMatches_iff hfilter, topicSlice,
    mqttPacketEquals_iff rfl]
  constructor
  · intro h
    obtain rfl | hmatches := h
    · exact matches_self hfilter
    · exact hmatches
  · exact .inr

theorem filterMatches_of_matches
    (h : Matches HasByte BeginsWithByte (filterPieces topicFilter.bytes) (topicLevels topic)) :
    FilterMatches topicFilter.bytes topic :=
  h.mono (fun _ _ => trivial) fun _ _ => trivial

end

section

open SlotTable

variable {χ ω τ H : Type}

theorem mem_takers {topicName : MQTTString} {slots : List (MessageHandler H)}
    {topicFilter : CString} {fp : H} : (topicFilter, fp) ∈ takers topicName slots ↔
      ⟨some topicFilter, some fp⟩ ∈ slots ∧ takes topicName topicFilter = true := by
  rw [takers, List.mem_filter, entries, List.mem_filterMap]
  constructor
  · intro h
    obtain ⟨⟨⟨filter, pointer⟩, hslot, hentry⟩, htakes⟩ := h
    cases filter with
    | none => cases hentry
    | some filter =>
      cases pointer with
      | none => cases hentry
      | some pointer =>
        cases hentry
        exact ⟨hslot, htakes⟩
  · intro h
    exact ⟨⟨_, h.1, rfl⟩, h.2⟩

/-- What `isTopicMatched` accepts matches; and the handlers that are called for a message are
those of filters that its topic matches, or else the default handler. -/
theorem deliverMessage_sound (p : Platform ω τ H) :
    (∀ (topicFilter : CString) (topic more : List UInt8), WellFormedFilter topicFilter.bytes →
      isTopicMatched topicFilter (topicSlice topic more) = true →
      FilterMatches topicFilter.bytes topic) ∧
    ∀ (s : Session χ ω τ H) (topic more : List UInt8) (message : MQTTMessage),
      (∀ slot ∈ s.client.messageHandlers, ∀ topicFilter, slot.topicFilter = some topicFilter →
        WellFormedFilter topicFilter.bytes) →
      ∃ given : List (CString × H),
        (∀ topicFilter fp, (topicFilter, fp) ∈ given →
          ⟨some topicFilter, some fp⟩ ∈ s.client.messageHandlers ∧
            FilterMatches topicFilter.bytes topic) ∧
        ∃ fps, fps = (if given = [] then s.client.defaultMessageHandler.toList
            else given.map Prod.snd) ∧
          deliverMessage p (topicSlice topic more) message s =
            .ok (if fps = [] then failure else success) { s with
              world := invokeAll p ⟨message, topicSlice topic more⟩ fps s.world } := by
  constructor
  · intro topicFilter topic more hfilter hmatched
    rw [isTopicMatched_slice, topicMatches_iff hfilter] at hmatched
    exact filterMatches_of_matches hmatched
  · intro s topic more message hfilters
    refine ⟨takers (topicSlice topic more) s.client.messageHandlers, ?_, _, rfl,
      deliverMessage_called _ _ _⟩
    intro topicFilter fp hmem
    obtain ⟨hslot, htakes⟩ := mem_takers.mp hmem
    have hmatches := (takes_iff (hfilters _ hslot topicFilter rfl) more).mp htakes
    exact ⟨hslot, filterMatches_of_matches hmatches⟩

/-- A message whose topic matches the filter goes to its handler if and only if every
wildcard of the filter faces a level that has a byte. -/
theorem deliverMessage_complete (p : Platform ω τ H) (s : Session χ ω τ H)
    (topicFilter : CString) (fp : H) (topic more : List UInt8) (message : MQTTMessage)
    (hslot : ⟨some topicFilter, some fp⟩ ∈ s.client.messageHandlers)
    (hfilter : WellFormedFilter topicFilter.bytes)
    (hmatches : FilterMatches topicFilter.bytes topic) :
    deliverMessage p (topicSlice topic more) message s =
        .ok (if called (topicSlice topic more) s.client = [] then failure else success) { s with
          world := invokeAll p ⟨message, topicSlice topic more⟩
            (called (topicSlice topic more) s.client) s.world } ∧
      ((topicFilter, fp) ∈ takers (topicSlice topic more) s.client.messageHandlers ↔
        Faced HasByte BeginsWithByte (filterPieces topicFilter.bytes) (topicLevels topic)) := by
  constructor
  · exact deliverMessage_called _ _ _
  · rw [mem_takers, takes_iff hfilter, matches_iff_faced]
    constructor
    · exact fun h => h.2.2
    · exact fun hfaced => ⟨hslot, hmatches, hfaced⟩

/-- An application whose handlers are numbers and which remembers those that were called. -/
def handlerLog : Platform (List ℕ) Unit ℕ where
  mqttread := fun _ _ called => (.failed (-1) Delivery.error_nonpos, called)
  mqttwrite := fun _ _ _ called => (-1, called)
  timerInit := fun called => ((), called)
  timerIsExpired := fun _ called => (true, called)
  timerCountdownMS := fun _ _ called => ((), called)
  timerCountdown := fun _ _ called => ((), called)
  timerLeftMS := fun _ called => (0, called)
  invoke := fun fp _ called => called ++ [fp]

/-- A client with handler 1 for one filter. -/
def subscribedTo (topicFilter : CString) : Session Unit (List ℕ) Unit ℕ where
  client := {
    nextPacketid := 1
    commandTimeoutMs := 1000
    buf := []
    readbuf := []
    keepAliveInterval := 0
    pingOutstanding := false
    isconnected := true
    cleansession := true
    messageHandlers := [⟨some topicFilter, some 1⟩]
    defaultMessageHandler := none
    lastSent := ()
    lastReceived := () }
  own := ()
  world := []

def emptyMessage : MQTTMessage := ⟨0, 0, 0, none, [], 0⟩

def anyThenA : CString := ⟨[43, 47, 97], by decide⟩

def aThenRest : CString := ⟨[97, 47, 35], by decide⟩

/-- `b/a` matches `+/a`. -/
theorem deliverMessage_sound_any :
    FilterMatches anyThenA.bytes [98, 47, 97] ∧
      ∃ given : List (CString × ℕ),
        (∀ topicFilter fp, (topicFilter, fp) ∈ given →
          ⟨some topicFilter, some fp⟩ ∈ (subscribedTo anyThenA).client.messageHandlers ∧
            FilterMatches topicFilter.bytes [98, 47, 97]) ∧
        ∃ fps, fps = (if given = [] then [] else given.map Prod.snd) ∧
          deliverMessage handlerLog (topicSlice [98, 47, 97] []) emptyMessage
              (subscribedTo anyThenA) =
            .ok (if fps = [] then failure else success) { subscribedTo anyThenA with
              world := invokeAll handlerLog
                ⟨emptyMessage, topicSlice [98, 47, 97] []⟩ fps [] } := by
  obtain ⟨hmatched, hgiven⟩ := deliverMessage_sound (χ := Unit) handlerLog
  refine ⟨hmatched anyThenA [98, 47, 97] [] ⟨by decide, by decide⟩ (by decide), ?_⟩
  refine hgiven (subscribedTo anyThenA) [98, 47, 97] [] emptyMessage ?_
  intro slot hslot topicFilter h
  obtain rfl := List.mem_singleton.mp hslot
  obtain rfl := Option.some.inj h
  exact ⟨by decide, by decide⟩

/-- `b/a` reaches the handler of `+/a`. -/
theorem deliverMessage_complete_any :
    (anyThenA, 1) ∈
      takers (topicSlice [98, 47, 97] []) (subscribedTo anyThenA).client.messageHandlers := by
  refine (deliverMessage_complete handlerLog (subscribedTo anyThenA) anyThenA 1 [98, 47, 97] []
    emptyMessage (List.mem_singleton.mpr rfl) ⟨by decide, by decide⟩
    (.any trivial (.exact [97] .done))).2.mpr ?_
  have hbyte : HasByte [98] := List.cons_ne_nil 98 []
  have hmatches : Matches HasByte BeginsWithByte (filterPieces anyThenA.bytes)
      (topicLevels [98, 47, 97]) := .any hbyte (.exact [97] .done)
  exact (matches_iff_faced.mp hmatches).2

/-- `/a` does not reach the handler of `+/a`, nor `a` that of `a/#`. -/
theorem deliverMessage_not_complete :
    (WellFormedFilter anyThenA.bytes ∧ FilterMatches anyThenA.bytes [47, 97] ∧
      deliverMessage handlerLog (topicSlice [47, 97] []) emptyMessage (subscribedTo anyThenA) =
        .ok failure (subscribedTo anyThenA)) ∧
    (WellFormedFilter aThenRest.bytes ∧ FilterMatches aThenRest.bytes [97] ∧
      deliverMessage handlerLog (topicSlice [97] []) emptyMessage (subscribedTo aThenRest) =
        .ok failure (subscribedTo aThenRest)) := by
  refine ⟨⟨⟨by decide, by decide⟩, ?_, rfl⟩, ⟨by decide, by decide⟩, ?_, rfl⟩
  · exact .any trivial (.exact [97] .done)
  · exact .exact [97] (.rest trivial)

end

end MqttEmbedded
