import MqttEmbedded.ClientC.Operations

/-!
# Packet synchronisation of the C client

The peer sends whole packets, but a read ends when its time is up. The bytes of
the stream are marked: a byte knows whether it is the first of a packet. A read
that is cut short inside a packet is reported to `cycle` as if nothing had been
there to read, the session stays open, and the next header is taken from the
middle of the packet. As long as no read inside a packet is cut, every header is
the first byte of a packet.
-/

namespace MqttEmbedded

structure StreamByte where
  byte : UInt8
  first : Bool
  deriving DecidableEq

/-- The bytes of a packet on a stream, the header marked as the first. -/
def WireFrame.marked (w : WireFrame) : List StreamByte :=
  ⟨w.header, true⟩ :: (w.field ++ w.body).map fun b => ⟨b, false⟩

namespace ClientC

open Region Hoare

/-- A call of `mqttread`: whether a packet had been begun before it, the count
asked for and the count it got. -/
structure ReadRecord where
  inside : Bool
  asked : ℕ
  got : ℕ
  deriving DecidableEq

/-- The read left a packet unfinished because its time was up. -/
def ReadRecord.Cut (r : ReadRecord) : Prop := r.inside = true ∧ r.got < r.asked

instance (r : ReadRecord) : Decidable r.Cut := inferInstanceAs (Decidable (_ ∧ _))

structure StreamWorld (ν : Type) where
  inbound : List StreamByte
  reads : List ReadRecord
  state : ν

/-- A network whose reads return what has arrived in time, at most what was
asked for. Everything else is as `base` has it. -/
structure Timeouts (ν τ H : Type) where
  base : Platform ν τ H
  arrived : (len : ℕ) → (timeout : ℤ) → ν → ℕ × ν

namespace Timeouts

variable {ν τ H α : Type}

def insidePacket (inbound : List StreamByte) : Bool :=
  match inbound with
  | [] => false
  | b :: _ => !b.first

def onState (f : ν → α × ν) (w : StreamWorld ν) : α × StreamWorld ν :=
  ((f w.state).1, { w with state := (f w.state).2 })

variable (env : Timeouts ν τ H)

def mqttread (len : ℕ) (timeout : ℤ) (w : StreamWorld ν) : Delivery len × StreamWorld ν :=
  let answer := env.arrived len timeout w.state
  let count := min answer.1 len
  let data := (w.inbound.take count).map StreamByte.byte
  (.arrived data (by simp [data, count]),
    { inbound := w.inbound.drop count
      reads := w.reads ++ [⟨insidePacket w.inbound, len, data.length⟩]
      state := answer.2 })

def platform : Platform (StreamWorld ν) τ H where
  mqttread := env.mqttread
  mqttwrite buffer len timeout := onState (env.base.mqttwrite buffer len timeout)
  timerInit := onState env.base.timerInit
  timerIsExpired timer := onState (env.base.timerIsExpired timer)
  timerCountdownMS timer ms := onState (env.base.timerCountdownMS timer ms)
  timerCountdown timer seconds := onState (env.base.timerCountdown timer seconds)
  timerLeftMS timer := onState (env.base.timerLeftMS timer)
  invoke fp md w := { w with state := env.base.invoke fp md w.state }

end Timeouts

section Stream

/-- The bytes left of the packet that has been begun. -/
def unread (inbound : List StreamByte) : List StreamByte := inbound.takeWhile fun b => !b.first

/-- The stream from the next packet on. -/
def afterPacket (inbound : List StreamByte) : List StreamByte := inbound.dropWhile fun b => !b.first

theorem unread_append_afterPacket (inbound : List StreamByte) :
    unread inbound ++ afterPacket inbound = inbound :=
  List.takeWhile_append_dropWhile

theorem unread_flatMap (packets : List WireFrame) :
    unread (packets.flatMap WireFrame.marked) = [] := by
  cases packets with
  | nil => rfl
  | cons w packets => simp [unread, WireFrame.marked]

theorem afterPacket_flatMap (packets : List WireFrame) :
    afterPacket (packets.flatMap WireFrame.marked) = packets.flatMap WireFrame.marked := by
  cases packets with
  | nil => rfl
  | cons w packets => simp [afterPacket, WireFrame.marked]

theorem unread_append (bytes : List UInt8) (rest : List StreamByte) :
    unread (bytes.map (fun b => ⟨b, false⟩) ++ rest) =
      bytes.map (fun b => ⟨b, false⟩) ++ unread rest :=
  List.takeWhile_append_of_pos (by simp)

theorem afterPacket_append (bytes : List UInt8) (rest : List StreamByte) :
    afterPacket (bytes.map (fun b => ⟨b, false⟩) ++ rest) = afterPacket rest :=
  List.dropWhile_append_of_pos (by simp)

/-- What is read of a packet that has been begun belongs to it. -/
theorem unread_split {inbound : List StreamByte} {bytes rest : List UInt8}
    (h : (unread inbound).map StreamByte.byte = bytes ++ rest) :
    ∃ later, inbound = bytes.map (fun b => ⟨b, false⟩) ++ later ∧
      (unread later).map StreamByte.byte = rest ∧ afterPacket later = afterPacket inbound := by
  induction bytes generalizing inbound with
  | nil => exact ⟨inbound, rfl, h, rfl⟩
  | cons b bytes ih =>
    cases inbound with
    | nil => simp [unread] at h
    | cons c inbound =>
      obtain ⟨byte, first⟩ := c
      cases first with
      | true => simp [unread] at h
      | false =>
        simp only [unread, List.takeWhile_cons, Bool.not_false, if_true, List.map_cons,
          List.cons_append, List.cons.injEq] at h
        obtain ⟨rfl, h⟩ := h
        obtain ⟨later, rfl, hrest, hafter⟩ := ih h
        exact ⟨later, rfl, hrest, hafter⟩

end Stream

namespace Timeouts

variable {ν τ H : Type} (env : Timeouts ν τ H)

/-- Some read inside a packet was cut. -/
def lost (w : StreamWorld ν) : Prop := ∃ r ∈ w.reads, r.Cut

theorem mqttread_takes (timeout : ℤ) (w : StreamWorld ν) (bytes rest : List UInt8)
    (hne : bytes ≠ []) (h : (unread w.inbound).map StreamByte.byte = bytes ++ rest) :
    lost (env.mqttread bytes.length timeout w).2 ∨
      (env.mqttread bytes.length timeout w).1.rc = bytes.length ∧
      (env.mqttread bytes.length timeout w).1.data = bytes ∧
      (unread (env.mqttread bytes.length timeout w).2.inbound).map StreamByte.byte = rest ∧
      afterPacket (env.mqttread bytes.length timeout w).2.inbound = afterPacket w.inbound := by
  obtain ⟨later, hinbound, hrest, hafter⟩ := unread_split h
  by_cases hcount : bytes.length ≤ (env.arrived bytes.length timeout w.state).1
  · right
    have hdata : (env.mqttread bytes.length timeout w).1.data = bytes := by
      simp [mqttread, Delivery.arrived, hinbound, hcount, Function.comp_def]
    have hlater : (env.mqttread bytes.length timeout w).2.inbound = later := by
      simp [mqttread, hinbound, hcount]
    refine ⟨?_, hdata, ?_, ?_⟩
    · change ((env.mqttread bytes.length timeout w).1.data.length : ℤ) = bytes.length
      rw [hdata]
    · rw [hlater, hrest]
    · rw [hlater, hafter]
  · left
    refine ⟨_, List.mem_append_right _ (List.mem_singleton_self _), ?_, ?_⟩
    · obtain ⟨b, bytes, rfl⟩ := List.exists_cons_of_ne_nil hne
      rw [hinbound]
      rfl
    · simp
      omega

/-- Inside a packet the network either delivers what is asked for or cuts a read. -/
def supply : Supply env.platform where
  pending w := (unread w.inbound).map StreamByte.byte
  lost := lost
  R w t := afterPacket t.inbound = afterPacket w.inbound
  refl := fun _ => rfl
  trans := fun h h' => h'.trans h
  timerLeft := fun _ _ => ⟨rfl, id, rfl⟩
  countdown := fun _ _ _ => ⟨rfl, id, rfl⟩
  stays := by
    rintro len timeout w ⟨r, hr, hcut⟩
    exact ⟨r, List.mem_append_left _ hr, hcut⟩
  takes := env.mqttread_takes

/-- The stream goes on with a packet. -/
def InSync (packets : List WireFrame) (size : ℕ) (s : Client (StreamWorld ν) τ H) : Prop :=
  s.client.readbuf.length = size ∧
    ∃ later, later <:+ packets ∧ s.world.inbound = later.flatMap WireFrame.marked

variable {env} {packets : List WireFrame} {size : ℕ}

/-- At a packet boundary a read takes the header of the next packet or nothing. -/
theorem readHeader_inSync (timeout : ℤ) {s : Client (StreamWorld ν) τ H}
    (h : InSync packets size s) :
    wp (readInto env.platform 0 1 timeout)
      (fun rc t => (rc ≠ 1 ∧ InSync packets size t) ∨ (rc = 1 ∧ ∃ f later,
        f :: later <:+ packets ∧ t.client.readbuf = overwrite s.client.readbuf 0 [f.header] ∧
        t.world.inbound =
          (f.field ++ f.body).map (fun b => ⟨b, false⟩) ++ later.flatMap WireFrame.marked))
      (fun _ _ => True) s := by
  obtain ⟨hsize, later, hlater, hinbound⟩ := h
  by_cases hroom : 0 + 1 ≤ s.client.readbuf.length
  · rw [wp_readInto _ hroom]
    simp only [platform, mqttread, Delivery.arrived, InSync]
    rcases Nat.eq_zero_or_pos (env.arrived 1 timeout s.world.state).1 with hnone | hone
    · exact .inl ⟨by simp [hnone], by simpa [hnone] using hsize, later, hlater,
        by simp [hnone, hinbound]⟩
    · have hcount : min (env.arrived 1 timeout s.world.state).1 1 = 1 := by omega
      cases later with
      | nil =>
        exact .inl ⟨by simp [hinbound], by simpa [hinbound] using hsize, [], hlater,
          by simp [hinbound]⟩
      | cons f later =>
        exact .inr ⟨by simp [hinbound, hcount, WireFrame.marked], f, later, hlater,
          by simp [hinbound, hcount, WireFrame.marked],
          by simp [hinbound, hcount, WireFrame.marked]⟩
  · unfold wp readInto
    rw [if_neg hroom]
    trivial

/-- What happens after the read leaves the stream and the record of reads alone. -/
abbrev Calm (s t : Client (StreamWorld ν) τ H) : Prop :=
  t.world.inbound = s.world.inbound ∧ t.world.reads = s.world.reads ∧
    t.client.readbuf = s.client.readbuf

theorem quiet_calm : env.platform.Quiet (Calm : Client (StreamWorld ν) τ H → _ → Prop) where
  client := fun _ _ h => ⟨rfl, rfl, h⟩
  mqttwrite := fun _ _ _ _ => ⟨rfl, rfl, rfl⟩
  timerInit := fun _ => ⟨rfl, rfl, rfl⟩
  timerIsExpired := fun _ _ => ⟨rfl, rfl, rfl⟩
  timerCountdownMS := fun _ _ _ => ⟨rfl, rfl, rfl⟩
  timerCountdown := fun _ _ _ => ⟨rfl, rfl, rfl⟩
  timerLeftMS := fun _ _ => ⟨rfl, rfl, rfl⟩
  invoke := fun _ _ _ => ⟨rfl, rfl, rfl⟩

instance : Std.Refl (Calm : Client (StreamWorld ν) τ H → _ → Prop) := ⟨fun _ => ⟨rfl, rfl, rfl⟩⟩

instance : IsTrans (Client (StreamWorld ν) τ H) Calm :=
  ⟨fun _ _ _ h h' => ⟨h'.1.trans h.1, h'.2.1.trans h.2.1, h'.2.2.trans h.2.2⟩⟩

theorem cycle_staysLost (fuel : ℕ) (timer : τ) : Moves env.supply.StaysLost
    (cycle env.platform fuel timer : Prog (Client (StreamWorld ν) τ H) ℤ) := by
  refine .bind (env.supply.readPacketWith_staysLost tooLong 0 timer) fun packetType =>
    ((variant_stays fuel quiet_calm).afterRead packetType timer).mono ?_
  rintro s t ⟨-, hreads, -⟩ hlost
  change lost t.world
  unfold lost
  rwa [hreads]

theorem cycles_staysLost (fuel : ℕ) (timers : ℕ → τ) (count : ℕ) : Moves env.supply.StaysLost
    (cycles env.platform fuel timers count : Prog (Client (StreamWorld ν) τ H) _) := by
  induction count with
  | zero => exact .pure _
  | succ count ih =>
    refine .bind .get fun start => .bind (cycle_staysLost fuel (timers count)) fun rc => ?_
    exact .bind ih fun later => .pure _

variable (hfits : ∀ f ∈ packets, f.stored.length ≤ size)
include hfits

theorem readPacket_inSync (timer : τ) {s : Client (StreamWorld ν) τ H}
    (h : InSync packets size s) :
    wp (readPacket env.platform timer) (fun _ t => lost t.world ∨ InSync packets size t)
      (fun _ _ => True) s := by
  have hsize := h.1
  unfold readPacket readPacketWith
  rw [wp_bind, wp_ask, wp_bind]
  have hleft : InSync packets size { s with world := (env.platform.timerLeftMS timer s.world).2 } :=
    h
  apply wp_imp (readHeader_inSync _ hleft)
  rintro rc t (⟨hrc, ht⟩ | ⟨rfl, f, later, hsuffix, hbuf, hinbound⟩)
  · rw [if_pos hrc]
    exact .inr ht
  · have hf : f.stored.length ≤ s.client.readbuf.length :=
      hsize ▸ hfits f (hsuffix.subset List.mem_cons_self)
    have hpending : env.supply.pending t.world = f.field ++ (f.body ++ []) := by
      change (unread t.world.inbound).map StreamByte.byte = _
      simp [hinbound, unread_append, unread_flatMap, Function.comp_def]
    rw [if_neg (by simp)]
    apply wp_mono (env.supply.readRest_frame hf hbuf (tooLong_stored hf) hpending)
    · rintro rc u (hlost | ⟨-, -, hrest, hR, lastReceived, hclient⟩)
      · exact .inl hlost
      · right
        refine ⟨?_, later, (List.suffix_cons f later).trans hsuffix, ?_⟩
        · rw [hclient, ← hsize]
          exact length_overwrite (by omega)
        · change (unread u.world.inbound).map StreamByte.byte = [] at hrest
          change afterPacket u.world.inbound = afterPacket t.world.inbound at hR
          rw [hinbound, afterPacket_append, afterPacket_flatMap] at hR
          rw [← unread_append_afterPacket u.world.inbound, List.map_eq_nil_iff.mp hrest, hR]
          rfl
    · exact fun _ _ _ => trivial

/-- A cycle from a packet boundary ends at one, unless a read inside a packet is cut. -/
theorem cycle_inSync (fuel : ℕ) (timer : τ) {s : Client (StreamWorld ν) τ H}
    (h : InSync packets size s) :
    wp (cycle env.platform fuel timer) (fun _ t => lost t.world ∨ InSync packets size t)
      (fun _ _ => True) s := by
  unfold cycle Variant.cycle
  rw [wp_bind]
  apply wp_imp (readPacket_inSync hfits timer h)
  intro packetType t ht
  apply wp_mono ((variant_stays fuel quiet_calm).afterRead packetType timer t)
  · rintro rc u ⟨hinbound, hreads, hbuf⟩
    rcases ht with hlost | ⟨hsize, later, hlater, hpending⟩
    · left
      unfold lost
      rwa [hreads]
    · exact .inr ⟨hbuf ▸ hsize, later, hlater, hinbound.trans hpending⟩
  · exact fun _ _ _ => trivial

theorem cycles_inSync (fuel : ℕ) (timers : ℕ → τ) : ∀ (count : ℕ) {s : Client (StreamWorld ν) τ H},
    InSync packets size s →
    wp (cycles env.platform fuel timers count)
      (fun starts t => lost t.world ∨ ∀ start ∈ starts, InSync packets size start)
      (fun _ _ => True) s
  | 0, s, _ => by
    rw [cycles, wp_pure]
    exact .inr (by simp)
  | count + 1, s, h => by
    rw [cycles]
    simp only [wp_bind, wp_get, wp_pure]
    apply wp_imp (cycle_inSync hfits fuel (timers count) h)
    rintro _ t (hlost | ht)
    · apply wp_mono (cycles_staysLost fuel timers count t)
      · exact fun _ _ hu => .inl (hu hlost)
      · exact fun _ _ _ => trivial
    · apply wp_imp (cycles_inSync fuel timers count ht)
      rintro starts u (hlost | hstarts)
      · exact .inl hlost
      · exact .inr (by simpa using ⟨h, hstarts⟩)

end Timeouts

/-- While the session is connected, the byte a cycle takes as a header is the first
of a packet: `start` is the session at the call, where the header is yet to be read. -/
def HeadersFirst {ν τ H : Type} (starts : List (Client (StreamWorld ν) τ H)) : Prop :=
  ∀ start ∈ starts, start.client.isconnected = true →
    ∀ b ∈ start.world.inbound.head?, b.first = true

instance {ν τ H : Type} (starts : List (Client (StreamWorld ν) τ H)) :
    Decidable (HeadersFirst starts) :=
  inferInstanceAs (Decidable (∀ start ∈ starts, start.client.isconnected = true →
    ∀ b ∈ start.world.inbound.head?, b.first = true))

/-- As long as no read inside a packet is cut, every cycle of a run takes its header
from the start of a packet. -/
theorem cycles_headersFirst {ν τ H : Type} (env : Timeouts ν τ H) (fuel : ℕ) (timers : ℕ → τ)
    {packets : List WireFrame} {s : Client (StreamWorld ν) τ H}
    (hstream : s.world.inbound = packets.flatMap WireFrame.marked)
    (hfits : ∀ f ∈ packets, f.stored.length ≤ s.client.readbuf.length) {count : ℕ}
    {starts : List (Client (StreamWorld ν) τ H)} {t : Client (StreamWorld ν) τ H}
    (hrun : cycles env.platform fuel timers count s = .ok starts t)
    (hcut : ∀ r ∈ t.world.reads, ¬ r.Cut) : HeadersFirst starts := by
  have hsync : Timeouts.InSync packets s.client.readbuf.length s :=
    ⟨rfl, packets, List.suffix_rfl, hstream⟩
  intro start hstart _ b hb
  rcases wp_result (Timeouts.cycles_inSync hfits fuel timers count hsync) hrun with hlost | hstarts
  · obtain ⟨r, hr, hbad⟩ := hlost
    exact absurd hbad (hcut r hr)
  · obtain ⟨-, later, -, hinbound⟩ := hstarts start hstart
    rw [hinbound] at hb
    cases later with
    | nil => simp at hb
    | cons f later =>
      simp only [List.flatMap_cons, WireFrame.marked, List.cons_append, List.head?_cons,
        Option.mem_def, Option.some.injEq] at hb
      rw [← hb]

/-- The reads get what the schedule says, and all there is when it has ended. Writes
are taken whole and no timer expires. -/
def scheduledReads : Timeouts (List ℕ) Unit Unit where
  base :=
    { mqttread := fun _ _ schedule => (.failed 0 Delivery.none_nonpos, schedule)
      mqttwrite := fun _ len _ schedule => (len, schedule)
      timerInit := fun schedule => ((), schedule)
      timerIsExpired := fun _ schedule => (false, schedule)
      timerCountdownMS := fun _ _ schedule => ((), schedule)
      timerCountdown := fun _ _ schedule => ((), schedule)
      timerLeftMS := fun _ schedule => (1000, schedule)
      invoke := fun _ _ schedule => schedule }
  arrived := fun len _ schedule => (schedule.headD len, schedule.tail)

/-- A PUBACK and a PINGRESP. -/
def pubackPingresp : List WireFrame :=
  [⟨0x40, [2], [0, 1], .last (by decide), by decide⟩, ⟨0xD0, [0], [], .last (by decide), by decide⟩]

/-- A connected client with the stream before it. -/
def connectedTo (packets : List WireFrame) (schedule : List ℕ) :
    Client (StreamWorld (List ℕ)) Unit Unit where
  client :=
    { nextPacketid := 1
      commandTimeoutMs := 1000
      buf := List.replicate 8 0
      readbuf := List.replicate 8 0
      keepAliveInterval := 0
      pingOutstanding := false
      isconnected := true
      cleansession := false
      messageHandlers := []
      defaultMessageHandler := none
      lastSent := ()
      lastReceived := () }
  own := ()
  world := ⟨packets.flatMap WireFrame.marked, [], schedule⟩

theorem cycles_headersFirst_prompt :
    ∃ starts t, cycles scheduledReads.platform 4 (fun _ => ()) 2
      (connectedTo pubackPingresp []) = .ok starts t ∧ starts.length = 2 ∧ HeadersFirst starts := by
  obtain ⟨starts, t, hrun, hlen, hcut⟩ : ∃ starts t, cycles scheduledReads.platform 4 (fun _ => ())
      2 (connectedTo pubackPingresp []) = .ok starts t ∧ starts.length = 2 ∧
      ∀ r ∈ t.world.reads, ¬ r.Cut := wp_total (by decide +kernel)
  have hstream : (connectedTo pubackPingresp []).world.inbound =
      pubackPingresp.flatMap WireFrame.marked := rfl
  have hfits : ∀ f ∈ pubackPingresp,
      f.stored.length ≤ (connectedTo pubackPingresp []).client.readbuf.length := by decide
  exact ⟨starts, t, hrun, hlen, cycles_headersFirst scheduledReads 4 (fun _ => ()) hstream hfits
    hrun hcut⟩

/-- The body of the PUBACK is not there in time, and the next header is its first byte. -/
theorem cycles_not_headersFirst :
    ∃ starts t, cycles scheduledReads.platform 4 (fun _ => ()) 2
      (connectedTo pubackPingresp [1, 1, 0]) = .ok starts t ∧ ¬ HeadersFirst starts :=
  wp_total (by decide +kernel)

end ClientC
end MqttEmbedded
