import MqttEmbedded.Packet.ReadNonblocking
import MqttEmbedded.Packet.Stream
import MqttEmbedded.ClientC.Operations

/-!
# No peer overflows a receive buffer

The three readers test the length of a packet in three ways, after they have put
the length back into the buffer. In the models a store or a request that would
end past the buffer is a fault, so what is proved is that there are no faults,
for any answers of the transport and any number of calls.
-/

namespace MqttEmbedded.ClientC

open Hoare

/-- The wrapping subtraction does not wrap for a length field that has been
written into the buffer. -/
theorem tooLong_eq_false {size len remLen : ℕ} (hlen : len ≤ 5) (hsize : 5 ≤ size)
    (h : tooLong size len remLen = false) : len + remLen ≤ size := by
  have hle : len ≤ size := by omega
  simp only [tooLong, sizeSub, if_pos hle, decide_eq_false_iff_not, not_lt] at h
  omega

theorem readPacket_inBounds {ω τ H : Type} (p : Platform ω τ H) (timer : τ) {s : Client ω τ H}
    (h : 5 ≤ s.client.readbuf.length) :
    wp (readPacket p timer) (fun _ t => t.client.readbuf.length = s.client.readbuf.length)
      (fun _ _ => False) s :=
  readPacketWith_inBounds p (fun _ _ _ => tooLong_eq_false) h

/-- What the client and the platform do between two calls: anything that leaves
the receive buffer its size. -/
structure Interlude (ω τ H : Type) where
  change : ℕ → Client ω τ H → Client ω τ H
  length_readbuf : ∀ k s, (change k s).client.readbuf.length = s.client.readbuf.length

/-- `count` calls of `readPacket`, the `k`-th first. -/
def readPackets {ω τ H : Type} (p : Platform ω τ H) (timers : ℕ → τ) (between : Interlude ω τ H) :
    ℕ → ℕ → Prog (Client ω τ H) (List ℤ)
  | _, 0 => pure []
  | k, count + 1 => do
    modify (between.change k)
    let rc ← readPacket p (timers k)
    let later ← readPackets p timers between (k + 1) count
    pure (rc :: later)

theorem readPackets_inBounds {ω τ H : Type} (p : Platform ω τ H) (timers : ℕ → τ)
    (between : Interlude ω τ H) {size : ℕ} (hfive : 5 ≤ size) : ∀ (count k : ℕ) {s : Client ω τ H},
    s.client.readbuf.length = size →
    wp (readPackets p timers between k count) (fun _ t => t.client.readbuf.length = size)
      (fun _ _ => False) s
  | 0, _, _, h => h
  | count + 1, k, s, h => by
    have hturn := (between.length_readbuf k s).trans h
    rw [readPackets]
    simp only [wp_bind, wp_modify, wp_pure]
    apply wp_imp (readPacket_inBounds p (timers k) (hfive.trans hturn.ge))
    intro rc t ht
    exact readPackets_inBounds p timers between hfive count (k + 1) (ht.trans hturn)

theorem mqttPacketReads_inBounds {σ : Type} (getfn : Getfn σ) {buflen : ℕ} (hfive : 5 ≤ buflen) :
    ∀ (count : ℕ) {r : Reader σ}, r.buf.length = buflen →
    wp (mqttPacketReads getfn count) (fun _ t => t.buf.length = buflen) (fun _ _ => False) r
  | 0, _, h => h
  | count + 1, r, h => by
    rw [mqttPacketReads]
    simp only [wp_bind, wp_get, wp_pure]
    apply wp_imp (mqttPacketRead_inBounds getfn (hfive.trans h.ge))
    intro rc t ht
    exact mqttPacketReads_inBounds getfn hfive count (ht.trans h)

/-- Every run of every reader, over any number of calls and with any answers of
the transport, ends without a store or a request outside the receive buffer. -/
theorem readers_inBounds (size count : ℕ) (hfive : 5 ≤ size) :
    (∀ (σ : Type) (getfn : Getfn σ) (r : Reader σ), r.buf.length = size →
      ∃ log t, mqttPacketReads getfn count r = .ok log t ∧ t.buf.length = size) ∧
    (∀ (σ : Type) (getfn : GetfnNb σ) (caller : Caller) (r : ReaderNb σ), r.buf.length = size →
      r.trp.state = 0 → ∃ log t, mqttPacketReadnbs getfn caller 0 count r = .ok log t ∧
        t.buf.length = size) ∧
    (∀ (ω τ H : Type) (p : Platform ω τ H) (timers : ℕ → τ) (between : Interlude ω τ H)
      (s : Client ω τ H), s.client.readbuf.length = size →
      ∃ log t, readPackets p timers between 0 count s = .ok log t ∧
        t.client.readbuf.length = size) := by
  refine ⟨fun σ getfn r h => ?_, fun σ getfn caller r h hstate => ?_,
    fun ω τ H p timers between s h => ?_⟩
  · exact wp_total (mqttPacketReads_inBounds getfn hfive count h)
  · obtain ⟨log, t, hrun, ht⟩ :=
      wp_total (mqttPacketReadnbs_saved getfn hfive caller count 0 (Saved.of_start h hstate))
    exact ⟨log, t, hrun, ht.length_buf⟩
  · exact wp_total (readPackets_inBounds p timers between hfive count 0 h)

/-- A transport that delivers two bytes of `255` at most and then an error. -/
theorem mqttPacketReads_inBounds_five :
    ∃ log t, mqttPacketReads (fun count left => if h : 2 ≤ count then
        (.arrived (List.replicate 2 255) h, left) else (.arrived (List.replicate count 255)
          (by simp), left)) 3 (⟨List.replicate 5 0, ()⟩ : Reader Unit) = .ok log t ∧
      t.buf.length = 5 :=
  (readers_inBounds 5 3 (by decide)).1 Unit _ _ rfl

end MqttEmbedded.ClientC
