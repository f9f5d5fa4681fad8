import Fproxy.Library.BigEndian

/-!
# Packet encoding and decoding

`protocol.rs`: UDP and TCP transport share the packet format
`[8-byte session_id (big-endian)][4-byte seq (big-endian)][payload]`.

* `decodePacket_encodePacket` — decoding an encoded triple returns the triple.
* `encodePacket_decodePacket` — re-encoding a decoded packet returns the packet.
-/

namespace Fproxy.Protocol

open Fproxy.BigEndian

/-- `HEADER_SIZE`: session_id (8) + seq (4). -/
def headerSize : ℕ := 12

/-- `ProtocolError`. -/
inductive ProtocolError where
  | packetTooShort
  deriving DecidableEq, Repr

/-- A decoded packet: session id, sequence number, payload. -/
abbrev Packet := UInt64 × UInt32 × List UInt8

/-- `encode_packet`. -/
def encodePacket (sessionId : UInt64) (seq : UInt32) (payload : List UInt8) : List UInt8 :=
  toBytes 8 sessionId.toNat ++ (toBytes 4 seq.toNat ++ payload)

/-- `decode_packet`. -/
def decodePacket (packet : List UInt8) : Except ProtocolError Packet :=
  if packet.length < headerSize then .error .packetTooShort
  else
    let sessionId := UInt64.ofNat (ofBytes (packet.take 8))
    let seq := UInt32.ofNat (ofBytes ((packet.drop 8).take 4))
    .ok (sessionId, seq, packet.drop headerSize)

/-- `encode_udp`. -/
def encodeUdp := encodePacket

/-- `decode_udp`. -/
def decodeUdp := decodePacket

/-- `encode_tcp`.  The 2-byte length prefix is added by the sender. -/
def encodeTcp := encodePacket

/-- `decode_tcp`. -/
def decodeTcp := decodePacket

@[simp] theorem encodePacket_length (sessionId : UInt64) (seq : UInt32) (payload : List UInt8) :
    (encodePacket sessionId seq payload).length = headerSize + payload.length := by
  simp only [encodePacket, List.length_append, toBytes_length, headerSize]
  omega

/-- **Decoding inverts encoding.** -/
theorem decodePacket_encodePacket (sessionId : UInt64) (seq : UInt32) (payload : List UInt8) :
    decodePacket (encodePacket sessionId seq payload) = .ok (sessionId, seq, payload) := by
  have hlen : ¬ (encodePacket sessionId seq payload).length < headerSize := by
    rw [encodePacket_length]
    omega
  have hsid : ofBytes ((encodePacket sessionId seq payload).take 8) = sessionId.toNat := by
    rw [encodePacket, List.take_left' (toBytes_length 8 _), ofBytes_toBytes]
    exact Nat.mod_eq_of_lt sessionId.toNat_lt
  have hrest : (encodePacket sessionId seq payload).drop 8 = toBytes 4 seq.toNat ++ payload := by
    rw [encodePacket, List.drop_left' (toBytes_length 8 _)]
  have hseq : ofBytes (((encodePacket sessionId seq payload).drop 8).take 4) = seq.toNat := by
    rw [hrest, List.take_left' (toBytes_length 4 _), ofBytes_toBytes]
    exact Nat.mod_eq_of_lt seq.toNat_lt
  have hpay : (encodePacket sessionId seq payload).drop headerSize = payload := by
    rw [show headerSize = 8 + 4 from rfl, ← List.drop_drop, hrest,
      List.drop_left' (toBytes_length 4 _)]
  rw [decodePacket, if_neg hlen]
  simp only [hsid, hseq, hpay, UInt64.ofNat_toNat, UInt32.ofNat_toNat]

/-- Decoding fails exactly on packets shorter than the header. -/
theorem decodePacket_eq_error {packet : List UInt8} {e : ProtocolError} :
    decodePacket packet = .error e ↔ packet.length < headerSize := by
  cases e
  unfold decodePacket
  split <;> simp_all

/-- **Encoding inverts decoding.** -/
theorem encodePacket_decodePacket {packet : List UInt8} {sessionId : UInt64} {seq : UInt32}
    {payload : List UInt8} (h : decodePacket packet = .ok (sessionId, seq, payload)) :
    encodePacket sessionId seq payload = packet := by
  unfold decodePacket at h
  split at h
  · exact absurd h (by simp)
  · next hlen =>
      have hlen : 12 ≤ packet.length := Nat.not_lt.mp hlen
      simp only [Except.ok.injEq, Prod.mk.injEq] at h
      obtain ⟨rfl, rfl, rfl⟩ := h
      have hsid : (UInt64.ofNat (ofBytes (packet.take 8))).toNat = ofBytes (packet.take 8) := by
        have hlt := ofBytes_lt (packet.take 8)
        rw [List.length_take_of_le (by omega)] at hlt
        exact UInt64.toNat_ofNat_of_lt' hlt
      have hseq : (UInt32.ofNat (ofBytes ((packet.drop 8).take 4))).toNat =
          ofBytes ((packet.drop 8).take 4) := by
        have hlt := ofBytes_lt ((packet.drop 8).take 4)
        rw [List.length_take_of_le (by rw [List.length_drop]; omega)] at hlt
        exact UInt32.toNat_ofNat_of_lt' hlt
      have h8 : (packet.take 8).length = 8 := List.length_take_of_le (by omega)
      have h4 : ((packet.drop 8).take 4).length = 4 :=
        List.length_take_of_le (by rw [List.length_drop]; omega)
      rw [encodePacket, hsid, hseq, toBytes_ofBytes_of_length h8, toBytes_ofBytes_of_length h4,
        show headerSize = 8 + 4 from rfl, ← List.drop_drop, List.take_append_drop,
        List.take_append_drop]

/-- Two triples with one encoding are equal. -/
theorem encodePacket_injective {a b : Packet}
    (h : encodePacket a.1 a.2.1 a.2.2 = encodePacket b.1 b.2.1 b.2.2) : a = b := by
  have ha := decodePacket_encodePacket a.1 a.2.1 a.2.2
  rw [h, decodePacket_encodePacket] at ha
  exact (Except.ok.inj ha).symm

end Fproxy.Protocol
