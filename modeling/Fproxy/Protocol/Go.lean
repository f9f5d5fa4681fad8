import Fproxy.Library.Buffer
import Fproxy.Protocol

/-!
# The Go packet codec

`packet.go` writes a packet into a zeroed buffer of its final size and reads it back with the
shifts of `encoding/binary`.  UDP and TCP have a function each.

* `encodeUDP_eq`, `encodeTCP_eq` — the bytes are those of `encodePacket`.
* `decodeUDP_eq`, `decodeTCP_eq` — the decoders are `decodePacket`.
* `codec_bijection` — the format is a bijection that both implementations share.
-/

namespace Fproxy.GoProtocol

open Fproxy.BigEndian Fproxy.Buffer Fproxy.Protocol

/-! ### `encoding/binary` -/

/-- `binary.BigEndian.PutUint64`: the bytes it stores. -/
def putUint64 (v : UInt64) : List UInt8 :=
  [(v >>> 56).toUInt8, (v >>> 48).toUInt8, (v >>> 40).toUInt8, (v >>> 32).toUInt8,
    (v >>> 24).toUInt8, (v >>> 16).toUInt8, (v >>> 8).toUInt8, v.toUInt8]

/-- `binary.BigEndian.PutUint32`: the bytes it stores. -/
def putUint32 (v : UInt32) : List UInt8 :=
  [(v >>> 24).toUInt8, (v >>> 16).toUInt8, (v >>> 8).toUInt8, v.toUInt8]

/-- `binary.BigEndian.PutUint16`: the bytes it stores. -/
def putUint16 (v : UInt16) : List UInt8 := [(v >>> 8).toUInt8, v.toUInt8]

/-- `binary.BigEndian.Uint64` of the first eight bytes; it is not called on fewer. -/
def uint64 : List UInt8 → UInt64
  | b0 :: b1 :: b2 :: b3 :: b4 :: b5 :: b6 :: b7 :: _ =>
      b7.toUInt64 ||| b6.toUInt64 <<< 8 ||| b5.toUInt64 <<< 16 ||| b4.toUInt64 <<< 24 |||
        b3.toUInt64 <<< 32 ||| b2.toUInt64 <<< 40 ||| b1.toUInt64 <<< 48 ||| b0.toUInt64 <<< 56
  | _ => 0

/-- `binary.BigEndian.Uint32` of the first four bytes; it is not called on fewer. -/
def uint32 : List UInt8 → UInt32
  | b0 :: b1 :: b2 :: b3 :: _ =>
      b3.toUInt32 ||| b2.toUInt32 <<< 8 ||| b1.toUInt32 <<< 16 ||| b0.toUInt32 <<< 24
  | _ => 0

/-! ### `packet.go` -/

/-- `EncodeTCP`. -/
def encodeTCP (sessionID : UInt64) (seq : UInt32) (payload : List UInt8) : List UInt8 :=
  let packet := List.replicate (headerSize + payload.length) (0 : UInt8)
  let packet := write packet 0 (putUint64 sessionID)
  let packet := write packet 8 (putUint32 seq)
  write packet headerSize payload

/-- `DecodeTCP`. -/
def decodeTCP (packet : List UInt8) : Except ProtocolError Packet :=
  if packet.length < headerSize then .error .packetTooShort
  else
    let sessionID := uint64 (packet.take 8)
    let seq := uint32 ((packet.drop 8).take 4)
    .ok (sessionID, seq, packet.drop headerSize)

/-- `EncodeUDP`, the same text again. -/
def encodeUDP (sessionID : UInt64) (seq : UInt32) (payload : List UInt8) : List UInt8 :=
  encodeTCP sessionID seq payload

/-- `DecodeUDP`, the same text again. -/
def decodeUDP (packet : List UInt8) : Except ProtocolError Packet := decodeTCP packet

/-! ### Shifts and big-endian bytes -/

theorem putUint64_eq (v : UInt64) : putUint64 v = toBytes 8 v.toNat := by
  simp only [putUint64, toBytes, List.cons.injEq, ← UInt8.toNat_inj, UInt64.toNat_toUInt8,
    UInt64.toNat_shiftRight, UInt8.toNat_ofNat', Nat.shiftRight_eq_div_pow, and_true]
  exact ⟨rfl, rfl, rfl, rfl, rfl, rfl, rfl, by simp⟩

theorem putUint32_eq (v : UInt32) : putUint32 v = toBytes 4 v.toNat := by
  simp only [putUint32, toBytes, List.cons.injEq, ← UInt8.toNat_inj, UInt32.toNat_toUInt8,
    UInt32.toNat_shiftRight, UInt8.toNat_ofNat', Nat.shiftRight_eq_div_pow, and_true]
  exact ⟨rfl, rfl, rfl, by simp⟩

theorem putUint16_eq (v : UInt16) : putUint16 v = toBytes 2 v.toNat := by
  simp only [putUint16, toBytes, List.cons.injEq, ← UInt8.toNat_inj, UInt16.toNat_toUInt8,
    UInt16.toNat_shiftRight, UInt8.toNat_ofNat', Nat.shiftRight_eq_div_pow, and_true]
  exact ⟨rfl, by simp⟩

/-- A byte moved up inside a word of `w` bits loses no bit. -/
theorem byte_shiftLeft_lt (b : UInt8) {k w : ℕ} (hk : 8 + k ≤ w) : b.toNat <<< k < 2 ^ w := by
  have hb : b.toNat < 2 ^ 8 := b.toNat_lt
  rw [Nat.shiftLeft_eq]
  calc b.toNat * 2 ^ k < 2 ^ 8 * 2 ^ k := Nat.mul_lt_mul_of_pos_right hb (Nat.pow_pos (by decide))
    _ = 2 ^ (8 + k) := (Nat.pow_add _ _ _).symm
    _ ≤ 2 ^ w := Nat.pow_le_pow_right (by decide) hk

theorem toUInt64_shiftLeft (b : UInt8) (k : UInt64) (hk : k.toNat ≤ 56) :
    (b.toUInt64 <<< k).toNat = b.toNat <<< k.toNat := by
  have hlt : b.toNat <<< k.toNat < 2 ^ 64 := byte_shiftLeft_lt b (by omega)
  rw [UInt64.toNat_shiftLeft, UInt8.toNat_toUInt64, Nat.mod_eq_of_lt (show k.toNat < 64 by omega),
    Nat.mod_eq_of_lt hlt]

theorem toUInt32_shiftLeft (b : UInt8) (k : UInt32) (hk : k.toNat ≤ 24) :
    (b.toUInt32 <<< k).toNat = b.toNat <<< k.toNat := by
  have hlt : b.toNat <<< k.toNat < 2 ^ 32 := byte_shiftLeft_lt b (by omega)
  rw [UInt32.toNat_shiftLeft, UInt8.toNat_toUInt32, Nat.mod_eq_of_lt (show k.toNat < 32 by omega),
    Nat.mod_eq_of_lt hlt]

/-- The order of eight summands does not matter. -/
theorem or_reverse (a b c d e f g h : ℕ) :
    a ||| b ||| c ||| d ||| e ||| f ||| g ||| h =
      h ||| (g ||| (f ||| (e ||| (d ||| (c ||| (b ||| a)))))) := by
  rw [Nat.or_comm _ h, Nat.or_comm _ g, Nat.or_comm _ f, Nat.or_comm _ e, Nat.or_comm _ d,
    Nat.or_comm _ c, Nat.or_comm a b]

/-- The or of the shifted bytes is their big-endian value. -/
theorem uint64_eq {bs : List UInt8} (h : bs.length = 8) :
    uint64 bs = UInt64.ofNat (ofBytes bs) := by
  have hlt := ofBytes_lt bs
  rw [h] at hlt
  apply UInt64.toNat_inj.mp
  rw [UInt64.toNat_ofNat_of_lt' hlt]
  match bs, h with
  | [b0, b1, b2, b3, b4, b5, b6, b7], _ =>
      rw [uint64]
      simp only [UInt64.toNat_or]
      rw [toUInt64_shiftLeft b6 8 (by decide), toUInt64_shiftLeft b5 16 (by decide),
        toUInt64_shiftLeft b4 24 (by decide), toUInt64_shiftLeft b3 32 (by decide),
        toUInt64_shiftLeft b2 40 (by decide), toUInt64_shiftLeft b1 48 (by decide),
        toUInt64_shiftLeft b0 56 (by decide)]
      rw [ofBytes_cons_or, ofBytes_cons_or, ofBytes_cons_or, ofBytes_cons_or, ofBytes_cons_or,
        ofBytes_cons_or, ofBytes_cons_or, ofBytes_cons_or]
      show _ = b0.toNat <<< 56 ||| (b1.toNat <<< 48 ||| (b2.toNat <<< 40 ||| (b3.toNat <<< 32 |||
        (b4.toNat <<< 24 ||| (b5.toNat <<< 16 ||| (b6.toNat <<< 8 ||| (b7.toNat ||| 0)))))))
      rw [Nat.or_zero]
      exact or_reverse _ _ _ _ _ _ _ _

theorem uint32_eq {bs : List UInt8} (h : bs.length = 4) :
    uint32 bs = UInt32.ofNat (ofBytes bs) := by
  have hlt := ofBytes_lt bs
  rw [h] at hlt
  apply UInt32.toNat_inj.mp
  rw [UInt32.toNat_ofNat_of_lt' hlt]
  match bs, h with
  | [b0, b1, b2, b3], _ =>
      rw [uint32]
      simp only [UInt32.toNat_or]
      rw [toUInt32_shiftLeft b2 8 (by decide), toUInt32_shiftLeft b1 16 (by decide),
        toUInt32_shiftLeft b0 24 (by decide), ofBytes_cons_or, ofBytes_cons_or, ofBytes_cons_or,
        ofBytes_cons_or]
      show _ = b0.toNat <<< 24 ||| (b1.toNat <<< 16 ||| (b2.toNat <<< 8 ||| (b3.toNat ||| 0)))
      rw [Nat.or_zero, Nat.or_comm _ (b0.toNat <<< _), Nat.or_comm _ (b1.toNat <<< _),
        Nat.or_comm _ (b2.toNat <<< _)]
      rfl

/-! ### The two implementations -/

/-- **The encoders write the same bytes.** -/
theorem encodeTCP_eq (sessionID : UInt64) (seq : UInt32) (payload : List UInt8) :
    encodeTCP sessionID seq payload = encodePacket sessionID seq payload := by
  have h8 : (putUint64 sessionID).length = 8 := rfl
  have h4 : (putUint32 seq).length = 4 := rfl
  have h12 : (putUint64 sessionID ++ putUint32 seq).length = headerSize := rfl
  have hsize : headerSize + payload.length =
      (putUint64 sessionID).length + ((putUint32 seq).length + payload.length) := by
    rw [h8, h4, ← Nat.add_assoc]
    rfl
  have hfirst := @write_fill _ [] (putUint64 sessionID) 0
    ((putUint32 seq).length + payload.length) 0 rfl
  rw [List.nil_append, List.nil_append] at hfirst
  rw [encodeTCP, hsize, hfirst, write_fill h8, write_fill_all h12 rfl, putUint64_eq, putUint32_eq,
    encodePacket, List.append_assoc]

theorem encodeUDP_eq (sessionID : UInt64) (seq : UInt32) (payload : List UInt8) :
    encodeUDP sessionID seq payload = encodePacket sessionID seq payload :=
  encodeTCP_eq sessionID seq payload

/-- **The decoders are one function.** -/
theorem decodeTCP_eq (packet : List UInt8) : decodeTCP packet = decodePacket packet := by
  unfold decodeTCP decodePacket
  split
  · rfl
  · next hlen =>
      have hlen : 12 ≤ packet.length := Nat.not_lt.mp hlen
      have h8 : (packet.take 8).length = 8 := List.length_take_of_le (by omega)
      have h4 : ((packet.drop 8).take 4).length = 4 :=
        List.length_take_of_le (by rw [List.length_drop]; omega)
      rw [uint64_eq h8, uint32_eq h4]

theorem decodeUDP_eq (packet : List UInt8) : decodeUDP packet = decodePacket packet :=
  decodeTCP_eq packet

/-- **The packet codec is a bijection shared by both implementations.**  The four encoders write
the same bytes and each of the four decoders gives the triple back.  A decoder fails exactly on
fewer than 12 bytes; from anything else every encoder writes the same byte string again. -/
theorem codec_bijection :
    (∀ (sessionId : UInt64) (seq : UInt32) (payload : List UInt8),
      encodeUDP sessionId seq payload = encodePacket sessionId seq payload ∧
      encodeTCP sessionId seq payload = encodePacket sessionId seq payload ∧
      decodePacket (encodePacket sessionId seq payload) = .ok (sessionId, seq, payload) ∧
      decodeUDP (encodePacket sessionId seq payload) = .ok (sessionId, seq, payload) ∧
      decodeTCP (encodePacket sessionId seq payload) = .ok (sessionId, seq, payload)) ∧
    (∀ packet : List UInt8, ∀ decode ∈ [decodePacket, decodeUDP, decodeTCP],
      (decode packet = .error .packetTooShort ↔ packet.length < 12) ∧
      (12 ≤ packet.length → ∃ sessionId seq payload,
        decode packet = .ok (sessionId, seq, payload) ∧
        encodePacket sessionId seq payload = packet ∧
        encodeUDP sessionId seq payload = packet ∧ encodeTCP sessionId seq payload = packet)) := by
  have hdecodeUDP : decodeUDP = decodePacket := funext decodeUDP_eq
  have hdecodeTCP : decodeTCP = decodePacket := funext decodeTCP_eq
  refine ⟨fun sessionId seq payload => ?_, fun packet decode hdecode => ?_⟩
  · have hround := decodePacket_encodePacket sessionId seq payload
    rw [hdecodeUDP, hdecodeTCP]
    exact ⟨encodeUDP_eq _ _ _, encodeTCP_eq _ _ _, hround, hround, hround⟩
  · have hd : decode = decodePacket := by
      rw [hdecodeUDP, hdecodeTCP] at hdecode
      simpa using hdecode
    subst hd
    refine ⟨decodePacket_eq_error, fun hlen => ?_⟩
    cases hp : decodePacket packet with
    | error e => exact absurd (decodePacket_eq_error.mp hp) (Nat.not_lt.mpr hlen)
    | ok triple =>
        obtain ⟨sessionId, seq, payload⟩ := triple
        have hback := encodePacket_decodePacket hp
        refine ⟨sessionId, seq, payload, rfl, hback, ?_, ?_⟩
        · rw [encodeUDP_eq, hback]
        · rw [encodeTCP_eq, hback]

end Fproxy.GoProtocol
