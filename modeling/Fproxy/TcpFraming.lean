import Fproxy.Library.Framing
import Fproxy.Protocol

/-!
# TCP framing between the client and the server

Over TCP a packet travels as `[2-byte length (big-endian)][packet]`.  `sendTcpFrame` is the
client's writer, `handleTcpConn` the read loop of the server over a stream that arrives in
chunks.

* `handleTcpConn_eq` — the loop hands on what the framing library parses, whatever the
  chunks.
* `tcp_framing_lossless` — the round trip over whole streams.
-/

namespace Fproxy.TcpFraming

open Fproxy.BigEndian Fproxy.Framing Fproxy.Protocol

/-- `MAX_TCP_FRAME_SIZE`. -/
def maxTcpFrameSize : ℕ := 65535

/-- `(data.len() as u16).to_be_bytes()`: the length is truncated to 16 bits. -/
def lengthPrefix (data : List UInt8) : List UInt8 := toBytes 2 (UInt16.ofNat data.length).toNat

/-- The frame written for a packet. -/
def tcpFrame (data : List UInt8) : List UInt8 := lengthPrefix data ++ data

/-- The errors of `send_tcp_frame` that do not come from the socket. -/
inductive SendError where
  | frameTooLarge
  deriving DecidableEq, Repr

/-- `send_tcp_frame`: the bytes handed to `write_all`. -/
def sendTcpFrame (data : List UInt8) : Except SendError (List UInt8) :=
  if maxTcpFrameSize < data.length then .error .frameTooLarge
  else .ok (tcpFrame data)

/-- `u16::from_be_bytes(len_buf) as usize`. -/
def readLength (lenBuf : List UInt8) : ℕ := (UInt16.ofNat (ofBytes lenBuf)).toNat

/-- Why the read loop of a connection ended. -/
inductive ConnExit where
  | eof
  | invalidLength (length : ℕ)
  | shortBody
  deriving DecidableEq, Repr

/-- The read loop of `handle_tcp_conn` on a connection whose bytes arrive in the chunks `cs` and
which then reaches its end: the packets handed to `handle_tcp_packet`, and why the loop ended. -/
def handleTcpConn (cs : List (List UInt8)) : List (List UInt8) × ConnExit :=
  match _h₁ : readExact 2 cs with
  | none => ([], .eof)
  | some (lenBuf, cs₁) =>
      let length := readLength lenBuf
      if length = 0 ∨ maxTcpFrameSize < length then ([], .invalidLength length)
      else
        match _h₂ : readExact length cs₁ with
        | none => ([], .shortBody)
        | some (data, cs₂) => (data :: (handleTcpConn cs₂).1, (handleTcpConn cs₂).2)
termination_by cs.flatten.length
decreasing_by
  all_goals
    obtain ⟨hlen, hflat⟩ := readExact_eq_some _h₁
    obtain ⟨_, hflat'⟩ := readExact_eq_some _h₂
    rw [hflat, hflat', List.length_append, List.length_append, hlen]
    omega

/-- The frame format the loop expects: a zero length ends the stream. -/
def tcpFormat : Format UInt8 where
  headerSize := 2
  bodyLength lenBuf :=
    if readLength lenBuf = 0 ∨ maxTcpFrameSize < readLength lenBuf then none
    else some (readLength lenBuf)
  headerSize_pos := by decide

/-- What ends the loop in front of a rest that begins with no complete frame. -/
def exitAt (rest : List UInt8) : ConnExit :=
  if rest.length < 2 then .eof
  else match tcpFormat.bodyLength (rest.take 2) with
    | none => .invalidLength (readLength (rest.take 2))
    | some _ => .shortBody

/-! ### The read loop is the parser -/

/-- **The loop is the parser.**  It hands on the bodies of the complete frames the stream begins
with and ends at the first byte that begins none. -/
theorem handleTcpConn_eq (cs : List (List UInt8)) :
    handleTcpConn cs =
      ((parse tcpFormat cs.flatten).1, exitAt (parse tcpFormat cs.flatten).2) := by
  induction hn : cs.flatten.length using Nat.strong_induction_on generalizing cs with
  | _ n ih =>
    rw [handleTcpConn]
    split
    · next h₁ =>
        -- fewer than two bytes left
        have hshort : cs.flatten.length < 2 := readExact_eq_none.mp h₁
        rw [parse_of_none (next_of_short hshort), exitAt, if_pos hshort]
    · next lenBuf cs₁ h₁ =>
        obtain ⟨hlen, hflat⟩ := readExact_eq_some h₁
        have hlong : ¬ cs.flatten.length < 2 := by
          rw [hflat, List.length_append]
          omega
        have htake : cs.flatten.take 2 = lenBuf := by rw [hflat, List.take_left' hlen]
        by_cases hbad : readLength lenBuf = 0 ∨ maxTcpFrameSize < readLength lenBuf
        · have hb : tcpFormat.bodyLength lenBuf = none := if_pos hbad
          have hnext : next tcpFormat cs.flatten = none := by
            rw [hflat]
            exact next_of_bad_header hlen hb
          rw [parse_of_none hnext, exitAt, if_neg hlong, htake, hb]
          simp only [hbad, if_true]
        · have hb : tcpFormat.bodyLength lenBuf = some (readLength lenBuf) := if_neg hbad
          simp only [hbad, if_false]
          split
          · next h₂ =>
              have hnext : next tcpFormat cs.flatten = none := by
                rw [hflat]
                exact next_of_short_body hlen hb (readExact_eq_none.mp h₂)
              rw [parse_of_none hnext, exitAt, if_neg hlong, htake, hb]
          · next data cs₂ h₂ =>
              obtain ⟨hdata, hflat₂⟩ := readExact_eq_some h₂
              have hnext : next tcpFormat cs.flatten = some (data, cs₂.flatten) := by
                rw [hflat, hflat₂]
                exact next_append ⟨hlen, by rw [hb, hdata]⟩ _
              have hlt : cs₂.flatten.length < n := hn ▸ next_length_lt hnext
              rw [parse_of_some hnext, ih _ hlt cs₂ rfl]

/-- The chunks do not matter. -/
theorem handleTcpConn_congr {cs cs' : List (List UInt8)} (h : cs.flatten = cs'.flatten) :
    handleTcpConn cs = handleTcpConn cs' := by
  rw [handleTcpConn_eq, handleTcpConn_eq, h]

/-! ### What the writer puts on the stream -/

theorem readLength_lengthPrefix {data : List UInt8} (h : data.length ≤ maxTcpFrameSize) :
    readLength (lengthPrefix data) = data.length := by
  have hlt : data.length < UInt16.size := Nat.lt_succ_of_le h
  have hsmall : data.length % 256 ^ 2 = data.length := Nat.mod_eq_of_lt hlt
  rw [readLength, lengthPrefix, UInt16.toNat_ofNat_of_lt' hlt, ofBytes_toBytes, hsmall,
    UInt16.toNat_ofNat_of_lt' hlt]

/-- The prefix of a non-empty frame that fits 16 bits names its body. -/
theorem heads_lengthPrefix {data : List UInt8} (h : data.length ≤ maxTcpFrameSize)
    (hpos : data ≠ []) : tcpFormat.Heads (lengthPrefix data) data where
  size := toBytes_length _ _
  length := by
    have hne : ¬ (data.length = 0 ∨ maxTcpFrameSize < data.length) := by
      rw [List.length_eq_zero_iff]
      exact not_or.mpr ⟨hpos, Nat.not_lt.mpr h⟩
    show (if readLength (lengthPrefix data) = 0 ∨ maxTcpFrameSize < readLength (lengthPrefix data)
      then none else some (readLength (lengthPrefix data))) = _
    rw [readLength_lengthPrefix h, if_neg hne]

theorem sendTcpFrame_eq_ok {data frame : List UInt8} (h : sendTcpFrame data = .ok frame) :
    data.length ≤ maxTcpFrameSize ∧ frame = lengthPrefix data ++ data := by
  unfold sendTcpFrame at h
  split at h
  · exact absurd h (by simp)
  · next hle => exact ⟨Nat.not_lt.mp hle, (Except.ok.inj h).symm⟩

/-- Frames written one after the other form a framed stream. -/
theorem framed_of_sent {datas frames : List (List UInt8)} (hne : ∀ d ∈ datas, d ≠ [])
    (hsent : datas.map sendTcpFrame = frames.map .ok) :
    Framed tcpFormat datas frames.flatten := by
  induction datas generalizing frames with
  | nil =>
      have hnil : frames = [] := List.map_eq_nil_iff.mp hsent.symm
      rw [hnil]
      exact Framed.nil
  | cons d ds ih =>
      cases frames with
      | nil => exact absurd hsent (by simp)
      | cons f fs =>
          simp only [List.map_cons, List.cons.injEq] at hsent
          obtain ⟨hle, rfl⟩ := sendTcpFrame_eq_ok hsent.1
          have hd : d ≠ [] := hne d List.mem_cons_self
          have htail := ih (fun x hx => hne x (List.mem_cons_of_mem _ hx)) hsent.2
          rw [List.flatten_cons, List.append_assoc]
          exact Framed.cons (heads_lengthPrefix hle hd) htail

theorem encodeTcp_ne_nil (p : Packet) : encodeTcp p.1 p.2.1 p.2.2 ≠ [] := by
  intro h
  have hlen := encodePacket_length p.1 p.2.1 p.2.2
  rw [show encodePacket p.1 p.2.1 p.2.2 = [] from h, headerSize] at hlen
  simp only [List.length_nil] at hlen
  omega

/-- **TCP framing is lossless.**  Packets the client's writer accepts, written one after the
other, are handed to `decode_tcp` as written and decode to the triples, however the stream is
cut.  An arbitrary stream is cut at the unique longest prefix of complete frames of non-zero
length, and the loop ends there. -/
theorem tcp_framing_lossless :
    (∀ (triples : List Packet) (frames chunks : List (List UInt8)),
      triples.map (fun t => sendTcpFrame (encodeTcp t.1 t.2.1 t.2.2)) = frames.map .ok →
      chunks.flatten = frames.flatten →
      (handleTcpConn chunks).1 = triples.map (fun t => encodeTcp t.1 t.2.1 t.2.2) ∧
      (handleTcpConn chunks).1.map decodeTcp = triples.map .ok ∧
      (handleTcpConn chunks).2 = .eof) ∧
    (∀ chunks : List (List UInt8), ∃ p rest,
      MaximalFramed tcpFormat chunks.flatten (handleTcpConn chunks).1 p ∧
      (∀ bodies q, MaximalFramed tcpFormat chunks.flatten bodies q →
        bodies = (handleTcpConn chunks).1 ∧ q = p) ∧
      chunks.flatten = p ++ rest ∧ next tcpFormat rest = none ∧
      (handleTcpConn chunks).2 = exitAt rest) ∧
    (∀ chunks chunks' : List (List UInt8), chunks.flatten = chunks'.flatten →
      handleTcpConn chunks = handleTcpConn chunks') := by
  refine ⟨fun triples frames chunks hsent hflat => ?_, fun chunks => ?_,
    fun chunks chunks' h => handleTcpConn_congr h⟩
  · have hsent' : (triples.map fun t => encodeTcp t.1 t.2.1 t.2.2).map sendTcpFrame =
        frames.map .ok := by
      rw [List.map_map]
      exact hsent
    have hne : ∀ d ∈ triples.map (fun t => encodeTcp t.1 t.2.1 t.2.2), d ≠ [] := by
      intro d hd
      obtain ⟨t, _, rfl⟩ := List.mem_map.mp hd
      exact encodeTcp_ne_nil t
    have hparse := (framed_of_sent hne hsent').parse_append []
    have hnil : parse tcpFormat [] = ([], []) := parse_of_none rfl
    rw [List.append_nil, hnil, List.append_nil, ← hflat] at hparse
    rw [handleTcpConn_eq, hparse]
    refine ⟨rfl, ?_, rfl⟩
    rw [List.map_map]
    exact List.map_congr_left fun t _ => decodePacket_encodePacket t.1 t.2.1 t.2.2
  · rw [handleTcpConn_eq]
    obtain ⟨p, hmax, hs, hstop⟩ := maximalFramed_parse tcpFormat chunks.flatten
    exact ⟨p, _, hmax, fun bodies q hq => hq.unique hmax, hs, hstop, rfl⟩

/-- Two packets. -/
def twoPackets : List Packet := [(1, 0, [7]), (2, 5, [])]

/-- Their stream, which arrives cut inside both prefixes. -/
def cutInPrefixes : List (List UInt8) :=
  [[0], [13, 0, 0, 0, 0, 0, 0, 0, 1, 0, 0, 0, 0, 7, 0], [12, 0, 0, 0, 0, 0, 0, 0, 2, 0, 0, 0, 5]]

/-- The packets are found again. -/
theorem tcp_framing_lossless_two_packets :
    (handleTcpConn cutInPrefixes).1 = twoPackets.map (fun t => encodeTcp t.1 t.2.1 t.2.2) ∧
      (handleTcpConn cutInPrefixes).1.map decodeTcp = twoPackets.map .ok ∧
      (handleTcpConn cutInPrefixes).2 = .eof :=
  tcp_framing_lossless.1 twoPackets
    [tcpFrame (encodeTcp 1 0 [7]), tcpFrame (encodeTcp 2 5 [])] cutInPrefixes (by decide)
    (by decide)

end Fproxy.TcpFraming
