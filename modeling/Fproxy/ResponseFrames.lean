import Fproxy.GoFrameWriter
import Fproxy.Server.Provenance

/-!
# The frames in which the servers send responses

A response loop reads up to 65535 bytes from its target socket, puts the 12-byte header in front
and writes the packet to a TCP path behind a length truncated to 16 bits.  Unlike the client's
writer, neither server looks at the length.

* `Response` — a session id, a number and a payload that fitted the buffer.
* `prefixes_iff` — the prefixes are exact if and only if every packet fits 16 bits.
* `recovers_iff` — so the client's reader recovers the packets of a connection.
* `written_responses` — what a run of the server writes on a connection is a sequence of such
  frames.
-/

namespace Fproxy.ResponseFrames

open Fproxy.BigEndian Fproxy.Framing Fproxy.Protocol Fproxy.Runs Fproxy.TcpFraming

/-- The size of `buf` in `handle_target_response`. -/
def recvBufferSize : ℕ := 65535

/-- A response to be sent on a TCP path.  Its payload was read into `buf`. -/
structure Response where
  sessionId : UInt64
  seq : UInt32
  payload : List UInt8
  received : payload.length ≤ recvBufferSize

namespace Response

/-- The packet: `protocol::encode_tcp(session_id, seq, payload)`. -/
def packet (r : Response) : List UInt8 := encodeTcp r.sessionId r.seq r.payload

/-- The frame `send_response_to_all_paths` writes. -/
def frame (r : Response) : List UInt8 := tcpFrame r.packet

/-- The frame `handleTargetResponse` of the Go server writes. -/
def goFrame (r : Response) : List UInt8 :=
  GoFrameWriter.makeFrame (GoProtocol.encodeTCP r.sessionId r.seq r.payload)

/-- The packet with its header fits a 2-byte length. -/
def Fits (r : Response) : Prop := headerSize + r.payload.length ≤ maxTcpFrameSize

instance (r : Response) : Decidable r.Fits := by
  unfold Fits
  infer_instance

theorem packet_length (r : Response) : r.packet.length = headerSize + r.payload.length :=
  encodePacket_length _ _ _

theorem frame_eq (r : Response) : r.frame = lengthPrefix r.packet ++ r.packet := rfl

theorem goFrame_eq (r : Response) : r.goFrame = r.frame := by
  rw [goFrame, GoFrameWriter.makeFrame_eq, GoProtocol.encodeTCP_eq]
  rfl

/-- A packet that does not fit exceeds 65535 by at most the header. -/
theorem length_of_not_fits {r : Response} (h : ¬ r.Fits) :
    r.packet.length % 65536 < headerSize ∧ r.packet.length % 65536 < r.packet.length := by
  have hmax := r.received
  rw [packet_length]
  simp only [Fits, maxTcpFrameSize, headerSize, recvBufferSize] at *
  omega

end Response

/-- `handle_tcp_server_response` of the client up to `process_tcp_response`: the read loop is the
server's. -/
def handleTcpServerResponse (cs : List (List UInt8)) : List (List UInt8) × ConnExit :=
  handleTcpConn cs

/-- The frame begins with two bytes that name the number of packet bytes that follow. -/
def ExactPrefix (frame packet : List UInt8) : Prop :=
  ∃ lenBuf, frame = lenBuf ++ packet ∧ lenBuf.length = 2 ∧ ofBytes lenBuf = packet.length

/-- The frames written for a sequence of responses on a connection are well formed, and from them,
however the stream is cut, the client's reader recovers exactly the packets. -/
structure WellFramed (frameOf : Response → List UInt8) (rs : List Response) : Prop where
  prefixes : ∀ r ∈ rs, ExactPrefix (frameOf r) r.packet
  recovers : ∀ chunks : List (List UInt8), chunks.flatten = (rs.map frameOf).flatten →
    (handleTcpServerResponse chunks).1 = rs.map Response.packet

/-! ### The prefix -/

theorem ofBytes_lengthPrefix (data : List UInt8) :
    ofBytes (lengthPrefix data) = data.length % 65536 := by
  have hlt : (UInt16.ofNat data.length).toNat < 65536 := UInt16.toNat_lt _
  rw [lengthPrefix, ofBytes_toBytes, UInt16.toNat_ofNat']
  omega

theorem readLength_eq (data : List UInt8) :
    readLength (lengthPrefix data) = data.length % 65536 := by
  rw [readLength, ofBytes_lengthPrefix, UInt16.toNat_ofNat']
  omega

/-- **The prefix is exact if and only if the packet fits.** -/
theorem exactPrefix_iff (r : Response) : ExactPrefix r.frame r.packet ↔ r.Fits := by
  have hprefix : (lengthPrefix r.packet).length = 2 := toBytes_length _ _
  constructor
  · rintro ⟨lenBuf, hframe, h2, hlen⟩
    have hsame : lenBuf = lengthPrefix r.packet :=
      (List.append_inj hframe (Eq.trans hprefix h2.symm)).1.symm
    rw [hsame, ofBytes_lengthPrefix] at hlen
    by_contra hfits
    have hlong := (Response.length_of_not_fits hfits).2
    omega
  · intro hfits
    refine ⟨lengthPrefix r.packet, rfl, hprefix, ?_⟩
    have hle : r.packet.length ≤ 65535 := by
      rw [Response.packet_length]
      exact hfits
    rw [ofBytes_lengthPrefix]
    omega

theorem prefixes_iff (rs : List Response) :
    (∀ r ∈ rs, ExactPrefix r.frame r.packet) ↔ ∀ r ∈ rs, r.Fits :=
  forall₂_congr fun r _ => exactPrefix_iff r

/-! ### The stream -/

theorem packet_ne_nil (r : Response) : r.packet ≠ [] :=
  encodeTcp_ne_nil (r.sessionId, r.seq, r.payload)

/-- What the reader finds behind the prefix of a packet that does not fit is not the packet. -/
theorem parse_of_not_fits {r : Response} (h : ¬ r.Fits) (s : List UInt8) :
    ∀ packet ∈ (parse tcpFormat (r.frame ++ s)).1.head?, packet.length < headerSize := by
  obtain ⟨hshort, hlt⟩ := Response.length_of_not_fits h
  have hsize : (lengthPrefix r.packet).length = tcpFormat.headerSize := toBytes_length _ _
  rw [Response.frame_eq, List.append_assoc]
  by_cases hzero : r.packet.length % 65536 = 0
  · have hbad : tcpFormat.bodyLength (lengthPrefix r.packet) = none :=
      if_pos (Or.inl ((readLength_eq r.packet).trans hzero))
    rw [parse_of_none (next_of_bad_header hsize hbad)]
    exact fun _ hp => absurd hp (by simp)
  · -- the prefix names a few bytes of the header
    have htake : (r.packet.take (r.packet.length % 65536)).length = r.packet.length % 65536 :=
      List.length_take_of_le (by omega)
    have hheads : tcpFormat.Heads (lengthPrefix r.packet)
        (r.packet.take (r.packet.length % 65536)) := by
      refine ⟨hsize, ?_⟩
      rw [htake, ← readLength_eq]
      refine if_neg ?_
      rw [readLength_eq, maxTcpFrameSize]
      omega
    have hsplit : r.packet ++ s = r.packet.take (r.packet.length % 65536) ++
        (r.packet.drop (r.packet.length % 65536) ++ s) := by
      rw [← List.append_assoc, List.take_append_drop]
    rw [hsplit, parse_of_some (next_append hheads _)]
    intro packet hp
    rw [← Option.some.inj hp, htake]
    exact hshort

/-- **Recovery.**  The reader's parse of the frames is the list of packets if and only if every
packet fits: the first one that does not is never recovered. -/
theorem parse_frames_iff (rs : List Response) :
    (parse tcpFormat (rs.map Response.frame).flatten).1 = rs.map Response.packet ↔
      ∀ r ∈ rs, r.Fits := by
  induction rs with
  | nil =>
      have hnil : parse tcpFormat ([] : List UInt8) = ([], []) := parse_of_none rfl
      refine iff_of_true ?_ fun _ hr => absurd hr List.not_mem_nil
      rw [List.map_nil, List.flatten_nil, hnil]
      rfl
  | cons r rs ih =>
      rw [List.map_cons, List.flatten_cons, List.map_cons, List.forall_mem_cons]
      by_cases hfits : r.Fits
      · have hle : r.packet.length ≤ maxTcpFrameSize := by
          rw [Response.packet_length]
          exact hfits
        rw [Response.frame_eq, List.append_assoc,
          parse_of_some (next_append (heads_lengthPrefix hle (packet_ne_nil r)) _)]
        simp only [List.cons.injEq, true_and, ih, hfits]
      · refine iff_of_false (fun hparse => ?_) fun h => hfits h.1
        have hhead := parse_of_not_fits hfits (rs.map Response.frame).flatten r.packet
          (by rw [hparse]; rfl)
        rw [Response.packet_length] at hhead
        omega

theorem recovers_iff (rs : List Response) :
    (∀ chunks : List (List UInt8), chunks.flatten = (rs.map Response.frame).flatten →
      (handleTcpServerResponse chunks).1 = rs.map Response.packet) ↔ ∀ r ∈ rs, r.Fits := by
  rw [← parse_frames_iff]
  constructor
  · intro h
    have hwhole := h [(rs.map Response.frame).flatten] List.flatten_singleton
    rwa [handleTcpServerResponse, handleTcpConn_eq, List.flatten_singleton] at hwhole
  · intro h chunks hflat
    rw [handleTcpServerResponse, handleTcpConn_eq, hflat]
    exact h

/-- **When response frames are well formed.**  For every sequence of responses on a connection,
in the Rust server and in the Go server: every frame has the exact length as its prefix and the
client's reader recovers exactly the packets, if and only if no payload is longer than 65523
bytes. -/
theorem well_framed_iff (frameOf : Response → List UInt8) (rs : List Response)
    (hserver : frameOf = Response.frame ∨ frameOf = Response.goFrame) :
    WellFramed frameOf rs ↔ ∀ r ∈ rs, r.payload.length ≤ 65523 := by
  have hrust : frameOf = Response.frame :=
    hserver.elim id fun h => h.trans (funext Response.goFrame_eq)
  have hfits : (∀ r ∈ rs, r.Fits) ↔ ∀ r ∈ rs, r.payload.length ≤ 65523 := by
    refine forall₂_congr fun r _ => ?_
    simp only [Response.Fits, headerSize, maxTcpFrameSize]
    omega
  rw [hrust, ← hfits]
  constructor
  · exact fun h => (prefixes_iff rs).mp h.prefixes
  · exact fun h => ⟨(prefixes_iff rs).mpr h, (recovers_iff rs).mpr h⟩

/-- A datagram of 65524 bytes.  IPv6 carries payloads of up to 65527 bytes, to the target socket of
the Go server; that of the Rust server is an IPv4 socket, which receives at most 65507. -/
def longResponse : Response where
  sessionId := 1
  seq := 0
  payload := List.replicate 65524 0
  received := by
    rw [List.length_replicate]
    decide

/-- **A response of the Go server that ends the connection.**  Its packet has 65536 bytes, the
prefix says zero, and the reader stops in front of it.  The code of the Rust server would write the
same. -/
theorem long_response_not_framed :
    longResponse.goFrame = [0, 0] ++ longResponse.packet ∧
      ¬ WellFramed Response.goFrame [longResponse] ∧
      ¬ WellFramed Response.frame [longResponse] := by
  have hpayload : longResponse.payload = List.replicate 65524 0 := rfl
  have hlen : longResponse.packet.length = 65536 := by
    rw [Response.packet_length, hpayload, List.length_replicate, headerSize]
  have hzero : toBytes 2 (UInt16.ofNat 65536).toNat = [0, 0] := by decide
  have hnot : ¬ WellFramed Response.frame [longResponse] := by
    intro h
    have hfits := (exactPrefix_iff longResponse).mp (h.prefixes _ List.mem_cons_self)
    rw [Response.Fits, ← Response.packet_length, hlen] at hfits
    exact absurd hfits (by decide)
  refine ⟨?_, ?_, hnot⟩
  · rw [Response.goFrame_eq, Response.frame_eq, lengthPrefix, hlen, hzero]
  · rwa [show Response.goFrame = Response.frame from funext Response.goFrame_eq]

theorem well_framed_two_responses :
    WellFramed Response.goFrame [⟨1, 0, [7], by decide⟩, ⟨1, 1, [], by decide⟩] :=
  (well_framed_iff _ _ (Or.inr rfl)).mpr (by decide)

/-! ### What a run of the server writes -/

/-- The frames written to a connection, in order. -/
def written (w : ConnId) (tr : List Server.Obs) : List (List UInt8) :=
  tr.filterMap fun
    | .sentTcp w' frame => if w' = w then some frame else none
    | _ => none

theorem mem_written {w : ConnId} {tr : List Server.Obs} {frame : List UInt8} :
    frame ∈ written w tr ↔ .sentTcp w frame ∈ tr := by
  rw [written, List.mem_filterMap]
  constructor
  · rintro ⟨x, hx, he⟩
    cases x with
    | sentTcp w' frame' =>
        simp only [ite_eq_iff, Option.some.injEq, reduceCtorEq, and_false, or_false] at he
        obtain ⟨rfl, rfl⟩ := he
        exact hx
    | _ => exact absurd he (by simp)
  · exact fun h => ⟨_, h, if_pos rfl⟩

/-- The run lemma: every response sent was read from a target. -/
theorem responses_exec {cfg : Server.ServerConfig} {es : List Server.Event} {s : Server.State}
    {tr : List Server.Obs} (h : (Server.machine cfg).exec es = some (s, tr)) :
    Server.Responses (fun _ _ => True) s tr := by
  refine (Server.machine cfg).invariant (I := Server.Responses fun _ _ => True) ?_
    (fun _ _ _ _ _ hi hs => hi.act (fun _ _ _ _ => trivial) (Server.act_of_machine hs)) h
  refine ⟨fun o hne => absurd rfl hne, fun o payload hp => ?_, fun _ _ _ _ => trivial,
    fun _ _ _ hm => absurd hm List.not_mem_nil, fun _ _ hm => absurd hm List.not_mem_nil⟩
  exact absurd hp (by simp [Server.machine, Server.new, Server.ReceiverPc.payload])

/-- **A connection carries the frames of responses.**  In every run of the server in which no
target sends more than the buffer takes, what is written on a connection is the frames of a
sequence of responses read from the targets of their sessions. -/
theorem written_responses {cfg : Server.ServerConfig} {es : List Server.Event} {s : Server.State}
    {tr : List Server.Obs} (hrun : (Server.machine cfg).exec es = some (s, tr))
    (hbuf : ∀ o sid payload, .targetRead o sid payload ∈ tr → payload.length ≤ recvBufferSize)
    (w : ConnId) :
    ∃ rs : List Response, written w tr = rs.map Response.frame ∧
      ∀ r ∈ rs, Server.ReadFor tr r.sessionId r.payload := by
  have hframe : ∀ frame ∈ written w tr, ∃ r : Response, r.frame = frame ∧
      Server.ReadFor tr r.sessionId r.payload := by
    intro frame hm
    obtain ⟨sid, seq, payload, rfl, hread, -⟩ :=
      (responses_exec hrun).sentTcp w frame (mem_written.mp hm)
    obtain ⟨o, ho⟩ := hread
    exact ⟨⟨sid, seq, payload, hbuf o sid payload ho⟩, rfl, o, ho⟩
  generalize written w tr = frames at hframe
  induction frames with
  | nil => exact ⟨[], rfl, fun _ hr => absurd hr List.not_mem_nil⟩
  | cons frame frames ih =>
      obtain ⟨r, hr, hread⟩ := hframe frame List.mem_cons_self
      obtain ⟨rs, hrs, hreads⟩ := ih fun f hf => hframe f (List.mem_cons_of_mem _ hf)
      refine ⟨r :: rs, by rw [List.map_cons, hr, hrs], fun r' hr' => ?_⟩
      rcases List.mem_cons.mp hr' with rfl | hr'
      · exact hread
      · exact hreads r' hr'

end Fproxy.ResponseFrames
