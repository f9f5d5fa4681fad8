import Fproxy.GoClient.Objects

/-!
# What leaves the Go client

A packet of the Go client carries the id of a session of the source whose datagram it carries, and
is the packet, and on a connection the frame, that the Rust client would send.

* `Sends` — the invariant; `sends_exec` — it holds after every run.
-/

namespace Fproxy.GoClient

open Fproxy.GoFrameWriter Fproxy.GoProtocol Fproxy.Protocol Fproxy.Runs Fproxy.TcpFraming
open Fproxy.Client (SessionObj Sending SendPc Obs PacketFor)

theorem udpPacket_eq (cl : Client) (o : SessionObj) (seq : UInt32) (payload : List UInt8) :
    cl.udpPacket o seq payload = encodePacket (cl.heap o).sessionId seq payload :=
  encodeUDP_eq _ _ _

/-- The bytes on a connection are the frame of the packet. -/
theorem tcpFrameFor_eq {cl : Client} {c : ConnId} {o : SessionObj} {seq : UInt32}
    {payload frame : List UInt8} (h : cl.tcpFrameFor c o seq payload = .ok frame) :
    frame = tcpFrame (encodePacket (cl.heap o).sessionId seq payload) := by
  simp only [Client.tcpFrameFor] at h
  split at h
  · exact absurd h (by simp)
  · split at h
    · exact absurd h (by simp)
    · rw [← Except.ok.inj h, makeFrame_eq, encodeTCP_eq]

/-- What the client has sent along every run. -/
structure Sends (s : State) (tr : List Obs) : Prop where
  payload : ∀ h, s.sending = some h → .received h.source h.payload ∈ tr
  sentUdp : ∀ i packet, .sentUdp i packet ∈ tr → ∃ source, PacketFor tr packet source
  sentTcp : ∀ c frame, .sentTcp c frame ∈ tr → ∃ source packet,
    frame = tcpFrame packet ∧ PacketFor tr packet source

namespace Sends

variable {s s' : State} {tr obs : List Obs}

/-- Frame rule: a datagram being sent is one that was being sent or has just been read. -/
theorem frame (hi : Sends s tr)
    (hsend : ∀ h, s'.sending = some h → .received h.source h.payload ∈ tr ++ obs)
    (hudp : ∀ i packet, .sentUdp i packet ∈ obs → ∃ source, PacketFor tr packet source)
    (htcp : ∀ c frame, .sentTcp c frame ∈ obs → ∃ source packet,
      frame = tcpFrame packet ∧ PacketFor tr packet source) : Sends s' (tr ++ obs) := by
  refine ⟨hsend, fun i packet hm => ?_, fun c frame hm => ?_⟩
  · obtain ⟨source, hp⟩ := (List.mem_append.mp hm).elim (hi.sentUdp i packet) (hudp i packet)
    exact ⟨source, hp.append⟩
  · obtain ⟨source, packet, he, hp⟩ :=
      (List.mem_append.mp hm).elim (hi.sentTcp c frame) (htcp c frame)
    exact ⟨source, packet, he, hp.append⟩

/-- Frame rule for moves that put nothing on the network. -/
theorem quiet (hi : Sends s tr)
    (hsend : ∀ h, s'.sending = some h → .received h.source h.payload ∈ tr ++ obs)
    (hudp : ∀ i packet, .sentUdp i packet ∉ obs) (htcp : ∀ c frame, .sentTcp c frame ∉ obs) :
    Sends s' (tr ++ obs) :=
  hi.frame hsend (fun i packet hm => absurd hm (hudp i packet))
    (fun c frame hm => absurd hm (htcp c frame))

/-- The packet for a datagram carries an id of its source. -/
theorem packetFor (hi : Sends s tr) (hobj : Objects s tr) {h : Sending} {o : SessionObj}
    {seq : UInt32} (hs : s.sending = some h) (ho : h.pc.obj = some o) :
    PacketFor tr (encodePacket (s.cl.heap o).sessionId seq h.payload) h.source :=
  ⟨_, seq, h.payload, rfl, ⟨o, (hobj.sending h o hs ho).2⟩, hi.payload h hs⟩

/-- The step lemma. -/
theorem act {e : Event} (hi : Sends s tr) (hobj : Objects s tr) (ha : Act s e s' obs) :
    Sends s' (tr ++ obs) := by
  -- the listener goes on with its datagram
  have hon : ∀ {h : Sending} {pc : SendPc}, s.sending = some h → ∀ h',
      some { h with pc := pc } = some h' → .received h'.source h'.payload ∈ tr ++ obs := by
    intro h pc hs h' he
    rw [← Option.some.inj he]
    exact List.mem_append_left _ (hi.payload h hs)
  have hsame : s'.sending = s.sending → ∀ h', s'.sending = some h' →
      .received h'.source h'.payload ∈ tr ++ obs := by
    intro he h' hs
    exact List.mem_append_left _ (hi.payload h' (he ▸ hs))
  have hnil : ∀ x : Obs, x ∉ ([] : List Obs) := fun _ => List.not_mem_nil
  cases ha with
  | loop _ hsend _ _ => exact hi.quiet (hsame hsend) (fun _ _ => hnil _) (fun _ _ => hnil _)
  | arrive _ _ _ _ hsend _ _ =>
      exact hi.quiet (hsame hsend) (fun _ _ => hnil _) (fun _ _ => hnil _)
  | sourceSends _ =>
      refine hi.quiet (fun h' hs => ?_) (fun _ _ => by simp) (fun _ _ => by simp)
      rw [← Option.some.inj hs]
      exact List.mem_append_right _ (List.mem_singleton_self _)
  | goto ht _ _ => exact hi.quiet (hon ht) (fun _ _ => hnil _) (fun _ _ => hnil _)
  | found ht _ => exact hi.quiet (hon ht) (fun _ _ => hnil _) (fun _ _ => hnil _)
  | createNew ht _ => exact hi.quiet (hon ht) (fun _ _ => by simp) (fun _ _ => by simp)
  | number ht _ => exact hi.quiet (hon ht) (fun _ _ => by simp) (fun _ _ => by simp)
  | touch ht _ => exact hi.quiet (hon ht) (fun _ _ => hnil _) (fun _ _ => hnil _)
  | @udpSend h o seq i senders e ok ht hpc =>
      refine hi.frame (hon ht) (fun i' packet hm => ?_) (fun c frame hm => ?_)
      · cases ok
        · exact absurd hm (hnil _)
        · obtain ⟨-, rfl⟩ := Obs.sentUdp.inj (List.mem_singleton.mp hm)
          rw [udpPacket_eq]
          exact ⟨h.source, hi.packetFor hobj ht (by rw [hpc]; rfl)⟩
      · cases ok
        · exact absurd hm (hnil _)
        · exact absurd (List.mem_singleton.mp hm) (by simp)
  | foundTcp ht _ _ => exact hi.quiet (hon ht) (fun _ _ => hnil _) (fun _ _ => hnil _)
  | tcpCreateNew ht _ _ => exact hi.quiet (hon ht) (fun _ _ => by simp) (fun _ _ => by simp)
  | tcpTouch ht _ => exact hi.quiet (hon ht) (fun _ _ => hnil _) (fun _ _ => hnil _)
  | @tcpSend h o seq c servers frame e ok ht hpc hframe =>
      refine hi.frame (hon ht) (fun i packet hm => ?_) (fun c' frame' hm => ?_)
      · cases ok
        · exact absurd hm (hnil _)
        · exact absurd (List.mem_singleton.mp hm) (by simp)
      · cases ok
        · exact absurd hm (hnil _)
        · obtain ⟨-, rfl⟩ := Obs.sentTcp.inj (List.mem_singleton.mp hm)
          exact ⟨h.source, _, tcpFrameFor_eq hframe, hi.packetFor hobj ht (by rw [hpc]; rfl)⟩
  | sent _ => exact hi.quiet (fun _ hs => absurd hs (by simp)) (fun _ _ => hnil _) (fun _ _ => hnil _)
  | checkDup _ _ _ => exact hi.quiet (hsame rfl) (fun _ _ => by simp) (fun _ _ => by simp)
  | checkNew _ _ _ => exact hi.quiet (hsame rfl) (fun _ _ => by simp) (fun _ _ => by simp)
  | forward _ _ => exact hi.quiet (hsame rfl) (fun _ _ => by simp) (fun _ _ => by simp)
  | _ => exact hi.quiet (hsame rfl) (fun _ _ => hnil _) (fun _ _ => hnil _)

end Sends

/-- The run lemma. -/
theorem sends_exec {cfg : ClientConfig} {counter : UInt64} {es : List Event} {s : State}
    {tr : List Obs} (hrun : (machine cfg counter).exec es = some (s, tr)) : Sends s tr :=
  Machine.exec_induction (P := fun _ s tr => Sends s tr) _
    ⟨fun _ h => absurd h (by simp [machine]), fun _ _ h => absurd h List.not_mem_nil,
      fun _ _ h => absurd h List.not_mem_nil⟩
    (fun _ _ _ _ _ _ hrun hi hs => hi.act (objects_exec hrun) (act_of_machine hs)) es s tr hrun

end Fproxy.GoClient
