import Fproxy.Client.Objects

/-!
# What leaves the client

Every packet the client sends carries the id of a session of the source whose datagram it carries,
and every connection carries packets of the source it was opened for only.

* `SentFor` — a payload that a source sent, under an id assigned to that source.
* `Sends` — the invariant; `sends_exec` — it holds after every run.
-/

namespace Fproxy.Client

open Fproxy.Runs Fproxy.Protocol Fproxy.TcpFraming

/-- The connection `handle_packet` works on. -/
def SendPc.conn : SendPc → Option ConnId
  | .tcpTouch _ _ c _ => some c
  | .tcpSend _ _ c _ => some c
  | _ => none

/-- The id was assigned to the source. -/
def Assigned (tr : List Obs) (sid : UInt64) (source : SocketAddr) : Prop :=
  ∃ o, .created o sid source ∈ tr

/-- The connection was opened for the source. -/
def OpenedFor (tr : List Obs) (c : ConnId) (source : SocketAddr) : Prop :=
  ∃ server, .connected c source server ∈ tr

/-- The source sent the payload, and the id was assigned to it. -/
def SentFor (tr : List Obs) (sid : UInt64) (payload : List UInt8) (source : SocketAddr) : Prop :=
  Assigned tr sid source ∧ .received source payload ∈ tr

section Mono

variable {tr obs : List Obs} {sid : UInt64} {payload : List UInt8} {source : SocketAddr}
  {c : ConnId}

theorem Assigned.append (h : Assigned tr sid source) : Assigned (tr ++ obs) sid source :=
  h.imp fun _ ho => List.mem_append_left _ ho

theorem OpenedFor.append (h : OpenedFor tr c source) : OpenedFor (tr ++ obs) c source :=
  h.imp fun _ hs => List.mem_append_left _ hs

theorem SentFor.append (h : SentFor tr sid payload source) :
    SentFor (tr ++ obs) sid payload source :=
  ⟨h.1.append, List.mem_append_left _ h.2⟩

end Mono

/-- A packet whose payload some source sent under one of its ids. -/
def PacketFor (tr : List Obs) (packet : List UInt8) (source : SocketAddr) : Prop :=
  ∃ sid seq payload, packet = encodePacket sid seq payload ∧ SentFor tr sid payload source

theorem PacketFor.append {tr obs : List Obs} {packet : List UInt8} {source : SocketAddr}
    (h : PacketFor tr packet source) : PacketFor (tr ++ obs) packet source := by
  obtain ⟨sid, seq, payload, he, hs⟩ := h
  exact ⟨sid, seq, payload, he, hs.append⟩

/-- Something the server can see. -/
def Obs.toServer : Obs → Bool
  | .connected _ _ _ => true
  | .sentUdp _ _ => true
  | .sentTcp _ _ => true
  | _ => false

/-- The bytes on a connection are the frame of the packet. -/
theorem tcpFrameFor_eq {cl : Client} {o : SessionObj} {seq : UInt32} {payload frame : List UInt8}
    (h : cl.tcpFrameFor o seq payload = .ok frame) :
    frame = tcpFrame (encodePacket (cl.heap o).sessionId seq payload) := by
  simp only [tcpFrameFor, sendTcpFrame] at h
  split at h
  · exact absurd h (by simp)
  · exact (Except.ok.inj h).symm

/-- What the client has sent along every run. -/
structure Sends (s : State) (tr : List Obs) : Prop where
  payload : ∀ h, s.sending = some h → .received h.source h.payload ∈ tr
  conn : ∀ h c, s.sending = some h → h.pc.conn = some c → OpenedFor tr c h.source
  tcpSessions : ∀ source server c, s.cl.tcpSessions (source, server) = some c →
    OpenedFor tr c source
  allocated : ∀ c source, OpenedFor tr c source → c < s.cl.nextConn
  owner : ∀ c source source', OpenedFor tr c source → OpenedFor tr c source' → source = source'
  readers : ∀ c, (s.cl.readers c).pc ≠ .idle → OpenedFor tr c (s.cl.readers c).source
  sentUdp : ∀ i packet, .sentUdp i packet ∈ tr → ∃ source, PacketFor tr packet source
  sentTcp : ∀ c frame, .sentTcp c frame ∈ tr → ∃ source packet, frame = tcpFrame packet ∧
    PacketFor tr packet source ∧ OpenedFor tr c source

namespace Sends

variable {s s' : State} {tr obs : List Obs}

/-- Frame rule: a move that opens no connection, and sends what it may. -/
theorem frame (hi : Sends s tr)
    (hsend : ∀ h, s'.sending = some h → .received h.source h.payload ∈ tr ++ obs ∧
      ∀ c, h.pc.conn = some c → OpenedFor tr c h.source)
    (htcp : ∀ key c, s'.cl.tcpSessions key = some c → s.cl.tcpSessions key = some c)
    (hnext : s'.cl.nextConn = s.cl.nextConn)
    (hread : ∀ c, (s'.cl.readers c).pc ≠ .idle →
      (s.cl.readers c).pc ≠ .idle ∧ (s'.cl.readers c).source = (s.cl.readers c).source)
    (hconn : ∀ c source server, .connected c source server ∉ obs)
    (hudp : ∀ i packet, .sentUdp i packet ∈ obs → ∃ source, PacketFor tr packet source)
    (hframe : ∀ c frame, .sentTcp c frame ∈ obs → ∃ source packet, frame = tcpFrame packet ∧
      PacketFor tr packet source ∧ OpenedFor tr c source) : Sends s' (tr ++ obs) := by
  have hopen : ∀ {c source}, OpenedFor (tr ++ obs) c source → OpenedFor tr c source := by
    rintro c source ⟨server, h⟩
    rcases List.mem_append.mp h with h | h
    · exact ⟨server, h⟩
    · exact absurd h (hconn c source server)
  refine ⟨fun h hs => (hsend h hs).1, fun h c hs hc => ((hsend h hs).2 c hc).append,
    fun source server c hc => (hi.tcpSessions source server c (htcp _ c hc)).append,
    fun c source h => hnext ▸ hi.allocated c source (hopen h),
    fun c source source' h h' => hi.owner c source source' (hopen h) (hopen h'),
    fun c hc => ?_, fun i packet h => ?_, fun c frame h => ?_⟩
  · obtain ⟨hidle, hsource⟩ := hread c hc
    rw [hsource]
    exact (hi.readers c hidle).append
  · rcases List.mem_append.mp h with h | h
    · exact (hi.sentUdp i packet h).imp fun _ hp => hp.append
    · exact (hudp i packet h).imp fun _ hp => hp.append
  · rcases List.mem_append.mp h with h | h
    · obtain ⟨source, packet, he, hp, ho⟩ := hi.sentTcp c frame h
      exact ⟨source, packet, he, hp.append, ho.append⟩
    · obtain ⟨source, packet, he, hp, ho⟩ := hframe c frame h
      exact ⟨source, packet, he, hp.append, ho.append⟩

/-- Frame rule for the listener's task, as long as it sends nothing. -/
theorem frameSending (hi : Sends s tr) {h : Sending} {pc : SendPc} {cl : Client}
    (hs : s.sending = some h) (hpc : ∀ c, pc.conn = some c → OpenedFor tr c h.source)
    (htcp : cl.tcpSessions = s.cl.tcpSessions) (hnext : cl.nextConn = s.cl.nextConn)
    (hread : cl.readers = s.cl.readers) (hconn : ∀ c source server, .connected c source server ∉ obs)
    (hudp : ∀ i packet, .sentUdp i packet ∈ obs → ∃ source, PacketFor tr packet source)
    (hframe : ∀ c frame, .sentTcp c frame ∈ obs → ∃ source packet, frame = tcpFrame packet ∧
      PacketFor tr packet source ∧ OpenedFor tr c source) :
    Sends { s with cl := cl, sending := some { h with pc := pc } } (tr ++ obs) := by
  refine hi.frame (fun h' hs' => ?_) (fun key c hc => ?_) hnext (fun c hc => ?_) hconn hudp hframe
  · rw [← Option.some.inj hs']
    exact ⟨List.mem_append_left _ (hi.payload h hs), hpc⟩
  · rwa [← htcp]
  · have hsame : cl.readers c = s.cl.readers c := congrFun hread c
    exact ⟨hsame ▸ hc, congrArg Reader.source hsame⟩

/-- Frame rule for the listener's task between two sends. -/
theorem frameQuiet (hi : Sends s tr) {h : Sending} {pc : SendPc} {cl : Client}
    (hs : s.sending = some h) (hpc : ∀ c, pc.conn = some c → OpenedFor tr c h.source)
    (htcp : cl.tcpSessions = s.cl.tcpSessions) (hnext : cl.nextConn = s.cl.nextConn)
    (hread : cl.readers = s.cl.readers) :
    Sends { s with cl := cl, sending := some { h with pc := pc } } (tr ++ []) :=
  hi.frameSending hs hpc htcp hnext hread (fun _ _ _ => List.not_mem_nil)
    (fun _ _ h => absurd h List.not_mem_nil) (fun _ _ h => absurd h List.not_mem_nil)

/-- Frame rule for the other tasks: they send nothing to the server. -/
theorem frameOther (hi : Sends s tr) (hsend : s'.sending = s.sending)
    (htcp : ∀ key c, s'.cl.tcpSessions key = some c → s.cl.tcpSessions key = some c)
    (hnext : s'.cl.nextConn = s.cl.nextConn)
    (hread : ∀ c, (s'.cl.readers c).pc ≠ .idle →
      (s.cl.readers c).pc ≠ .idle ∧ (s'.cl.readers c).source = (s.cl.readers c).source)
    (hobs : ∀ x ∈ obs, x.toServer = false) : Sends s' (tr ++ obs) :=
  hi.frame
    (fun h hs => ⟨List.mem_append_left _ (hi.payload h (hsend ▸ hs)),
      fun c hc => hi.conn h c (hsend ▸ hs) hc⟩)
    htcp hnext hread (fun _ _ _ h => absurd (hobs _ h) (by simp [Obs.toServer]))
    (fun _ _ h => absurd (hobs _ h) (by simp [Obs.toServer]))
    (fun _ _ h => absurd (hobs _ h) (by simp [Obs.toServer]))

/-- A connection is opened for the source whose datagram is being sent. -/
theorem connect (hi : Sends s tr) {h : Sending} {o : SessionObj} {seq : UInt32} {server : String}
    {servers : List String} {now : ℕ} (hs : s.sending = some h)
    (hnone : s.cl.tcpSessions (h.source, server) = none) :
    Sends { s with
        cl := (s.cl.createTcpSession h.source server now true).1
        sending := some { h with pc := .tcpTouch o seq s.cl.nextConn servers } }
      (tr ++ [Obs.connected s.cl.nextConn h.source server]) := by
  have hnew : OpenedFor (tr ++ [Obs.connected s.cl.nextConn h.source server]) s.cl.nextConn
      h.source := ⟨server, List.mem_append_right _ (List.mem_singleton_self _)⟩
  have hopen : ∀ {c source},
      OpenedFor (tr ++ [Obs.connected s.cl.nextConn h.source server]) c source →
        OpenedFor tr c source ∨ c = s.cl.nextConn ∧ source = h.source := by
    rintro c source ⟨server', hc⟩
    rcases List.mem_append.mp hc with hc | hc
    · exact Or.inl ⟨server', hc⟩
    · obtain ⟨rfl, rfl, _⟩ := Obs.connected.inj (List.mem_singleton.mp hc)
      exact Or.inr ⟨rfl, rfl⟩
  refine ⟨fun h' hs' => ?_, fun h' c hs' hc => ?_, fun source server' c hc => ?_,
    fun c source ho => ?_, fun c source source' ho ho' => ?_, fun c hc => ?_, fun i packet hm => ?_,
    fun c frame hm => ?_⟩
  · rw [← Option.some.inj hs']
    exact List.mem_append_left _ (hi.payload h hs)
  · rw [← Option.some.inj hs'] at hc ⊢
    rw [← Option.some.inj hc]
    exact hnew
  · simp only [createTcpSession, hnone, if_true] at hc
    by_cases he : (source, server') = (h.source, server)
    · rw [he, Function.update_self, Option.some.injEq] at hc
      rw [← hc, (Prod.mk.inj he).1]
      exact hnew
    · rw [Function.update_of_ne he] at hc
      exact (hi.tcpSessions source server' c hc).append
  · simp only [createTcpSession, hnone, if_true]
    rcases hopen ho with ho | ⟨rfl, _⟩
    · exact Nat.lt_succ_of_lt (hi.allocated c source ho)
    · exact Nat.lt_succ_self _
  · rcases hopen ho with ho | ⟨hc, hsource⟩ <;> rcases hopen ho' with ho' | ⟨hc', hsource'⟩
    · exact hi.owner c source source' ho ho'
    · exact absurd (hi.allocated c source ho) (hc' ▸ Nat.lt_irrefl _)
    · exact absurd (hi.allocated c source' ho') (hc ▸ Nat.lt_irrefl _)
    · exact hsource.trans hsource'.symm
  · simp only [createTcpSession, hnone, if_true] at hc ⊢
    by_cases he : c = s.cl.nextConn
    · rw [he, Function.update_self]
      exact hnew
    · rw [Function.update_of_ne he] at hc ⊢
      exact (hi.readers c hc).append
  · rcases List.mem_append.mp hm with hm | hm
    · exact (hi.sentUdp i packet hm).imp fun _ hp => hp.append
    · exact absurd (List.mem_singleton.mp hm) (by simp)
  · rcases List.mem_append.mp hm with hm | hm
    · obtain ⟨source, packet, he, hp, ho⟩ := hi.sentTcp c frame hm
      exact ⟨source, packet, he, hp.append, ho.append⟩
    · exact absurd (List.mem_singleton.mp hm) (by simp)

/-- The packet for a datagram carries an id of its source. -/
theorem packetFor (hi : Sends s tr) (hobj : Objects s tr) {h : Sending} {o : SessionObj}
    {seq : UInt32} (hs : s.sending = some h) (ho : h.pc.obj = some o) :
    PacketFor tr (encodePacket (s.cl.heap o).sessionId seq h.payload) h.source :=
  ⟨_, seq, h.payload, rfl, ⟨o, (hobj.sending h o hs ho).2⟩, hi.payload h hs⟩

/-- The step lemma. -/
theorem act {e : Event} (hi : Sends s tr) (hobj : Objects s tr) (ha : Act s e s' obs) :
    Sends s' (tr ++ obs) := by
  have hsame : ∀ c, (s.cl.readers c).pc ≠ .idle →
      (s.cl.readers c).pc ≠ .idle ∧ (s.cl.readers c).source = (s.cl.readers c).source :=
    fun _ h => ⟨h, rfl⟩
  have hreader : ∀ {c : ConnId} (pc : ReaderPc), (s.cl.readers c).pc ≠ .idle → ∀ c',
      ((s.cl.setReader c pc).readers c').pc ≠ .idle → (s.cl.readers c').pc ≠ .idle ∧
        ((s.cl.setReader c pc).readers c').source = (s.cl.readers c').source := by
    intro c pc hc c' hc'
    by_cases he : c' = c
    · subst he
      exact ⟨hc, by simp [setReader]⟩
    · simpa [setReader, Function.update_of_ne he] using hc'
  have hother : s'.sending = s.sending → s'.cl.tcpSessions = s.cl.tcpSessions →
      s'.cl.nextConn = s.cl.nextConn →
      (∀ c, (s'.cl.readers c).pc ≠ .idle →
        (s.cl.readers c).pc ≠ .idle ∧ (s'.cl.readers c).source = (s.cl.readers c).source) →
      (∀ x ∈ obs, x.toServer = false) → Sends s' (tr ++ obs) := fun h₁ h₂ h₃ h₄ h₅ =>
    hi.frameOther h₁ (fun _ _ hc => by rwa [← h₂]) h₃ h₄ h₅
  have hnil : ∀ x ∈ ([] : List Obs), x.toServer = false := fun _ h => absurd h List.not_mem_nil
  have hnoconn : ∀ {pc : SendPc} {h : Sending}, pc.conn = none → ∀ c, pc.conn = some c →
      OpenedFor tr c h.source := fun hpc c hc => absurd (hpc.symm.trans hc) (by simp)
  cases ha with
  | @sourceSends source payload _ =>
      refine hi.frame (fun h hs => ?_) (fun _ _ h => h) rfl hsame (fun c a server hm => ?_)
        (fun i packet hm => ?_) (fun c frame hm => ?_)
      · rw [← Option.some.inj hs]
        exact ⟨List.mem_append_right _ (List.mem_singleton_self _), hnoconn rfl⟩
      · exact absurd (List.mem_singleton.mp hm) (by simp)
      · exact absurd (List.mem_singleton.mp hm) (by simp)
      · exact absurd (List.mem_singleton.mp hm) (by simp)
  | lookupHit hs _ _ => exact hi.frameQuiet hs (hnoconn rfl) rfl rfl rfl
  | lookupMiss hs _ _ => exact hi.frameQuiet hs (hnoconn rfl) rfl rfl rfl
  | createHit hs _ _ => exact hi.frameQuiet hs (hnoconn rfl) rfl rfl rfl
  | @createNew h now random b b' hs _ hnone =>
      refine hi.frameSending hs (hnoconn rfl) ?_ ?_ ?_ (fun c a server hm => ?_)
        (fun i packet hm => ?_) (fun c frame hm => ?_)
      · simp only [createUdpSession, hnone]
      · simp only [createUdpSession, hnone]
      · simp only [createUdpSession, hnone]
      · exact absurd (List.mem_singleton.mp hm) (by simp)
      · exact absurd (List.mem_singleton.mp hm) (by simp)
      · exact absurd (List.mem_singleton.mp hm) (by simp)
  | number hs _ =>
      exact hi.frameSending hs (hnoconn rfl) rfl rfl rfl
        (fun _ _ _ hm => absurd (List.mem_singleton.mp hm) (by simp))
        (fun _ _ hm => absurd (List.mem_singleton.mp hm) (by simp))
        (fun _ _ hm => absurd (List.mem_singleton.mp hm) (by simp))
  | touch hs _ => exact hi.frameQuiet hs (hnoconn rfl) rfl rfl rfl
  | udpDone hs _ => exact hi.frameQuiet hs (hnoconn rfl) rfl rfl rfl
  | @udpSend h o seq i senders now random b b' hs hpc =>
      refine hi.frameSending hs (hnoconn rfl) rfl rfl rfl (fun c a server hm => ?_)
        (fun i' packet hm => ?_) (fun c frame hm => ?_) <;> cases b'
      · exact absurd hm List.not_mem_nil
      · exact absurd (List.mem_singleton.mp hm) (by simp)
      · exact absurd hm List.not_mem_nil
      · obtain ⟨_, rfl⟩ := Obs.sentUdp.inj (List.mem_singleton.mp hm)
        exact ⟨h.source, hi.packetFor hobj hs (by rw [hpc]; rfl)⟩
      · exact absurd hm List.not_mem_nil
      · exact absurd (List.mem_singleton.mp hm) (by simp)
  | tcpDone _ _ =>
      exact hi.frame (fun _ h => absurd h (by simp)) (fun _ _ h => h) rfl hsame
        (fun _ _ _ => List.not_mem_nil) (fun _ _ h => absurd h List.not_mem_nil)
        (fun _ _ h => absurd h List.not_mem_nil)
  | @tcpHit h o seq server servers c now random b b' hs _ hc =>
      refine hi.frameQuiet hs (fun c' hc' => ?_) rfl rfl rfl
      rw [← Option.some.inj hc']
      exact hi.tcpSessions h.source server c hc
  | tcpMiss hs _ _ => exact hi.frameQuiet hs (hnoconn rfl) rfl rfl rfl
  | @tcpCreateHit h o seq server servers c now random b b' hs _ hc =>
      refine hi.frameQuiet hs (fun c' hc' => ?_) rfl rfl rfl
      rw [← Option.some.inj hc']
      exact hi.tcpSessions h.source server c hc
  | tcpCreateFail hs _ _ => exact hi.frameQuiet hs (hnoconn rfl) rfl rfl rfl
  | tcpCreateNew hs _ hnone => exact hi.connect hs hnone
  | @tcpTouch h o seq c servers now random b b' hs hpc =>
      exact hi.frameQuiet hs (fun c' hc' => hi.conn h c' hs (by rw [hpc]; exact hc')) rfl rfl rfl
  | @tcpSend h o seq c servers frame now random b b' hs hpc hframe =>
      have hbytes := tcpFrameFor_eq hframe
      refine hi.frameSending hs (hnoconn rfl) rfl rfl rfl (fun c' a server hm => ?_)
        (fun i packet hm => ?_) (fun c' frame' hm => ?_) <;> cases b'
      · exact absurd hm List.not_mem_nil
      · exact absurd (List.mem_singleton.mp hm) (by simp)
      · exact absurd hm List.not_mem_nil
      · exact absurd (List.mem_singleton.mp hm) (by simp)
      · exact absurd hm List.not_mem_nil
      · obtain ⟨rfl, rfl⟩ := Obs.sentTcp.inj (List.mem_singleton.mp hm)
        exact ⟨h.source, _, hbytes, hi.packetFor hobj hs (by rw [hpc]; rfl),
          hi.conn h c' hs (by rw [hpc]; rfl)⟩
  | tcpTooLarge hs _ _ => exact hi.frameQuiet hs (hnoconn rfl) rfl rfl rfl
  | frameBegins hc _ => exact hother rfl rfl rfl (hreader _ (by rw [hc]; simp)) hnil
  | frameUndecodable hc => exact hother rfl rfl rfl (hreader _ (by rw [hc]; simp)) hnil
  | frameEnds hc _ _ => exact hother rfl rfl rfl (hreader _ (by rw [hc]; simp)) hnil
  | readerFails hc _ =>
      refine hother rfl rfl rfl (hreader _ ?_) hnil
      rcases hc with hc | hc <;> rw [hc] <;> simp
  | readerCancelled hc _ _ => exact hother rfl rfl rfl (hreader _ (by rw [hc]; simp)) hnil
  | @cleanup c hc =>
      refine hi.frameOther rfl (fun key c' hc' => ?_) ?_ (fun c' hc' => ?_) hnil
      · exact tcpSessions_of_cleanupTcpSession hc'
      · simp [setReader]
      · have hsource := hreader .done (by rw [hc]; simp) c'
        simp only [setReader, cleanupTcpSession_readers] at hc' hsource ⊢
        exact hsource hc'
  | checkDup _ _ _ => exact hother rfl rfl rfl hsame (by simp [Obs.toServer])
  | checkNew _ _ _ => exact hother rfl rfl rfl hsame (by simp [Obs.toServer])
  | forward _ _ => exact hother rfl rfl rfl hsame (by simp [Obs.toServer])
  | sweepTcp _ =>
      exact hi.frameOther rfl (fun _ _ h => tcpSessions_of_cleanupExpiredTcp h) rfl hsame hnil
  | _ => exact hother rfl rfl rfl hsame hnil

end Sends

/-- The run lemma. -/
theorem sends_exec {cfg : ClientConfig} {counter : UInt64} {es : List Event} {s : State}
    {tr : List Obs} (hrun : (machine cfg counter).exec es = some (s, tr)) : Sends s tr := by
  refine Machine.exec_induction (P := fun _ s tr => Sends s tr) _ ?_
    (fun _ _ _ _ _ _ hrun hi hs => hi.act (objects_exec hrun) (act_of_machine hs)) es s tr hrun
  exact ⟨fun _ h => absurd h (by simp [machine]), fun _ _ h => absurd h (by simp [machine]),
    fun _ _ _ h => absurd h (by simp [machine, new]), fun _ _ h => absurd h (by simp [OpenedFor]),
    fun _ _ _ h => absurd h (by simp [OpenedFor]), fun _ h => absurd h (by simp [machine, new]),
    fun _ _ h => absurd h List.not_mem_nil, fun _ _ h => absurd h List.not_mem_nil⟩

end Fproxy.Client
