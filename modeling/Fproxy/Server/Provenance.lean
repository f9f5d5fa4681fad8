import Fproxy.Server.Objects
import Fproxy.Server.TcpPaths

/-!
# Where what the server sends comes from

Stated relative to a predicate `P` on the packets that arrive, so that the network model can say
what it knows about them.

* `Requests P` — every packet in hand or forwarded satisfies `P`, and a session lists a
  connection only if a packet of that session came in on it.
* `Responses K` — every response carries a payload that was read from the target socket of the
  session it names, and leaves on a connection related to that session by `K`.
* `Requests.act`, `Responses.act` — the step lemmas.
-/

namespace Fproxy.Server

open Fproxy.Protocol Fproxy.TcpFraming

/-- The packet an event brings in, and how. -/
def Event.packet : Event → Option (Source × List UInt8)
  | .udpArrives l addr data => some (.udp l addr, data)
  | .tcpArrives c data => some (.tcp c, data)
  | _ => none

/-! ### Requests -/

/-- Some packet of the session that came in on the connection satisfies `P`. -/
def Carries (P : Source → List UInt8 → Prop) (sid : UInt64) (c : ConnId) : Prop :=
  ∃ seq payload, P (.tcp c) (encodePacket sid seq payload)

/-- Every packet in hand, every packet forwarded and every listed connection is accounted for by
packets that satisfy `P`. -/
structure Requests (P : Source → List UInt8 → Prop) (s : State) (tr : List Obs) : Prop where
  handlers : ∀ t h, s.handlers t = some h →
    P h.source (encodePacket h.sessionId h.seq h.payload)
  forwarded : ∀ o sid seq payload ok, .forwarded o sid seq payload ok ∈ tr →
    ∃ source, P source (encodePacket sid seq payload)
  listed : ∀ sid c w, Lists s.srv sid (.tcp c w) → w = c ∧ Carries P sid c

namespace Requests

variable {P P' : Source → List UInt8 → Prop} {s s' : State} {tr obs : List Obs}

theorem mono (hi : Requests P s tr) (h : ∀ source data, P source data → P' source data) :
    Requests P' s tr where
  handlers := fun t hd ht => h _ _ (hi.handlers t hd ht)
  forwarded := fun o sid seq payload ok hm =>
    (hi.forwarded o sid seq payload ok hm).imp fun _ hp => h _ _ hp
  listed := fun sid c w hl => by
    obtain ⟨hw, seq, payload, hp⟩ := hi.listed sid c w hl
    exact ⟨hw, seq, payload, h _ _ hp⟩

/-- The handlers after a move are old ones gone on, or one for a packet that just came in. -/
theorem handlers_act {e : Event} (ha : Act s e s' obs)
    (hi : ∀ t h, s.handlers t = some h → P h.source (encodePacket h.sessionId h.seq h.payload))
    (harr : ∀ source data, e.packet = some (source, data) → P source data) :
    ∀ t h, s'.handlers t = some h → P h.source (encodePacket h.sessionId h.seq h.payload) := by
  have hgoto : ∀ (srv : Server) {t : Task} {h : Handler} {pc : HandlerPc},
      s.handlers t = some h → ∀ t' h',
        ({ s with srv := srv }.setHandler t (some { h with pc := pc })).handlers t' = some h' →
          P h'.source (encodePacket h'.sessionId h'.seq h'.payload) := by
    intro srv t h pc ht t' h' ht'
    rcases handlers_setHandler ht' with ⟨_, hset⟩ | hold
    · rw [← Option.some.inj hset]
      exact hi t h ht
    · exact hi t' h' hold
  have hfinish : ∀ (srv : Server) {t : Task} t' h',
      ({ s with srv := srv }.setHandler t none).handlers t' = some h' →
        P h'.source (encodePacket h'.sessionId h'.seq h'.payload) := by
    intro srv t t' h' ht'
    rcases handlers_setHandler ht' with ⟨_, hset⟩ | hold
    · exact absurd hset (by simp)
    · exact hi t' h' hold
  cases ha with
  | @arrive source _ data sid seq payload _ htcp hudp hdec =>
      intro t' h' ht'
      rcases handlers_setHandler ht' with ⟨_, hset⟩ | hold
      · rw [← Option.some.inj hset]
        show P source (encodePacket sid seq payload)
        rw [encodePacket_decodePacket hdec]
        refine harr source data ?_
        cases source with
        | udp l addr => rw [hudp l addr rfl]; rfl
        | tcp c => rw [(htcp c rfl).2]; rfl
      · exact hi t' h' hold
  | lookupHit ht _ _ => exact hgoto s.srv ht
  | lookupMiss ht _ _ => exact hgoto s.srv ht
  | createHit ht _ _ => exact hgoto s.srv ht
  | createFail _ _ _ => exact hfinish s.srv
  | createNew ht _ _ => exact hgoto _ ht
  | touch ht _ => exact hgoto _ ht
  | checkDup _ _ _ => exact hfinish _
  | checkNew ht _ _ _ => exact hgoto _ ht
  | trackUdp ht _ _ => exact hgoto s.srv ht
  | track ht _ _ => exact hgoto _ ht
  | registerUdp ht _ _ => exact hgoto _ ht
  | registerTcp ht _ _ => exact hgoto _ ht
  | forward _ _ => exact hfinish s.srv
  | _ => exact hi

/-- The step lemma. -/
theorem act {e : Event} (hi : Requests P s tr) (ha : Act s e s' obs)
    (harr : ∀ source data, e.packet = some (source, data) → P source data) :
    Requests P s' (tr ++ obs) := by
  refine ⟨handlers_act ha hi.handlers harr, fun o sid seq payload ok hm => ?_,
    fun sid c w hl => ?_⟩
  · rcases List.mem_append.mp hm with hm | hm
    · exact hi.forwarded o sid seq payload ok hm
    · obtain ⟨t, h, _, _, _, ht, _, rfl, rfl, rfl⟩ := ha.of_forwarded hm
      exact ⟨h.source, hi.handlers t h ht⟩
  · rcases hl.of_act ha with hold | ⟨rfl, t, h, o, ht, _, hsrc, rfl⟩
    · exact hi.listed sid c w hold
    · have hp := hi.handlers t h ht
      rw [hsrc] at hp
      exact ⟨rfl, h.seq, h.payload, hp⟩

end Requests

/-! ### Responses -/

/-- The payload a response task has in hand. -/
def ReceiverPc.payload : ReceiverPc → Option (List UInt8)
  | .touch payload => some payload
  | .number payload => some payload
  | .paths payload _ => some payload
  | .sending payload _ _ => some payload
  | _ => none

/-- The paths a response task has left to send on. -/
def ReceiverPc.rest : ReceiverPc → List ClientPath
  | .sending _ _ rest => rest
  | _ => []

/-- Some object created for the session read the payload from its target socket. -/
def ReadFor (tr : List Obs) (sid : UInt64) (payload : List UInt8) : Prop :=
  ∃ o, .targetRead o sid payload ∈ tr

theorem ReadFor.append {tr obs : List Obs} {sid : UInt64} {payload : List UInt8}
    (h : ReadFor tr sid payload) : ReadFor (tr ++ obs) sid payload :=
  h.imp fun _ ho => List.mem_append_left _ ho

/-- Every response in hand and every response sent was read from a target socket of the session it
names; a connection is used only for the sessions `K` relates to it. -/
structure Responses (K : UInt64 → ConnId → Prop) (s : State) (tr : List Obs) : Prop where
  started : ∀ o, s.srv.receivers o ≠ .idle → o < s.srv.next
  reading : ∀ o payload, (s.srv.receivers o).payload = some payload →
    ReadFor tr (s.srv.heap o).sessionId payload
  sending : ∀ o c w, .tcp c w ∈ (s.srv.receivers o).rest → K (s.srv.heap o).sessionId w
  sentUdp : ∀ l addr data, .sentUdp l addr data ∈ tr → ∃ sid seq payload,
    data = encodePacket sid seq payload ∧ ReadFor tr sid payload
  sentTcp : ∀ w frame, .sentTcp w frame ∈ tr → ∃ sid seq payload,
    frame = tcpFrame (encodePacket sid seq payload) ∧ ReadFor tr sid payload ∧ K sid w

namespace Responses

variable {K K' : UInt64 → ConnId → Prop} {s s' : State} {tr obs : List Obs}

theorem mono (hi : Responses K s tr) (h : ∀ sid c, K sid c → K' sid c) :
    Responses K' s tr where
  started := hi.started
  reading := hi.reading
  sending := fun o c w hm => h _ _ (hi.sending o c w hm)
  sentUdp := hi.sentUdp
  sentTcp := fun w frame hm => by
    obtain ⟨sid, seq, payload, he, hr, hk⟩ := hi.sentTcp w frame hm
    exact ⟨sid, seq, payload, he, hr, h _ _ hk⟩

/-- Frame rule: the response tasks stand where they stood, or moved on within what they may. -/
theorem frame (hi : Responses K s tr) (hnext : s.srv.next ≤ s'.srv.next)
    (hid : ∀ o, o < s.srv.next → (s'.srv.heap o).sessionId = (s.srv.heap o).sessionId)
    (hrec : ∀ o, s'.srv.receivers o = s.srv.receivers o ∨
      o < s'.srv.next ∧
        (∀ payload, (s'.srv.receivers o).payload = some payload →
          ReadFor (tr ++ obs) (s'.srv.heap o).sessionId payload) ∧
        ∀ c w, .tcp c w ∈ (s'.srv.receivers o).rest → K (s'.srv.heap o).sessionId w)
    (hudp : ∀ l addr data, .sentUdp l addr data ∈ obs → ∃ sid seq payload,
      data = encodePacket sid seq payload ∧ ReadFor tr sid payload)
    (htcp : ∀ w frame, .sentTcp w frame ∈ obs → ∃ sid seq payload,
      frame = tcpFrame (encodePacket sid seq payload) ∧ ReadFor tr sid payload ∧ K sid w) :
    Responses K s' (tr ++ obs) := by
  have hlt : ∀ o, (s.srv.receivers o).payload ≠ none ∨ (s.srv.receivers o).rest ≠ [] →
      o < s.srv.next := by
    intro o h
    refine hi.started o fun hidle => ?_
    rw [hidle] at h
    rcases h with h | h <;> exact h rfl
  refine ⟨fun o h => ?_, fun o payload h => ?_, fun o c w h => ?_, fun l addr data h => ?_,
    fun w frame h => ?_⟩
  · rcases hrec o with he | ⟨hlt', _⟩
    · exact lt_of_lt_of_le (hi.started o (he ▸ h)) hnext
    · exact hlt'
  · rcases hrec o with he | ⟨_, hp, _⟩
    · rw [he] at h
      rw [hid o (hlt o (Or.inl (by rw [h]; simp)))]
      exact (hi.reading o payload h).append
    · exact hp payload h
  · rcases hrec o with he | ⟨_, _, hk⟩
    · rw [he] at h
      rw [hid o (hlt o (Or.inr (List.ne_nil_of_mem h)))]
      exact hi.sending o c w h
    · exact hk c w h
  · rcases List.mem_append.mp h with h | h
    · obtain ⟨sid, seq, payload, he, hr⟩ := hi.sentUdp l addr data h
      exact ⟨sid, seq, payload, he, hr.append⟩
    · obtain ⟨sid, seq, payload, he, hr⟩ := hudp l addr data h
      exact ⟨sid, seq, payload, he, hr.append⟩
  · rcases List.mem_append.mp h with h | h
    · obtain ⟨sid, seq, payload, he, hr, hk⟩ := hi.sentTcp w frame h
      exact ⟨sid, seq, payload, he, hr.append, hk⟩
    · obtain ⟨sid, seq, payload, he, hr, hk⟩ := htcp w frame h
      exact ⟨sid, seq, payload, he, hr.append, hk⟩

/-- Frame rule for moves that do not concern the response tasks. -/
theorem frameOther (hi : Responses K s tr) (hnext : s'.srv.next = s.srv.next)
    (hid : ∀ o, (s'.srv.heap o).sessionId = (s.srv.heap o).sessionId)
    (hrec : s'.srv.receivers = s.srv.receivers) (hudp : ∀ l addr data, .sentUdp l addr data ∉ obs)
    (htcp : ∀ w frame, .sentTcp w frame ∉ obs) : Responses K s' (tr ++ obs) :=
  hi.frame (le_of_eq hnext.symm) (fun o _ => hid o) (fun o => Or.inl (congrFun hrec o))
    (fun l a d h => absurd h (hudp l a d)) (fun w f h => absurd h (htcp w f))

/-- Frame rule for a move of one response task. -/
theorem frameReceiver (hi : Responses K s tr) (srv : Server) {o : ObjId} {pc : ReceiverPc}
    (hlt : o < s.srv.next) (hnext : srv.next = s.srv.next)
    (hid : ∀ o, (srv.heap o).sessionId = (s.srv.heap o).sessionId)
    (hrec : srv.receivers = s.srv.receivers)
    (hpay : ∀ payload, pc.payload = some payload →
      ReadFor (tr ++ obs) (s.srv.heap o).sessionId payload)
    (hrest : ∀ c w, .tcp c w ∈ pc.rest → K (s.srv.heap o).sessionId w)
    (hudp : ∀ l addr data, .sentUdp l addr data ∈ obs → ∃ sid seq payload,
      data = encodePacket sid seq payload ∧ ReadFor tr sid payload)
    (htcp : ∀ w frame, .sentTcp w frame ∈ obs → ∃ sid seq payload,
      frame = tcpFrame (encodePacket sid seq payload) ∧ ReadFor tr sid payload ∧ K sid w) :
    Responses K ({ s with srv := srv }.setReceiver o pc) (tr ++ obs) := by
  refine hi.frame (le_of_eq hnext.symm) (fun o' _ => hid o') (fun o' => ?_) hudp htcp
  by_cases he : o' = o
  · subst he
    refine Or.inr ⟨by rw [← hnext] at hlt; exact hlt, fun payload h => ?_, fun c w h => ?_⟩
    · show ReadFor (tr ++ obs) (srv.heap o').sessionId payload
      rw [hid]
      exact hpay payload (by simpa [State.setReceiver] using h)
    · show K (srv.heap o').sessionId w
      rw [hid]
      exact hrest c w (by simpa [State.setReceiver] using h)
  · left
    simp [State.setReceiver, Function.update_of_ne he, hrec]

/-- A task that only moves on. -/
theorem frameQuiet (hi : Responses K s tr) (srv : Server) {o : ObjId} {pc : ReceiverPc}
    (hlt : o < s.srv.next) (hnext : srv.next = s.srv.next)
    (hid : ∀ o, (srv.heap o).sessionId = (s.srv.heap o).sessionId)
    (hrec : srv.receivers = s.srv.receivers)
    (hpay : ∀ payload, pc.payload = some payload → (s.srv.receivers o).payload = some payload)
    (hrest : ∀ c w, .tcp c w ∈ pc.rest → K (s.srv.heap o).sessionId w) :
    Responses K ({ s with srv := srv }.setReceiver o pc) (tr ++ []) :=
  hi.frameReceiver srv hlt hnext hid hrec
    (fun payload h => (hi.reading o payload (hpay payload h)).append)
    hrest (fun _ _ _ h => absurd h List.not_mem_nil) (fun _ _ h => absurd h List.not_mem_nil)

/-- The step lemma. -/
theorem act {e : Event} (hi : Responses K s tr)
    (hlist : ∀ sid c w, Lists s.srv sid (.tcp c w) → K sid w) (ha : Act s e s' obs) :
    Responses K s' (tr ++ obs) := by
  have hother : s'.srv.next = s.srv.next →
      (∀ o, (s'.srv.heap o).sessionId = (s.srv.heap o).sessionId) →
      s'.srv.receivers = s.srv.receivers →
      (∀ x ∈ obs, (∃ o seq payload dup, x = .checked o seq payload dup) ∨
        ∃ o sid seq payload ok, x = .forwarded o sid seq payload ok) →
      Responses K s' (tr ++ obs) := by
    intro h₁ h₂ h₃ h₄
    refine hi.frameOther h₁ h₂ h₃ (fun l a d hm => ?_) (fun w f hm => ?_) <;>
      rcases h₄ _ hm with ⟨_, _, _, _, he⟩ | ⟨_, _, _, _, _, he⟩ <;> exact absurd he (by simp)
  have hnil : ∀ x ∈ ([] : List Obs), (∃ o seq payload dup, x = .checked o seq payload dup) ∨
      ∃ o sid seq payload ok, x = .forwarded o sid seq payload ok :=
    fun _ h => absurd h List.not_mem_nil
  have hlt : ∀ {o : ObjId} {pc : ReceiverPc}, s.srv.receivers o = pc → pc ≠ .idle →
      o < s.srv.next := fun he hne => hi.started _ (he ▸ hne)
  have hnorest : ∀ {o : ObjId} {pc : ReceiverPc}, pc.rest = [] →
      ∀ c w, .tcp c w ∈ pc.rest → K (s.srv.heap o).sessionId w := by
    intro o pc h c w hm
    rw [h] at hm
    exact absurd hm List.not_mem_nil
  cases ha with
  | @createNew t h now b' _ _ hnone =>
      refine hi.frame ?_ (fun o ho => ?_) (fun o => ?_) (fun _ _ _ h => absurd h List.not_mem_nil)
        (fun _ _ h => absurd h List.not_mem_nil) <;>
        simp only [State.setHandler, createSession, hnone, if_true]
      · exact Nat.le_succ _
      · rw [Function.update_of_ne (Nat.ne_of_lt ho)]
      · by_cases he : o = s.srv.next
        · subst he
          rw [Function.update_self]
          exact Or.inr ⟨Nat.lt_succ_self _, fun _ h => absurd h (by simp [ReceiverPc.payload]),
            fun _ _ h => absurd h List.not_mem_nil⟩
        · exact Or.inl (Function.update_of_ne he _ _)
  | touch _ _ => exact hother rfl (touch_sessionId _ _ · _) rfl hnil
  | checkDup _ _ _ =>
      exact hother rfl (checkDuplicate_sessionId _ _ · _) rfl
        fun _ h => Or.inl ⟨_, _, _, _, List.mem_singleton.mp h⟩
  | checkNew _ _ _ _ =>
      exact hother rfl (checkDuplicate_sessionId _ _ · _) rfl
        fun _ h => Or.inl ⟨_, _, _, _, List.mem_singleton.mp h⟩
  | forward _ _ =>
      exact hother rfl (fun _ => rfl) rfl
        fun _ h => Or.inr ⟨_, _, _, _, _, List.mem_singleton.mp h⟩
  | @removePath c sid _ =>
      refine hother ?_ (fun o => ?_) ?_ hnil <;> simp [State.setConn]
  | @targetReads o payload hpc =>
      refine hi.frameReceiver s.srv (hlt hpc (by simp)) rfl (fun _ => rfl) rfl
        (fun payload' h => ?_) (hnorest rfl) (fun _ _ _ h => ?_) (fun _ _ h => ?_)
      · rw [← Option.some.inj h]
        exact ⟨o, List.mem_append_right _ (List.mem_singleton_self _)⟩
      · exact absurd (List.mem_singleton.mp h) (by simp)
      · exact absurd (List.mem_singleton.mp h) (by simp)
  | targetFails hpc =>
      exact hi.frameQuiet s.srv (hlt hpc (by simp)) rfl (fun _ => rfl) rfl
        (fun _ h => absurd h (by simp [ReceiverPc.payload])) (hnorest rfl)
  | receiverCancelled hpc _ =>
      exact hi.frameQuiet s.srv (hlt hpc (by simp)) rfl (fun _ => rfl) rfl
        (fun _ h => absurd h (by simp [ReceiverPc.payload])) (hnorest rfl)
  | responseTouch hpc _ =>
      exact hi.frameQuiet _ (hlt hpc (by simp)) rfl (touch_sessionId _ _ · _) rfl
        (fun _ h => by rw [hpc]; exact h) (hnorest rfl)
  | responseUntouched hpc _ =>
      exact hi.frameQuiet s.srv (hlt hpc (by simp)) rfl (fun _ => rfl) rfl
        (fun _ h => by rw [hpc]; exact h) (hnorest rfl)
  | responseNumber hpc _ =>
      exact hi.frameQuiet _ (hlt hpc (by simp)) rfl (takeResponseSeq_sessionId _ _) rfl
        (fun _ h => by rw [hpc]; exact h) (hnorest rfl)
  | @responsePaths o payload seq paths now b hpc hpaths =>
      exact hi.frameQuiet s.srv (hlt hpc (by simp)) rfl (fun _ => rfl) rfl
        (fun _ h => by rw [hpc]; exact h) (fun c w hm => hlist _ c w ⟨paths, hpaths, hm⟩)
  | @responseSend o payload seq p ps now b hpc =>
      have hread : ReadFor tr (s.srv.heap o).sessionId payload :=
        hi.reading o payload (by rw [hpc]; rfl)
      have hrest : ∀ c w, .tcp c w ∈ p :: ps → K (s.srv.heap o).sessionId w :=
        fun c w hm => hi.sending o c w (by rw [hpc]; exact hm)
      refine hi.frameReceiver s.srv (hlt hpc (by simp)) rfl (fun _ => rfl) rfl
        (fun payload' h => ?_) (fun c w hm => hrest c w (List.mem_cons_of_mem _ hm))
        (fun l addr data h => ?_) (fun w frame h => ?_)
      · rw [← Option.some.inj h]
        exact hread.append
      · cases b
        · exact absurd h List.not_mem_nil
        · cases p with
          | udp a l' =>
              obtain ⟨_, _, rfl⟩ := Obs.sentUdp.inj (List.mem_singleton.mp h)
              exact ⟨_, seq, payload, rfl, hread⟩
          | tcp c w => exact absurd (List.mem_singleton.mp h) (by simp [sendOnPath])
      · cases b
        · exact absurd h List.not_mem_nil
        · cases p with
          | udp a l' => exact absurd (List.mem_singleton.mp h) (by simp [sendOnPath])
          | tcp c w' =>
              obtain ⟨rfl, rfl⟩ := Obs.sentTcp.inj (List.mem_singleton.mp h)
              exact ⟨_, seq, payload, rfl, hread, hrest c w List.mem_cons_self⟩
  | @responseOver o now b hrun =>
      refine hi.frameQuiet s.srv (hi.started o fun hidle => ?_) rfl (fun _ => rfl) rfl
        (fun _ h => absurd h (by simp [ReceiverPc.payload])) (hnorest rfl)
      rw [State.AnswerOver, hidle] at hrun
      exact hrun
  | sweep => exact hother rfl (cleanupExpiredSessions_sessionId _ _) rfl hnil
  | _ => exact hother rfl (fun _ => rfl) rfl hnil

end Responses

end Fproxy.Server
