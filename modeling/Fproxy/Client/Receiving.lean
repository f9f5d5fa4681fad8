import Fproxy.Client.Sending

/-!
# Where a response is sent on to

A response that came in over UDP goes to a source its id was assigned to, one that came in on a
connection goes to the source the connection was opened for.

* `Routed` — this relation between a reader, an id and a source.
* `Receives A` — the invariant, relative to a predicate `A` on the packets that arrive.
* `Receives.act` — the step lemma.
-/

namespace Fproxy.Client

open Fproxy.Protocol

/-- The packet an event brings in, and the reader that takes it. -/
def Event.packet : Event → Option (Responder × List UInt8)
  | .udpArrives i data => some (.udp i, data)
  | .frameEnds c data => some (.tcp c, data)
  | _ => none

/-- The source a response is looked up for, or accounted to. -/
def ResponsePc.source : ResponsePc → Option SocketAddr
  | .lookupAddr => none
  | .lookupSession source => some source
  | .check source _ => some source
  | .touch source _ => some source
  | .forward source _ => some source

/-- Without an arrival, what a reader has in hand it has had in hand. -/
theorem Act.had_in_hand {s s' : State} {e : Event} {obs : List Obs} (ha : Act s e s' obs)
    (hnone : e.packet = none) {t : Responder} {r' : Response} (h : s'.responses t = some r') :
    ∃ r, s.responses t = some r ∧ r'.sessionId = r.sessionId ∧ r'.seq = r.seq ∧
      r'.payload = r.payload := by
  have hgoto : ∀ {cl : Client} {t₀ : Responder} {r : Response} {pc : ResponsePc},
      s.responses t₀ = some r →
      ({ s with cl := cl }.setResponse t₀ (some { r with pc := pc })).responses t = some r' →
        ∃ r, s.responses t = some r ∧ r'.sessionId = r.sessionId ∧ r'.seq = r.seq ∧
          r'.payload = r.payload := by
    intro cl t₀ r pc ht h
    rcases responses_setResponse h with ⟨rfl, hset⟩ | hold
    · exact ⟨r, ht, by rw [← Option.some.inj hset]; exact ⟨rfl, rfl, rfl⟩⟩
    · exact ⟨r', hold, rfl, rfl, rfl⟩
  have hdrop : ∀ {cl : Client} {t₀ : Responder},
      ({ s with cl := cl }.setResponse t₀ none).responses t = some r' →
        ∃ r, s.responses t = some r ∧ r'.sessionId = r.sessionId ∧ r'.seq = r.seq ∧
          r'.payload = r.payload := by
    intro cl t₀ h
    rcases responses_setResponse h with ⟨_, hset⟩ | hold
    · exact absurd hset (by simp)
    · exact ⟨r', hold, rfl, rfl, rfl⟩
  cases ha with
  | udpArrives _ _ | frameEnds _ _ _ => exact absurd hnone (by simp [Event.packet])
  | addrHit ht _ _ | sessionHit ht _ _ | checkNew ht _ _ | responseTouch ht _ => exact hgoto ht h
  | addrMiss _ _ _ | sessionMiss _ _ _ | checkDup _ _ _ | forward _ _ => exact hdrop h
  | _ => exact ⟨r', h, rfl, rfl, rfl⟩

/-- Where a reader sends a response with this id. -/
def Routed (tr : List Obs) (t : Responder) (sid : UInt64) (source : SocketAddr) : Prop :=
  match t with
  | .udp _ => Assigned tr sid source
  | .tcp c => OpenedFor tr c source

theorem Routed.append {tr obs : List Obs} {t : Responder} {sid : UInt64} {source : SocketAddr}
    (h : Routed tr t sid source) : Routed (tr ++ obs) t sid source := by
  cases t with
  | udp i => exact Assigned.append h
  | tcp c => exact OpenedFor.append h

/-- Every response in hand or sent on came in as a packet that satisfies `A`, and goes where its
reader sends it. -/
structure Receives (A : Responder → List UInt8 → Prop) (s : State) (tr : List Obs) : Prop where
  arrived : ∀ t r, s.responses t = some r → A t (encodePacket r.sessionId r.seq r.payload)
  overUdp : ∀ t r, s.responses t = some r → r.pc = .lookupAddr → ∃ i, t = .udp i
  routed : ∀ t r source, s.responses t = some r → r.pc.source = some source →
    Routed tr t r.sessionId source
  forwarded : ∀ o seq source payload ok, .forwarded o seq source payload ok ∈ tr →
    ∃ t sid, A t (encodePacket sid seq payload) ∧ Routed tr t sid source

namespace Receives

variable {A A' : Responder → List UInt8 → Prop} {s s' : State} {tr obs : List Obs}

theorem mono (hi : Receives A s tr) (h : ∀ t data, A t data → A' t data) : Receives A' s tr where
  arrived := fun t r ht => h _ _ (hi.arrived t r ht)
  overUdp := hi.overUdp
  routed := hi.routed
  forwarded := fun o seq source payload ok hm => by
    obtain ⟨t, sid, ha, hr⟩ := hi.forwarded o seq source payload ok hm
    exact ⟨t, sid, h _ _ ha, hr⟩

/-- Frame rule for moves that send no response on. -/
theorem frame (hi : Receives A s tr)
    (hresp : ∀ t r, s'.responses t = some r → s.responses t = some r ∨
      A t (encodePacket r.sessionId r.seq r.payload) ∧ (r.pc = .lookupAddr → ∃ i, t = .udp i) ∧
        ∀ source, r.pc.source = some source → Routed tr t r.sessionId source)
    (hobs : ∀ o seq source payload ok, .forwarded o seq source payload ok ∉ obs) :
    Receives A s' (tr ++ obs) := by
  refine ⟨fun t r ht => ?_, fun t r ht => ?_, fun t r source ht hs => ?_,
    fun o seq source payload ok hm => ?_⟩
  · exact (hresp t r ht).elim (hi.arrived t r) fun h => h.1
  · exact (hresp t r ht).elim (hi.overUdp t r) fun h => h.2.1
  · exact ((hresp t r ht).elim (fun h => hi.routed t r source h hs)
      fun h => h.2.2 source hs).append
  · rcases List.mem_append.mp hm with hm | hm
    · obtain ⟨t, sid, ha, hr⟩ := hi.forwarded o seq source payload ok hm
      exact ⟨t, sid, ha, hr.append⟩
    · exact absurd hm (hobs o seq source payload ok)

/-- Frame rule for a reader that goes on with its response. -/
theorem goto (hi : Receives A s tr) (cl : Client) {t : Responder} {r : Response}
    {pc : ResponsePc} (ht : s.responses t = some r) (hudp : pc ≠ .lookupAddr)
    (hpc : ∀ source, pc.source = some source → Routed tr t r.sessionId source)
    (hobs : ∀ o seq source payload ok, .forwarded o seq source payload ok ∉ obs) :
    Receives A ({ s with cl := cl }.setResponse t (some { r with pc := pc })) (tr ++ obs) := by
  refine hi.frame (fun t' r' ht' => ?_) hobs
  rcases responses_setResponse ht' with ⟨rfl, hset⟩ | hold
  · rw [← Option.some.inj hset]
    exact Or.inr ⟨hi.arrived t' r ht, fun h => absurd h hudp, hpc⟩
  · exact Or.inl hold

/-- Frame rule for a reader that drops its response. -/
theorem drop (hi : Receives A s tr) (cl : Client) {t : Responder}
    (hobs : ∀ o seq source payload ok, .forwarded o seq source payload ok ∉ obs) :
    Receives A ({ s with cl := cl }.setResponse t none) (tr ++ obs) := by
  refine hi.frame (fun t' r' ht' => ?_) hobs
  rcases responses_setResponse ht' with ⟨_, hset⟩ | hold
  · exact absurd hset (by simp)
  · exact Or.inl hold

/-- A response that has just come in. -/
theorem arrive (hi : Receives A s tr) (cl : Client) {t : Responder} {r : Response}
    (ha : A t (encodePacket r.sessionId r.seq r.payload))
    (hudp : r.pc = .lookupAddr → ∃ i, t = .udp i)
    (hr : ∀ source, r.pc.source = some source → Routed tr t r.sessionId source) :
    Receives A ({ s with cl := cl }.setResponse t (some r)) (tr ++ []) := by
  refine hi.frame (fun t' r' ht' => ?_) (fun _ _ _ _ _ => List.not_mem_nil)
  rcases responses_setResponse ht' with ⟨rfl, hset⟩ | hold
  · rw [← Option.some.inj hset]
    exact Or.inr ⟨ha, hudp, hr⟩
  · exact Or.inl hold

/-- The step lemma. -/
theorem act {e : Event} (hi : Receives A s tr) (hobj : Objects s tr) (hsend : Sends s tr)
    (ha : Act s e s' obs) (harr : ∀ t data, e.packet = some (t, data) → A t data) :
    Receives A s' (tr ++ obs) := by
  have hnil : ∀ o seq source payload ok, .forwarded o seq source payload ok ∉ ([] : List Obs) :=
    fun _ _ _ _ _ => List.not_mem_nil
  have hkeep : ∀ {t : Responder} {r : Response} {pc : ResponsePc}, s.responses t = some r →
      r.pc.source = pc.source → ∀ source, pc.source = some source →
        Routed tr t r.sessionId source :=
    fun ht hpc source hs => hi.routed _ _ source ht (hpc.trans hs)
  cases ha with
  | @udpArrives i data sid seq payload _ hdec =>
      refine hi.arrive s.cl ?_ (fun _ => ⟨i, rfl⟩) (fun _ h => absurd h (by simp [ResponsePc.source]))
      rw [encodePacket_decodePacket hdec]
      exact harr _ _ rfl
  | @frameEnds c data sid seq payload hpc _ hdec =>
      refine hi.arrive _ ?_ (fun h => absurd h (by simp)) (fun source h => ?_)
      · rw [encodePacket_decodePacket hdec]
        exact harr _ _ rfl
      · rw [← Option.some.inj h]
        exact hsend.readers c (by rw [hpc]; simp)
  | @addrHit t r source now b ht hpc haddr =>
      refine hi.goto s.cl ht (by simp) (fun source' h => ?_) hnil
      obtain ⟨i, rfl⟩ := hi.overUdp t r ht hpc
      rw [← Option.some.inj h]
      exact hobj.addrs r.sessionId source haddr
  | addrMiss _ _ _ => exact hi.drop s.cl hnil
  | sessionHit ht hpc _ => exact hi.goto s.cl ht (by simp) (hkeep ht (by rw [hpc]; rfl)) hnil
  | sessionMiss _ _ _ => exact hi.drop s.cl hnil
  | checkDup _ _ _ => exact hi.drop _ (fun _ _ _ _ _ h => absurd (List.mem_singleton.mp h) (by simp))
  | checkNew ht hpc _ =>
      exact hi.goto _ ht (by simp) (hkeep ht (by rw [hpc]; rfl))
        (fun _ _ _ _ _ h => absurd (List.mem_singleton.mp h) (by simp))
  | responseTouch ht hpc => exact hi.goto _ ht (by simp) (hkeep ht (by rw [hpc]; rfl)) hnil
  | @forward t r source o now b ht hpc =>
      refine ⟨fun t' r' ht' => ?_, fun t' r' ht' => ?_, fun t' r' source' ht' hs => ?_,
        fun o' seq' source' payload' ok hm => ?_⟩
      · rcases responses_setResponse ht' with ⟨_, hset⟩ | hold
        · exact absurd hset (by simp)
        · exact hi.arrived t' r' hold
      · rcases responses_setResponse ht' with ⟨_, hset⟩ | hold
        · exact absurd hset (by simp)
        · exact hi.overUdp t' r' hold
      · rcases responses_setResponse ht' with ⟨_, hset⟩ | hold
        · exact absurd hset (by simp)
        · exact (hi.routed t' r' source' hold hs).append
      · rcases List.mem_append.mp hm with hm | hm
        · obtain ⟨t', sid, ha, hr⟩ := hi.forwarded o' seq' source' payload' ok hm
          exact ⟨t', sid, ha, hr.append⟩
        · obtain ⟨_, rfl, rfl, rfl, _⟩ := Obs.forwarded.inj (List.mem_singleton.mp hm)
          exact ⟨t, r.sessionId, hi.arrived t r ht,
            (hi.routed t r source' ht (by rw [hpc]; rfl)).append⟩
  | @createNew h now random b b' _ _ _ =>
      exact hi.frame (fun _ _ h => Or.inl h)
        (fun _ _ _ _ _ h => absurd (List.mem_singleton.mp h) (by simp))
  | number _ _ =>
      exact hi.frame (fun _ _ h => Or.inl h)
        (fun _ _ _ _ _ h => absurd (List.mem_singleton.mp h) (by simp))
  | @udpSend h o seq i senders now random b b' _ _ =>
      refine hi.frame (fun _ _ h => Or.inl h) (fun _ _ _ _ _ h => ?_)
      cases b'
      · exact absurd h List.not_mem_nil
      · exact absurd (List.mem_singleton.mp h) (by simp)
  | @tcpSend h o seq c servers frame now random b b' _ _ _ =>
      refine hi.frame (fun _ _ h => Or.inl h) (fun _ _ _ _ _ h => ?_)
      cases b'
      · exact absurd h List.not_mem_nil
      · exact absurd (List.mem_singleton.mp h) (by simp)
  | tcpCreateNew _ _ _ =>
      exact hi.frame (fun _ _ h => Or.inl h)
        (fun _ _ _ _ _ h => absurd (List.mem_singleton.mp h) (by simp))
  | sourceSends _ =>
      exact hi.frame (fun _ _ h => Or.inl h)
        (fun _ _ _ _ _ h => absurd (List.mem_singleton.mp h) (by simp))
  | _ => exact hi.frame (fun _ _ h => Or.inl h) hnil

end Receives

end Fproxy.Client
