import Fproxy.GoClient.Mapping

/-!
# Which session a response of the Go client is accounted to

`handleUDPServerResponse` and `handleTCPServerResponse` both look a response up by the id in it: its
source in one table, its session in the other.  A session that a goroutine has found may leave the
tables before the goroutine is done with it.

* `Receives A` — the invariant, relative to a predicate `A` on the packets that arrive;
  `Receives.act` — the step lemma.
* `Event.WorksOn`, `heap_of_act` — whose traffic changes a session object.
* `responses_reach_their_source` — the result: over UDP and over TCP alike, a response is accounted
  to the session its id was assigned to, and goes to that session's source.
-/

namespace Fproxy.GoClient

open Fproxy.Protocol Fproxy.Runs
open Fproxy.Client (SessionObj Responder Obs Assigned allocateSessionId createdIds created_unique)

/-- The source a response is to be forwarded to. -/
def ResponsePc.source : ResponsePc → Option SocketAddr
  | .lookupAddr => none
  | .findSession source => some source
  | .check source _ => some source
  | .touch source _ => some source
  | .touchTcp source _ => some source
  | .forward source _ => some source

@[simp] theorem afterTouch_source (t : Responder) (source : SocketAddr) (o : SessionObj) :
    (afterTouch t source o).source = some source := by
  cases t <;> rfl

/-- Every response in hand, looked up or sent on came in as a packet that satisfies `A`, is
accounted to an object created with its id, and goes to a source its id was assigned to. -/
structure Receives (A : Responder → List UInt8 → Prop) (s : State) (tr : List Obs) : Prop where
  arrived : ∀ t r, s.responses t = some r → A t (encodePacket r.sessionId r.seq r.payload)
  routed : ∀ t r source, s.responses t = some r → r.pc.source = some source →
    Assigned tr r.sessionId source
  consulted : ∀ o seq dup, .checked o seq dup ∈ tr → ∃ t sid payload source,
    A t (encodePacket sid seq payload) ∧ .created o sid source ∈ tr
  forwarded : ∀ o seq source payload ok, .forwarded o seq source payload ok ∈ tr → ∃ t sid a,
    A t (encodePacket sid seq payload) ∧ .created o sid a ∈ tr ∧ Assigned tr sid source

/-- What comes in from a server or goes to a source. -/
def ofResponse : Obs → Bool
  | .checked _ _ _ => true
  | .forwarded _ _ _ _ _ => true
  | _ => false

namespace Receives

variable {A A' : Responder → List UInt8 → Prop} {s s' : State} {tr obs : List Obs}

theorem mono (hi : Receives A s tr) (h : ∀ t data, A t data → A' t data) : Receives A' s tr where
  arrived := fun t r ht => h _ _ (hi.arrived t r ht)
  routed := hi.routed
  consulted := fun o seq dup hm => by
    obtain ⟨t, sid, payload, source, ha, hc⟩ := hi.consulted o seq dup hm
    exact ⟨t, sid, payload, source, h _ _ ha, hc⟩
  forwarded := fun o seq source payload ok hm => by
    obtain ⟨t, sid, a, ha, hc, hs⟩ := hi.forwarded o seq source payload ok hm
    exact ⟨t, sid, a, h _ _ ha, hc, hs⟩

/-- Frame rule: what a move does to the responses in hand, and what it says. -/
theorem frame (hi : Receives A s tr)
    (hresp : ∀ t r, s'.responses t = some r → s.responses t = some r ∨
      A t (encodePacket r.sessionId r.seq r.payload) ∧
        ∀ source, r.pc.source = some source → Assigned tr r.sessionId source)
    (hcons : ∀ o seq dup, .checked o seq dup ∈ obs → ∃ t sid payload source,
      A t (encodePacket sid seq payload) ∧ .created o sid source ∈ tr)
    (hfwd : ∀ o seq source payload ok, .forwarded o seq source payload ok ∈ obs → ∃ t sid a,
      A t (encodePacket sid seq payload) ∧ .created o sid a ∈ tr ∧ Assigned tr sid source) :
    Receives A s' (tr ++ obs) := by
  refine ⟨fun t r ht => ?_, fun t r source ht hs => ?_, fun o seq dup hm => ?_,
    fun o seq source payload ok hm => ?_⟩
  · exact (hresp t r ht).elim (hi.arrived t r) fun h => h.1
  · exact ((hresp t r ht).elim (fun h => hi.routed t r source h hs)
      fun h => h.2 source hs).append
  · obtain ⟨t, sid, payload, source, ha, hc⟩ :=
      (List.mem_append.mp hm).elim (hi.consulted o seq dup) (hcons o seq dup)
    exact ⟨t, sid, payload, source, ha, List.mem_append_left _ hc⟩
  · obtain ⟨t, sid, a, ha, hc, hs⟩ := (List.mem_append.mp hm).elim
      (hi.forwarded o seq source payload ok) (hfwd o seq source payload ok)
    exact ⟨t, sid, a, ha, List.mem_append_left _ hc, hs.append⟩

/-- Frame rule for the moves that no response is part of. -/
theorem frameOther (hi : Receives A s tr) (hresp : s'.responses = s.responses)
    (hobs : ∀ x ∈ obs, ofResponse x = false) : Receives A s' (tr ++ obs) :=
  hi.frame (fun _ _ ht => Or.inl (hresp ▸ ht))
    (fun _ _ _ hm => absurd (hobs _ hm) (by simp [ofResponse]))
    (fun _ _ _ _ _ hm => absurd (hobs _ hm) (by simp [ofResponse]))

/-- Frame rule for a goroutine that goes on with its response, silently. -/
theorem goto (hi : Receives A s tr) (cl : Client) {t : Responder} {r : Response}
    {pc : ResponsePc} (ht : s.responses t = some r)
    (hpc : ∀ source, pc.source = some source → Assigned tr r.sessionId source) :
    Receives A ({ s with cl := cl }.setResponse t (some { r with pc := pc })) (tr ++ []) := by
  refine hi.frame (fun t' r' ht' => ?_) (fun _ _ _ hm => absurd hm List.not_mem_nil)
    (fun _ _ _ _ _ hm => absurd hm List.not_mem_nil)
  rcases responses_setResponse ht' with ⟨rfl, hset⟩ | hold
  · rw [← Option.some.inj hset]
    exact Or.inr ⟨hi.arrived t' r ht, hpc⟩
  · exact Or.inl hold

/-- The packet a verdict is about. -/
theorem of_checked (hi : Receives A s tr) (hobj : Objects s tr) {t : Responder} {r : Response}
    {o : SessionObj} (ht : s.responses t = some r) (ho : r.pc.obj = some o) :
    ∃ source, A t (encodePacket r.sessionId r.seq r.payload) ∧
      .created o r.sessionId source ∈ tr := by
  obtain ⟨hid, source, -, hown⟩ := hobj.responses t r o ht ho
  rw [hid] at hown
  exact ⟨source, hi.arrived t r ht, hown⟩

/-- The step lemma. -/
theorem act {e : Event} (hi : Receives A s tr) (hobj : Objects s tr) (ha : Act s e s' obs)
    (harr : ∀ t data, e.packet = some (t, data) → A t data) : Receives A s' (tr ++ obs) := by
  have hnil : ∀ x ∈ ([] : List Obs), ofResponse x = false := fun _ h => absurd h List.not_mem_nil
  have hone : ∀ {x : Obs}, ofResponse x = false → ∀ y ∈ [x], ofResponse y = false := by
    intro x hx y hy
    rw [List.mem_singleton.mp hy]
    exact hx
  have hkeep : ∀ {t : Responder} {r : Response} {pc : ResponsePc}, s.responses t = some r →
      r.pc.source = pc.source → ∀ source, pc.source = some source →
        Assigned tr r.sessionId source := by
    intro t r pc ht hpc source hs
    exact hi.routed t r source ht (hpc.trans hs)
  -- the goroutine consults the window, and may drop the response
  have hcheck : ∀ {t : Responder} {r : Response} {source : SocketAddr} {o : SessionObj}
      {cl : Client} {r' : Option Response} {dup : Bool}, s.responses t = some r →
      r.pc = .check source o → (∀ r₁, r' = some r₁ → r₁ = { r with pc := .touch source o }) →
      Receives A ({ s with cl := cl }.setResponse t r') (tr ++ [Obs.checked o r.seq dup]) := by
    intro t r source o cl r' dup ht hpc hr'
    refine hi.frame (fun t₁ r₁ ht₁ => ?_) (fun o' seq' dup' hm => ?_)
      (fun _ _ _ _ _ hm => absurd (List.mem_singleton.mp hm) (by simp))
    · rcases responses_setResponse ht₁ with ⟨rfl, hset⟩ | hold
      · rw [hr' r₁ hset]
        exact Or.inr ⟨hi.arrived t₁ r ht, hkeep (r := r) ht (by rw [hpc]; rfl)⟩
      · exact Or.inl hold
    · obtain ⟨rfl, rfl, -⟩ := Obs.checked.inj (List.mem_singleton.mp hm)
      obtain ⟨a, ha, hc⟩ := hi.of_checked hobj ht (by rw [hpc]; rfl)
      exact ⟨t, r.sessionId, r.payload, a, ha, hc⟩
  cases ha with
  | loop _ _ hresp _ => exact hi.frameOther hresp hnil
  | @arrive _ _ t data sid seq payload he hidle hdec _ _ hresp _ =>
      refine hi.frame (fun t' r' ht' => ?_) (fun _ _ _ hm => absurd hm List.not_mem_nil)
        (fun _ _ _ _ _ hm => absurd hm List.not_mem_nil)
      rw [hresp, Function.update_apply] at ht'
      split at ht'
      · next het =>
          rw [← Option.some.inj ht', het]
          refine Or.inr ⟨?_, fun source h => absurd h (by simp [ResponsePc.source])⟩
          rw [encodePacket_decodePacket hdec]
          exact harr t data he
      · exact Or.inl ht'
  | addrHit ht hpc haddr =>
      refine hi.goto s.cl ht fun source' h => ?_
      rw [← Option.some.inj h]
      exact hobj.addrs _ _ haddr
  | sessionHit ht hpc _ _ => exact hi.goto s.cl ht (hkeep ht (by rw [hpc]; rfl))
  | drop _ _ =>
      refine hi.frame (fun t' r' ht' => ?_) (fun _ _ _ hm => absurd hm List.not_mem_nil)
        (fun _ _ _ _ _ hm => absurd hm List.not_mem_nil)
      rcases responses_setResponse ht' with ⟨-, hset⟩ | hold
      · exact absurd hset (by simp)
      · exact Or.inl hold
  | checkDup ht hpc _ => exact hcheck ht hpc fun _ h => absurd h (by simp)
  | checkNew ht hpc _ => exact hcheck ht hpc fun _ h => (Option.some.inj h).symm
  | responseTouch ht hpc => exact hi.goto _ ht (hkeep ht (by rw [hpc, afterTouch_source]; rfl))
  | responseTouchTcp ht hpc => exact hi.goto _ ht (hkeep ht (by rw [hpc]; rfl))
  | responseGoto ht hpc => exact hi.goto s.cl ht (hkeep ht (by rw [hpc]; rfl))
  | @forward t r source o e ok ht hpc =>
      refine hi.frame (fun t' r' ht' => ?_)
        (fun _ _ _ hm => absurd (List.mem_singleton.mp hm) (by simp))
        (fun o' seq' source' payload' ok' hm => ?_)
      · rcases responses_setResponse ht' with ⟨-, hset⟩ | hold
        · exact absurd hset (by simp)
        · exact Or.inl hold
      · obtain ⟨rfl, rfl, rfl, rfl, -⟩ := Obs.forwarded.inj (List.mem_singleton.mp hm)
        obtain ⟨a, ha, hc⟩ := hi.of_checked hobj ht (by rw [hpc]; rfl)
        exact ⟨t, r.sessionId, a, ha, hc, hi.routed t r source' ht (by rw [hpc]; rfl)⟩
  | sourceSends _ => exact hi.frameOther rfl (hone rfl)
  | createNew _ _ => exact hi.frameOther rfl (hone rfl)
  | number _ _ => exact hi.frameOther rfl (hone rfl)
  | @udpSend _ _ _ _ _ _ ok _ _ =>
      cases ok
      · exact hi.frameOther rfl hnil
      · exact hi.frameOther rfl (hone rfl)
  | tcpCreateNew _ _ _ => exact hi.frameOther rfl (hone rfl)
  | @tcpSend _ _ _ _ _ _ _ ok _ _ _ =>
      cases ok
      · exact hi.frameOther rfl hnil
      · exact hi.frameOther rfl (hone rfl)
  | _ => exact hi.frameOther rfl hnil

end Receives

/-- The run lemma, for the packets that the events of the run bring in. -/
theorem receives_exec {cfg : ClientConfig} {counter : UInt64} {es : List Event} {s : State}
    {tr : List Obs} (hrun : (machine cfg counter).exec es = some (s, tr)) :
    Receives (fun t data => ∃ e ∈ es, e.packet = some (t, data)) s tr := by
  refine Machine.exec_induction
    (P := fun es s tr => Receives (fun t data => ∃ e ∈ es, e.packet = some (t, data)) s tr) _
    ⟨fun _ _ h => absurd h (by simp [machine]), fun _ _ _ h => absurd h (by simp [machine]),
      fun _ _ _ h => absurd h List.not_mem_nil, fun _ _ _ _ _ h => absurd h List.not_mem_nil⟩
    (fun es s tr e s' obs hexec ih hs => ?_) es s tr hrun
  have hmono : Receives (fun t data => ∃ e' ∈ es ++ [e], e'.packet = some (t, data)) s tr := by
    refine ih.mono fun t data h => ?_
    obtain ⟨e', hm, he⟩ := h
    exact ⟨e', List.mem_append_left _ hm, he⟩
  refine hmono.act (objects_exec hexec) (act_of_machine hs) fun t data he => ?_
  exact ⟨e, List.mem_append_right _ (List.mem_singleton_self _), he⟩

/-! ### Whose traffic changes a session -/

/-- The event is a step of the listener, which has the object in hand, or a step for a response that
was found to belong to it. -/
def Event.WorksOn (e : Event) (s : State) (o : SessionObj) : Prop :=
  match e with
  | .listener _ _ _ _ => ∃ h, s.sending = some h ∧ h.pc.obj = some o
  | .responder t _ _ _ => ∃ r, s.responses t = some r ∧ r.pc.obj = some o
  | _ => False

/-- A step changes no object but the one it works on. -/
theorem heap_of_act {s s' : State} {e : Event} {obs : List Obs} (ha : Act s e s' obs)
    {o : SessionObj} (hlt : o < s.cl.next) (hne : s'.cl.heap o ≠ s.cl.heap o) : e.WorksOn s o := by
  have hwrite : ∀ {o' : SessionObj} {x : UDPSession},
      Function.update s.cl.heap o' x o ≠ s.cl.heap o → o' = o := by
    intro o' x h
    by_contra hc
    exact h (Function.update_of_ne (fun he => hc he.symm) _ _)
  have hsame : ∀ {cl : Client}, SameUdp s.cl cl → cl.heap o ≠ s.cl.heap o → e.WorksOn s o := by
    intro cl h hn
    exact absurd (by rw [h.heap]) hn
  cases ha with
  | loop hcl _ _ _ => exact absurd (by rw [hcl]) hne
  | arrive _ _ _ hcl _ _ _ => exact absurd (by rw [hcl]) hne
  | @createNew h now random b b' _ hnone =>
      simp only [Client.createUdpSession, hnone] at hne
      exact absurd (hwrite hne) (Nat.ne_of_gt hlt)
  | number ht hpc =>
      obtain rfl := hwrite hne
      exact ⟨_, ht, by rw [hpc]; rfl⟩
  | touch ht hpc =>
      obtain rfl := hwrite hne
      exact ⟨_, ht, by rw [hpc]; rfl⟩
  | tcpCreateNew _ _ _ => exact hsame (.createTcpSession _ _ _ _) hne
  | checkDup ht hpc _ =>
      obtain rfl := hwrite hne
      exact ⟨_, ht, by rw [hpc]; rfl⟩
  | checkNew ht hpc _ =>
      obtain rfl := hwrite hne
      exact ⟨_, ht, by rw [hpc]; rfl⟩
  | responseTouch ht hpc =>
      obtain rfl := hwrite hne
      exact ⟨_, ht, by rw [hpc]; rfl⟩
  | responseTouchTcp _ _ => exact hsame (.touchStored _ _ _) hne
  | @expireUdp now source todo _ _ => exact absurd (by rw [expireUdp_eq s.cl now source]) hne
  | expireTcp _ _ => exact hsame (.expireTcp _ _ _) hne
  | _ => exact absurd rfl hne

/-- **A response reaches the source of its own session.**  In every run of the Go client that
assigns at most `2^64 - 1` ids, whatever is sent to it and however its goroutines and its sweeps
interleave: a window is consulted for a packet only if the packet carries the id its session was
created with; a response that is forwarded carries such an id too, goes to the source that the id
was assigned to, and belongs to no other session; and from every state reached, a step that changes
a session object is a step of the listener with a datagram of its own source, or of the goroutine
that has a response with its own id. -/
theorem responses_reach_their_source (cfg : ClientConfig) (counter : UInt64) (es : List Event)
    {s : State} {tr : List Obs} (hrun : (machine cfg counter).exec es = some (s, tr))
    (hlen : (createdIds tr).length ≤ 2 ^ 64 - 1) :
    (∀ o seq dup, .checked o seq dup ∈ tr → ∃ e ∈ es, ∃ t sid payload source,
      e.packet = some (t, encodePacket sid seq payload) ∧ .created o sid source ∈ tr) ∧
    (∀ o seq source payload ok, .forwarded o seq source payload ok ∈ tr → ∃ e ∈ es, ∃ t sid,
      e.packet = some (t, encodePacket sid seq payload) ∧ .created o sid source ∈ tr ∧
      ∀ o' source', .created o' sid source' ∈ tr → o' = o ∧ source' = source) ∧
    ∀ e s' obs, (machine cfg counter).step s e = some (s', obs) →
      ∀ o < s.cl.next, s'.cl.heap o ≠ s.cl.heap o →
        (∃ now random b b' h, e = .listener now random b b' ∧ s.sending = some h ∧
          .created o (s.cl.heap o).sessionId h.source ∈ tr) ∨
        ∃ t now order b r, e = .responder t now order b ∧ s.responses t = some r ∧
          r.sessionId = (s.cl.heap o).sessionId := by
  have hnodup := nodup_exec hrun (by omega)
  have hrecv := receives_exec hrun
  have hobj := objects_exec hrun
  refine ⟨fun o seq dup hm => ?_, fun o seq source payload ok hm => ?_,
    fun e s' obs hs o hlt hne => ?_⟩
  · obtain ⟨t, sid, payload, source, ⟨e, he, hp⟩, hc⟩ := hrecv.consulted o seq dup hm
    exact ⟨e, he, t, sid, payload, source, hp, hc⟩
  · obtain ⟨t, sid, a, ⟨e, he, hp⟩, hc, o', hc'⟩ := hrecv.forwarded o seq source payload ok hm
    obtain ⟨-, rfl⟩ := created_unique hnodup hc hc'
    exact ⟨e, he, t, sid, hp, hc, fun o₁ source₁ h₁ => created_unique hnodup h₁ hc⟩
  · have hworks := heap_of_act (act_of_machine hs) hlt hne
    cases e with
    | listener now random b b' =>
        obtain ⟨h, hsend, ho⟩ := hworks
        exact Or.inl ⟨now, random, b, b', h, rfl, hsend, (hobj.sending h o hsend ho).2⟩
    | responder t now order b =>
        obtain ⟨r, ht, ho⟩ := hworks
        exact Or.inr ⟨t, now, order, b, r, rfl, ht, ((hobj.responses t r o ht ho).1).symm⟩
    | _ => exact absurd hworks id

/-- A response to a datagram comes in on a connection, and the session expires after the response
has found it. -/
def expiresInHand : List Event :=
  sendDatagram demoAddr 10 11 ++
    ([.readerSelect 0, .lengthRead 0 13, .bodyRead 0 (encodePacket 1 0 [2]),
      .responder (.tcp 0) 20 [demoAddr] true, .responder (.tcp 0) 20 [demoAddr] true,
      .tick 75, .sweepSource demoAddr, .sweepOn] : List Event) ++
    List.replicate 4 (Event.responder (.tcp 0) 76 [] true)

/-- The response still goes to the source of its session. -/
theorem responses_reach_their_source_expired :
    ∃ s tr, (machine demoConfig 0).exec expiresInHand = some (s, tr) ∧
      s.cl.udpSessions demoAddr = none ∧ .forwarded 0 0 demoAddr [2] true ∈ tr ∧
      ∃ e ∈ expiresInHand, ∃ t sid, e.packet = some (t, encodePacket sid 0 [2]) ∧
        .created 0 sid demoAddr ∈ tr ∧
        ∀ o' source', .created o' sid source' ∈ tr → o' = 0 ∧ source' = demoAddr := by
  have hview : ((machine demoConfig 0).exec expiresInHand).map
      (fun r => ((createdIds r.2).length, decide (r.1.cl.udpSessions demoAddr = none),
        decide (.forwarded 0 0 demoAddr [2] true ∈ r.2))) = some (1, true, true) := by decide
  obtain ⟨⟨s, tr⟩, hrun, hv⟩ := Option.map_eq_some_iff.mp hview
  simp only [Prod.mk.injEq, decide_eq_true_eq] at hv
  obtain ⟨hlen, hgone, hfwd⟩ := hv
  have hreach := responses_reach_their_source demoConfig 0 expiresInHand hrun (by omega)
  exact ⟨s, tr, hrun, hgone, hfwd, hreach.2.1 _ _ _ _ _ hfwd⟩

end Fproxy.GoClient
