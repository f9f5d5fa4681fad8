import Fproxy.Client.SessionIds
import Fproxy.GoClient.Machine

/-!
# The session objects of the Go client

A session object keeps the id it was created with, and is used for its own source only.  What a
step does to the objects and to the tables that lead to them is one of three things.

* `SessionMove` — nothing but a removal, a creation, or one call of `IsDuplicate`;
  `sessionMove_of_act` — every step is one of these.
* `Owns` — a reference to an object that was created for a source.
* `Objects` — the invariant of the references and the windows; `objects_exec` — it holds after
  every run.
-/

namespace Fproxy.GoClient

open Fproxy.Runs Fproxy.DedupWindow
open Fproxy.Client (SessionObj SessionKey Responder Sending SendPc Obs Assigned allocateSessionId
  checks checks_append createdIds createdIds_append)

/-! ### What sections leave alone -/

/-- The UDP sessions are the same. -/
structure SameUdp (s s' : Client) : Prop where
  sessionIdCounter : s'.sessionIdCounter = s.sessionIdCounter
  heap : s'.heap = s.heap
  next : s'.next = s.next
  sources : s'.sources = s.sources
  udpSessions : s'.udpSessions = s.udpSessions
  udpSessionAddrs : s'.udpSessionAddrs = s.udpSessionAddrs

namespace SameUdp

theorem refl (s : Client) : SameUdp s s := ⟨rfl, rfl, rfl, rfl, rfl, rfl⟩

theorem createTcpSession (s : Client) (key : SessionKey) (now : ℕ) (connected : Bool) :
    SameUdp s (s.createTcpSession key now connected).1 := by
  unfold Client.createTcpSession
  split
  · exact refl s
  · split <;> exact ⟨rfl, rfl, rfl, rfl, rfl, rfl⟩

theorem touchStored (s : Client) (key : SessionKey) (now : ℕ) :
    SameUdp s (s.touchStored key now) := by
  unfold Client.touchStored
  split <;> exact ⟨rfl, rfl, rfl, rfl, rfl, rfl⟩

theorem expireTcp (s : Client) (now : ℕ) (key : SessionKey) : SameUdp s (s.expireTcp now key) := by
  unfold Client.expireTcp
  split
  · exact refl s
  · split <;> exact ⟨rfl, rfl, rfl, rfl, rfl, rfl⟩

end SameUdp

/-- A turn of the sweep over the UDP sessions leaves the objects alone. -/
theorem expireUdp_eq (s : Client) (now : ℕ) (source : SocketAddr) :
    s.expireUdp now source =
      { s with
        sources := (s.expireUdp now source).sources
        udpSessions := (s.expireUdp now source).udpSessions
        udpSessionAddrs := (s.expireUdp now source).udpSessionAddrs } := by
  unfold Client.expireUdp
  split
  · rfl
  · split <;> rfl

/-- What a sweep leaves in the tables was there. -/
theorem of_expireUdp {s : Client} {now : ℕ} {source : SocketAddr} :
    (∀ a o, (s.expireUdp now source).udpSessions a = some o → s.udpSessions a = some o) ∧
      ∀ sid a, (s.expireUdp now source).udpSessionAddrs sid = some a →
        s.udpSessionAddrs sid = some a := by
  unfold Client.expireUdp
  split
  · exact ⟨fun _ _ h => h, fun _ _ h => h⟩
  · split
    · refine ⟨fun a o h => ?_, fun sid a h => ?_⟩
      · by_cases he : a = source
        · rw [he] at h
          exact absurd h (by simp)
        · simpa [Function.update_of_ne he] using h
      · simp only [Function.update_apply] at h
        split at h
        · exact absurd h (by simp)
        · exact h
    · exact ⟨fun _ _ h => h, fun _ _ h => h⟩

/-! ### What a step does to the sessions -/

/-- One call on the sessions of the client. -/
inductive SessionMove (s s' : State) (obs : List Obs) : Prop
  /-- At most, sessions leave their tables. -/
  | quiet :
      s'.cl.sessionIdCounter = s.cl.sessionIdCounter → s'.cl.next = s.cl.next →
      (∀ o, (s'.cl.heap o).sessionId = (s.cl.heap o).sessionId) →
      (∀ o, (s'.cl.heap o).responseDedup = (s.cl.heap o).responseDedup) →
      (∀ a o, s'.cl.udpSessions a = some o → s.cl.udpSessions a = some o) →
      (∀ sid a, s'.cl.udpSessionAddrs sid = some a → s.cl.udpSessionAddrs sid = some a) →
      createdIds obs = [] → (∀ o, checks obs o = []) → SessionMove s s' obs
  | created {source : SocketAddr} {random : UInt32} {now : ℕ} :
      s.cl.udpSessions source = none → s'.cl = (s.cl.createUdpSession source random now).1 →
      obs = [.created s.cl.next (allocateSessionId s.cl.sessionIdCounter) source] →
      SessionMove s s' obs
  | checked {t : Responder} {r : Response} {source : SocketAddr} {o : SessionObj} {dup : Bool} :
      s.responses t = some r → r.pc = .check source o →
      (s.cl.checkResponse o r.seq).1 = dup → s'.cl = (s.cl.checkResponse o r.seq).2 →
      obs = [.checked o r.seq dup] → SessionMove s s' obs

theorem SessionMove.same {s s' : State} {obs : List Obs} (h : SameUdp s.cl s'.cl)
    (hids : createdIds obs = []) (hchecks : ∀ o, checks obs o = []) : SessionMove s s' obs :=
  .quiet h.sessionIdCounter h.next (fun o => by rw [h.heap]) (fun o => by rw [h.heap])
    (fun a o ho => by rwa [← h.udpSessions]) (fun sid a ha => by rwa [← h.udpSessionAddrs])
    hids hchecks

/-- A field of one object is written, other than its id and its window. -/
theorem SessionMove.write {s s' : State} {obs : List Obs} {o : SessionObj} {x : UDPSession}
    (hcl : s'.cl = { s.cl with heap := Function.update s.cl.heap o x })
    (hid : x.sessionId = (s.cl.heap o).sessionId)
    (hwin : x.responseDedup = (s.cl.heap o).responseDedup)
    (hids : createdIds obs = []) (hchecks : ∀ o, checks obs o = []) : SessionMove s s' obs := by
  refine .quiet ?_ ?_ (fun o' => ?_) (fun o' => ?_) (fun a o' ho => ?_) (fun sid a ha => ?_)
    hids hchecks
  · rw [hcl]
  · rw [hcl]
  · rw [hcl]
    by_cases he : o' = o
    · simp [he, hid]
    · simp [he]
  · rw [hcl]
    by_cases he : o' = o
    · simp [he, hwin]
    · simp [he]
  · rwa [hcl] at ho
  · rwa [hcl] at ha

/-- **Every step is one of these.** -/
theorem sessionMove_of_act {s s' : State} {e : Event} {obs : List Obs} (ha : Act s e s' obs) :
    SessionMove s s' obs := by
  have hsame : s'.cl = s.cl → createdIds obs = [] → (∀ o, checks obs o = []) →
      SessionMove s s' obs := by
    intro hcl
    exact .same (hcl ▸ SameUdp.refl s.cl)
  cases ha with
  | loop hcl _ _ _ => exact hsame hcl rfl fun _ => rfl
  | arrive _ _ _ hcl _ _ _ => exact hsame hcl rfl fun _ => rfl
  | createNew _ hnone => exact .created hnone rfl rfl
  | number _ _ => exact .write rfl rfl rfl rfl fun _ => rfl
  | touch _ _ => exact .write rfl rfl rfl rfl fun _ => rfl
  | @udpSend _ _ _ _ _ _ ok _ _ => cases ok <;> exact hsame rfl rfl fun _ => rfl
  | tcpCreateNew _ _ _ => exact .same (SameUdp.createTcpSession _ _ _ _) rfl fun _ => rfl
  | tcpTouch _ _ => exact .same ⟨rfl, rfl, rfl, rfl, rfl, rfl⟩ rfl fun _ => rfl
  | @tcpSend _ _ _ _ _ _ _ ok _ _ _ => cases ok <;> exact hsame rfl rfl fun _ => rfl
  | checkDup ht hpc hd => exact .checked ht hpc hd rfl rfl
  | checkNew ht hpc hd => exact .checked ht hpc hd rfl rfl
  | responseTouch _ _ => exact .write rfl rfl rfl rfl fun _ => rfl
  | responseTouchTcp _ _ => exact .same (SameUdp.touchStored _ _ _) rfl fun _ => rfl
  | remove _ _ => exact .same ⟨rfl, rfl, rfl, rfl, rfl, rfl⟩ rfl fun _ => rfl
  | close _ => exact .same ⟨rfl, rfl, rfl, rfl, rfl, rfl⟩ rfl fun _ => rfl
  | @expireUdp now source todo _ _ =>
      have heq := expireUdp_eq s.cl now source
      exact .quiet (by rw [heq]) (by rw [heq]) (fun _ => by rw [heq]) (fun _ => by rw [heq])
        of_expireUdp.1 of_expireUdp.2 rfl fun _ => rfl
  | expireTcp _ _ => exact .same (SameUdp.expireTcp _ _ _) rfl fun _ => rfl
  | closeAll _ _ => exact .same ⟨rfl, rfl, rfl, rfl, rfl, rfl⟩ rfl fun _ => rfl
  | _ => exact hsame rfl rfl fun _ => rfl

/-! ### References -/

/-- A reference to an object created for a source. -/
def Owns (cl : Client) (tr : List Obs) (source : SocketAddr) (o : SessionObj) : Prop :=
  o < cl.next ∧ .created o (cl.heap o).sessionId source ∈ tr

section Moves

variable {s s' : State} {obs tr : List Obs}

/-- The data of an object that exists. -/
theorem SessionMove.sessionId_eq (hm : SessionMove s s' obs) {o : SessionObj} (h : o < s.cl.next) :
    o < s'.cl.next ∧ (s'.cl.heap o).sessionId = (s.cl.heap o).sessionId := by
  cases hm with
  | quiet _ hnext hid _ _ _ _ _ => exact ⟨hnext ▸ h, hid o⟩
  | @created source random now hnone hcl _ =>
      rw [hcl]
      simp only [Client.createUdpSession, hnone]
      exact ⟨Nat.lt_succ_of_lt h, by rw [Function.update_of_ne (Nat.ne_of_lt h)]⟩
  | @checked t r source o' dup _ _ _ hcl _ =>
      rw [hcl]
      refine ⟨h, ?_⟩
      by_cases he : o = o' <;> simp [Client.checkResponse, he]

theorem Owns.move (h : Owns s.cl tr source o) (hm : SessionMove s s' obs) :
    Owns s'.cl (tr ++ obs) source o := by
  obtain ⟨hlt, hid⟩ := hm.sessionId_eq h.1
  refine ⟨hlt, ?_⟩
  rw [hid]
  exact List.mem_append_left _ h.2

/-- An object that has just been created. -/
theorem owns_created {source : SocketAddr} {random : UInt32} {now : ℕ}
    (hnone : s.cl.udpSessions source = none)
    (hcl : s'.cl = (s.cl.createUdpSession source random now).1)
    (hobs : obs = [.created s.cl.next (allocateSessionId s.cl.sessionIdCounter) source]) :
    Owns s'.cl (tr ++ obs) source s.cl.next := by
  rw [hcl, hobs]
  simp only [Client.createUdpSession, hnone]
  refine ⟨Nat.lt_succ_self _, List.mem_append_right _ ?_⟩
  simp [UDPSession.new]

end Moves

/-- The object a response is accounted to. -/
def ResponsePc.obj : ResponsePc → Option SessionObj
  | .lookupAddr => none
  | .findSession _ => none
  | .check _ o => some o
  | .touch _ o => some o
  | .touchTcp _ o => some o
  | .forward _ o => some o

@[simp] theorem afterTouch_obj (t : Responder) (source : SocketAddr) (o : SessionObj) :
    (afterTouch t source o).obj = some o := by
  cases t <;> rfl

theorem responses_setResponse {s : State} {t t' : Responder} {r' : Option Response}
    {r : Response} (ht : (s.setResponse t r').responses t' = some r) :
    t' = t ∧ r' = some r ∨ s.responses t' = some r := by
  by_cases he : t' = t
  · rw [he] at ht
    exact Or.inl ⟨he, by simpa [State.setResponse] using ht⟩
  · exact Or.inr (by simpa [State.setResponse, Function.update_of_ne he] using ht)

/-- What the datagram being sent refers to after a step: the object it referred to, or one that is
in the table for its source. -/
theorem sending_act {s s' : State} {e : Event} {obs : List Obs} (ha : Act s e s' obs)
    {h : Sending} {o : SessionObj} (hs : s'.sending = some h) (ho : h.pc.obj = some o) :
    (∃ h', s.sending = some h' ∧ h'.source = h.source ∧ h'.pc.obj = some o) ∨
      s'.cl.udpSessions h.source = some o := by
  cases ha with
  | loop _ hsend _ _ => exact Or.inl ⟨h, hsend ▸ hs, rfl, ho⟩
  | arrive _ _ _ _ hsend _ _ => exact Or.inl ⟨h, hsend ▸ hs, rfl, ho⟩
  | sourceSends _ =>
      rw [← Option.some.inj hs] at ho
      exact absurd ho (by simp [SendPc.obj])
  | goto ht hobj _ =>
      rw [← Option.some.inj hs] at ho ⊢
      exact Or.inl ⟨_, ht, rfl, hobj o ho⟩
  | found ht hsess =>
      rw [← Option.some.inj hs] at ho ⊢
      rw [← Option.some.inj ho]
      exact Or.inr hsess
  | createNew ht hnone =>
      rw [← Option.some.inj hs] at ho ⊢
      rw [← Option.some.inj ho]
      exact Or.inr (by simp [Client.createUdpSession, hnone])
  | number ht hpc | touch ht hpc | udpSend ht hpc | tcpCreateNew ht hpc _ | tcpTouch ht hpc
  | tcpSend ht hpc _ =>
      rw [← Option.some.inj hs] at ho ⊢
      exact Or.inl ⟨_, ht, rfl, by rw [hpc]; exact ho⟩
  | foundTcp ht hobj _ =>
      rw [← Option.some.inj hs] at ho ⊢
      exact Or.inl ⟨_, ht, rfl, by rw [hobj]; exact ho⟩
  | sent _ => exact absurd hs (by simp)
  | _ => exact Or.inl ⟨h, hs, rfl, ho⟩

/-- What a response being handled refers to after a step: the object it referred to, or a session
in the table with its id. -/
theorem responses_act {s s' : State} {e : Event} {obs : List Obs} (ha : Act s e s' obs)
    {t : Responder} {r : Response} {o : SessionObj} (ht : s'.responses t = some r)
    (ho : r.pc.obj = some o) :
    (∃ r', s.responses t = some r' ∧ r'.sessionId = r.sessionId ∧ r'.pc.obj = some o) ∨
      ∃ source, s.cl.udpSessions source = some o ∧ (s.cl.heap o).sessionId = r.sessionId := by
  have hset : ∀ {cl : Client} {t' : Responder} {r' : Response} {o' : SessionObj}
      {pc : ResponsePc}, s.responses t' = some r' → r'.pc.obj = some o' → pc.obj = some o' →
      ({ s with cl := cl }.setResponse t' (some { r' with pc := pc })).responses t = some r →
      ∃ r₁, s.responses t = some r₁ ∧ r₁.sessionId = r.sessionId ∧ r₁.pc.obj = some o := by
    intro cl t' r' o' pc hr' ho' hpc hr
    rcases responses_setResponse hr with ⟨rfl, he⟩ | hold
    · rw [← Option.some.inj he] at ho ⊢
      exact ⟨r', hr', rfl, by rw [ho', ← ho, ← hpc]⟩
    · exact ⟨r, hold, rfl, ho⟩
  have hgone : ∀ {cl : Client} {t' : Responder},
      ({ s with cl := cl }.setResponse t' none).responses t = some r →
      ∃ r₁, s.responses t = some r₁ ∧ r₁.sessionId = r.sessionId ∧ r₁.pc.obj = some o := by
    intro cl t' hr
    rcases responses_setResponse hr with ⟨-, he⟩ | hold
    · exact absurd he (by simp)
    · exact ⟨r, hold, rfl, ho⟩
  cases ha with
  | loop _ _ hresp _ => exact Or.inl ⟨r, hresp ▸ ht, rfl, ho⟩
  | arrive _ _ _ _ _ hresp _ =>
      rw [hresp, Function.update_apply] at ht
      split at ht
      · rw [← Option.some.inj ht] at ho
        exact absurd ho (by simp [ResponsePc.obj])
      · exact Or.inl ⟨r, ht, rfl, ho⟩
  | addrHit hr hpc _ =>
      rcases responses_setResponse ht with ⟨rfl, he⟩ | hold
      · rw [← Option.some.inj he] at ho
        exact absurd ho (by simp [ResponsePc.obj])
      · exact Or.inl ⟨r, hold, rfl, ho⟩
  | sessionHit hr hpc hsess hid =>
      rcases responses_setResponse ht with ⟨rfl, he⟩ | hold
      · rw [← Option.some.inj he] at ho ⊢
        obtain rfl := Option.some.inj ho
        exact Or.inr ⟨_, hsess, hid⟩
      · exact Or.inl ⟨r, hold, rfl, ho⟩
  | drop _ _ => exact Or.inl (@hgone s.cl _ ht)
  | checkDup _ _ _ => exact Or.inl (hgone ht)
  | checkNew hr hpc _ => exact Or.inl (hset hr (by rw [hpc]; rfl) rfl ht)
  | responseTouch hr hpc => exact Or.inl (hset hr (by rw [hpc]; rfl) (afterTouch_obj _ _ _) ht)
  | responseTouchTcp hr hpc => exact Or.inl (hset hr (by rw [hpc]; rfl) rfl ht)
  | responseGoto hr hpc => exact Or.inl (@hset s.cl _ _ _ _ hr (by rw [hpc]; rfl) rfl ht)
  | forward _ _ => exact Or.inl (@hgone s.cl _ ht)
  | _ => exact Or.inl ⟨r, ht, rfl, ho⟩

/-! ### The invariant -/

/-- What the references and the windows satisfy along every run. -/
structure Objects (s : State) (tr : List Obs) : Prop where
  sessions : ∀ source o, s.cl.udpSessions source = some o → Owns s.cl tr source o
  addrs : ∀ sid source, s.cl.udpSessionAddrs sid = some source → Assigned tr sid source
  sending : ∀ h o, s.sending = some h → h.pc.obj = some o → Owns s.cl tr h.source o
  responses : ∀ t r o, s.responses t = some r → r.pc.obj = some o →
    (s.cl.heap o).sessionId = r.sessionId ∧ ∃ source, Owns s.cl tr source o
  fresh : ∀ o, s.cl.next ≤ o → checks tr o = []
  tracks : ∀ o, GoTracks (s.cl.heap o).responseDedup (checks tr o)

namespace Objects

variable {s s' : State} {tr obs : List Obs}

/-- The sessions in the table after a step. -/
theorem sessions_move (hi : Objects s tr) (hm : SessionMove s s' obs) {source : SocketAddr}
    {o : SessionObj} (ho : s'.cl.udpSessions source = some o) :
    Owns s'.cl (tr ++ obs) source o := by
  cases hm with
  | quiet hc hnext hid hwin hsess haddr hids hchecks =>
      exact (hi.sessions source o (hsess source o ho)).move
        (.quiet hc hnext hid hwin hsess haddr hids hchecks)
  | @created source' random now hnone hcl hobs =>
      have hnew : Owns s'.cl (tr ++ obs) source' s.cl.next := owns_created hnone hcl hobs
      rw [hcl] at ho
      simp only [Client.createUdpSession, hnone, Function.update_apply] at ho
      split at ho
      · next he =>
          rw [he, ← Option.some.inj ho]
          exact hnew
      · exact (hi.sessions source o ho).move (.created hnone hcl hobs)
  | checked hr hpc hd hcl hobs =>
      rw [hcl] at ho
      exact (hi.sessions source o ho).move (.checked hr hpc hd hcl hobs)

/-- The reverse map after a step. -/
theorem addrs_move (hi : Objects s tr) (hm : SessionMove s s' obs) {sid : UInt64}
    {source : SocketAddr} (ha : s'.cl.udpSessionAddrs sid = some source) :
    Assigned (tr ++ obs) sid source := by
  cases hm with
  | quiet _ _ _ _ _ haddr _ _ => exact (hi.addrs sid source (haddr sid source ha)).append
  | @created source' random now hnone hcl hobs =>
      rw [hcl] at ha
      simp only [Client.createUdpSession, hnone, Function.update_apply] at ha
      split at ha
      · next he =>
          rw [he, ← Option.some.inj ha, hobs]
          exact ⟨_, List.mem_append_right _ (List.mem_singleton_self _)⟩
      · exact (hi.addrs sid source ha).append
  | checked _ _ _ hcl _ =>
      rw [hcl] at ha
      exact (hi.addrs sid source ha).append

/-- The windows after a step. -/
theorem windows_move (hi : Objects s tr) (hm : SessionMove s s' obs) :
    (∀ o, s'.cl.next ≤ o → checks (tr ++ obs) o = []) ∧
      ∀ o, GoTracks (s'.cl.heap o).responseDedup (checks (tr ++ obs) o) := by
  cases hm with
  | quiet _ hnext _ hwin _ _ _ hchecks =>
      refine ⟨fun o h => ?_, fun o => ?_⟩
      · rw [checks_append, hi.fresh o (hnext ▸ h), hchecks, List.append_nil]
      · rw [checks_append, hchecks, List.append_nil, hwin]
        exact hi.tracks o
  | @created source random now hnone hcl hobs =>
      have hnone' : ∀ o, checks obs o = [] := fun o => by rw [hobs]; rfl
      rw [hcl]
      simp only [Client.createUdpSession, hnone]
      refine ⟨fun o h => ?_, fun o => ?_⟩
      · rw [checks_append, hi.fresh o (Nat.le_of_succ_le h), hnone', List.append_nil]
      · rw [checks_append, hnone', List.append_nil, Function.update_apply]
        split
        · next he =>
            rw [he, hi.fresh _ (le_refl _)]
            exact goTracks_new (by decide) (by decide)
        · exact hi.tracks o
  | @checked t r source o' dup hr hpc hd hcl hobs =>
      have hown := (hi.responses t r o' hr (by rw [hpc]; rfl)).2.elim fun _ h => h.1
      rw [hcl, hobs]
      refine ⟨fun o h => ?_, fun o => ?_⟩
      · have hne : o' ≠ o := fun he => absurd hown (by rw [he]; exact Nat.not_lt.mpr h)
        rw [checks_append, hi.fresh o h]
        simp [checks, hne]
      · rw [checks_append]
        by_cases he : o = o'
        · subst he
          have hstep := (hi.tracks o).isDuplicate r.seq
          rw [show ((s.cl.heap o).responseDedup.isDuplicate r.seq).1 = dup from hd] at hstep
          simpa [checks, Client.checkResponse] using hstep
        · have hne : o' ≠ o := fun h => he h.symm
          simpa [checks, Client.checkResponse, he, hne] using hi.tracks o

/-- The step lemma. -/
theorem act {e : Event} (hi : Objects s tr) (ha : Act s e s' obs) : Objects s' (tr ++ obs) := by
  have hm := sessionMove_of_act ha
  refine ⟨fun source o => hi.sessions_move hm, fun sid source => hi.addrs_move hm,
    fun h o hs ho => ?_, fun t r o ht ho => ?_, (hi.windows_move hm).1, (hi.windows_move hm).2⟩
  · rcases sending_act ha hs ho with ⟨h', hs', hsource, ho'⟩ | hsess
    · rw [← hsource]
      exact (hi.sending h' o hs' ho').move hm
    · exact hi.sessions_move hm hsess
  · rcases responses_act ha ht ho with ⟨r', hr', hid, ho'⟩ | ⟨source, hsess, hid⟩
    · obtain ⟨hsid, source, hown⟩ := hi.responses t r' o hr' ho'
      exact ⟨(hm.sessionId_eq hown.1).2.trans (hsid.trans hid), source, hown.move hm⟩
    · have hown := hi.sessions source o hsess
      exact ⟨(hm.sessionId_eq hown.1).2.trans hid, source, hown.move hm⟩

end Objects

/-- The run lemma. -/
theorem objects_exec {cfg : ClientConfig} {counter : UInt64} {es : List Event} {s : State}
    {tr : List Obs} (hrun : (machine cfg counter).exec es = some (s, tr)) : Objects s tr :=
  Machine.invariant (I := Objects) _
    ⟨fun _ _ h => absurd h (by simp [machine, new]), fun _ _ h => absurd h (by simp [machine, new]),
      fun _ _ h => absurd h (by simp [machine]), fun _ _ _ h => absurd h (by simp [machine]),
      fun _ _ => rfl, fun _ => goTracks_new (by decide) (by decide)⟩
    (fun _ _ _ _ _ hi hs => hi.act (act_of_machine hs)) hrun

end Fproxy.GoClient
