import Fproxy.Client.Objects

/-!
# Which session a response is accounted to

Over UDP a response finds its session through its own id: id to source, source to session.  Over
TCP the id in the packet is not looked at: the session is the one the source of the connection has
now.  Both handlers then hold on to the object they found, whatever happens to the tables.

* `AccountsToOwn` — what one section of a response handler may consult, change and send, if only
  the live session with the id of the response is accounted.
* `Loyal` — the condition on a step: a lookup finds no session with another id, and a sweep
  removes no session that a handler holds.
* `responses_accounted_to_own` — in every run whose steps all meet the condition, every response
  is accounted to its own session only.
* `stale_response_in_successor` — a response of an expired session on a connection that outlived
  it.
-/

namespace Fproxy.Client

open Fproxy.Runs

/-- The object is the live session with this id, and belongs to this source. -/
def Live (cl : Client) (sid : UInt64) (source : SocketAddr) (o : SessionObj) : Prop :=
  cl.udpSessions source = some o ∧ (cl.heap o).sessionId = sid

/-- A section that handles a response with this id consults and changes no window and no activity
timestamp but those of the live session with the id, and sends only to that session's source. -/
structure AccountsToOwn (s s' : State) (obs : List Obs) (sid : UInt64) : Prop where
  consulted : ∀ o seq dup, .checked o seq dup ∈ obs → ∃ source, Live s.cl sid source o
  window : ∀ o, (s'.cl.heap o).responseDedup ≠ (s.cl.heap o).responseDedup →
    ∃ source, Live s.cl sid source o
  activity : ∀ o, (s'.cl.heap o).lastActivity ≠ (s.cl.heap o).lastActivity →
    ∃ source, Live s.cl sid source o
  sent : ∀ o seq source payload ok, .forwarded o seq source payload ok ∈ obs →
    Live s.cl sid source o

/-- In every section of a response handler along the run the response is accounted to its own
session. -/
def AccountedToOwn (cfg : ClientConfig) (counter : UInt64) (es : List Event) : Prop :=
  ∀ pre t now ok s tr r s' obs, pre ++ [.responder t now ok] <+: es →
    (machine cfg counter).exec pre = some (s, tr) → s.responses t = some r →
    (machine cfg counter).step s (.responder t now ok) = some (s', obs) →
    AccountsToOwn s s' obs r.sessionId

/-- A lookup of `udp_sessions` for a response finds no session with another id, and a sweep
removes no session that a response handler has found and not yet let go. -/
def Loyal (s : State) : Event → Prop
  | .responder t _ _ => ∀ r source, s.responses t = some r → r.pc = .lookupSession source →
      ∀ o, s.cl.udpSessions source = some o → (s.cl.heap o).sessionId = r.sessionId
  | .sweepUdp now => ∀ t r source o, s.responses t = some r → r.pc.obj = some (source, o) →
      s.cl.udpSessions source = some o → s.cl.expired now source = false
  | _ => True

/-- What a response handler holds is the live session with the id of its response. -/
def HoldsOwn (s : State) : Prop :=
  ∀ t r source o, s.responses t = some r → r.pc.obj = some (source, o) →
    Live s.cl r.sessionId source o

theorem udpSessions_cleanupExpiredUdp {cl : Client} {now : ℕ} {source : SocketAddr}
    (h : cl.expired now source = false) :
    (cl.cleanupExpiredUdp now).udpSessions source = cl.udpSessions source := by
  simp [cleanupExpiredUdp, h]

namespace HoldsOwn

variable {s s' : State} {tr obs : List Obs}

/-- Frame rule: a move that keeps the sessions in the table and their ids. -/
theorem frame (hi : HoldsOwn s)
    (hsess : ∀ t r source o, s.responses t = some r → r.pc.obj = some (source, o) →
      s'.cl.udpSessions source = some o)
    (hid : ∀ t r source o, s.responses t = some r → r.pc.obj = some (source, o) →
      (s'.cl.heap o).sessionId = (s.cl.heap o).sessionId)
    (hresp : ∀ t r, s'.responses t = some r → s.responses t = some r ∨
      ∀ source o, r.pc.obj = some (source, o) → Live s'.cl r.sessionId source o) :
    HoldsOwn s' := by
  intro t r source o ht ho
  rcases hresp t r ht with hold | hnew
  · exact ⟨hsess t r source o hold ho, (hid t r source o hold ho).trans (hi t r source o hold ho).2⟩
  · exact hnew source o ho

/-- Frame rule for moves that change neither the table nor an id. -/
theorem frameResponse (hi : HoldsOwn s) (cl : Client) {t : Responder} {r' : Option Response}
    (hsess : cl.udpSessions = s.cl.udpSessions)
    (hid : ∀ o, (cl.heap o).sessionId = (s.cl.heap o).sessionId)
    (hh : ∀ r source o, r' = some r → r.pc.obj = some (source, o) →
      Live s.cl r.sessionId source o) :
    HoldsOwn ({ s with cl := cl }.setResponse t r') := by
  refine hi.frame (fun t₁ r₁ source o ht ho => ?_) (fun _ _ _ o _ _ => hid o) (fun t₁ r₁ ht => ?_)
  · show cl.udpSessions source = some o
    rw [hsess]
    exact (hi t₁ r₁ source o ht ho).1
  · rcases responses_setResponse ht with ⟨_, hset⟩ | hold
    · refine Or.inr fun source o ho => ?_
      obtain ⟨hs, hsid⟩ := hh r₁ source o hset ho
      exact ⟨(congrFun hsess source).trans hs, (hid o).trans hsid⟩
    · exact Or.inl hold

/-- The step lemma. -/
theorem act {e : Event} (hi : HoldsOwn s) (hobj : Objects s tr) (hc : Loyal s e)
    (ha : Act s e s' obs) : HoldsOwn s' := by
  have hkeep : ∀ {t : Responder} {r : Response} {p : SocketAddr × SessionObj} {pc : ResponsePc},
      s.responses t = some r → r.pc.obj = some p → pc.obj = some p → ∀ r₁ source o,
        some { r with pc := pc } = some r₁ → r₁.pc.obj = some (source, o) →
          Live s.cl r₁.sessionId source o := by
    intro t r p pc ht ho hpc r₁ source o hset ho₁
    rw [← Option.some.inj hset] at ho₁ ⊢
    exact hi t r source o ht ((Option.some.inj (hpc.symm.trans ho₁)) ▸ ho)
  have hfree : ∀ {r : Response}, r.pc.obj = none → ∀ r₁ source o, some r = some r₁ →
      r₁.pc.obj = some (source, o) → Live s.cl r₁.sessionId source o := by
    intro r hpc r₁ source o hset ho₁
    rw [← Option.some.inj hset] at ho₁
    exact absurd (hpc.symm.trans ho₁) (by simp)
  have hnone : ∀ r₁ source o, (none : Option Response) = some r₁ →
      r₁.pc.obj = some (source, o) → Live s.cl r₁.sessionId source o :=
    fun _ _ _ h => absurd h (by simp)
  have hsame : ∀ t r source o, s.responses t = some r → r.pc.obj = some (source, o) →
      s.cl.udpSessions source = some o := fun t r source o ht ho => (hi t r source o ht ho).1
  cases ha with
  | @createNew h now random b b' _ _ hnew =>
      refine hi.frame (fun t r source o ht ho => ?_) (fun t r source o ht ho => ?_)
        (fun t r ht => Or.inl ht)
      · -- the source of a held session has a session, so it is not the new one's
        have hne : source ≠ h.source := by
          intro he
          have hs := hsame t r source o ht ho
          rw [he, hnew] at hs
          exact absurd hs (by simp)
        simp only [createUdpSession, hnew, Function.update_of_ne hne]
        exact hsame t r source o ht ho
      · have hlt := (hobj.responses t r source o ht ho).1
        simp only [createUdpSession, hnew, Function.update_of_ne (Nat.ne_of_lt hlt)]
  | number _ _ =>
      exact hi.frame hsame (fun _ _ _ o _ _ => takeSeq_sessionId _ _ o) (fun _ _ h => Or.inl h)
  | touch _ _ =>
      exact hi.frame hsame (fun _ _ _ o _ _ => touch_sessionId _ _ o _) (fun _ _ h => Or.inl h)
  | @tcpCreateNew h o seq server servers now random b' _ _ hnew =>
      refine hi.frame (fun t r source o ht ho => ?_) (fun t r source o _ _ => ?_)
        (fun _ _ h => Or.inl h)
      · simp only [createTcpSession, hnew, if_true]
        exact hsame t r source o ht ho
      · simp only [createTcpSession, hnew, if_true]
  | udpArrives _ _ => exact hi.frameResponse s.cl rfl (fun _ => rfl) (hfree rfl)
  | frameEnds _ _ _ => exact hi.frameResponse _ rfl (fun _ => rfl) (hfree rfl)
  | addrHit _ _ _ => exact hi.frameResponse s.cl rfl (fun _ => rfl) (hfree rfl)
  | addrMiss _ _ _ => exact hi.frameResponse s.cl rfl (fun _ => rfl) hnone
  | @sessionHit t r source o now b ht hpc hs =>
      refine hi.frameResponse s.cl rfl (fun _ => rfl) ?_
      intro r₁ source₁ o₁ hset ho₁
      rw [← Option.some.inj hset] at ho₁ ⊢
      obtain ⟨rfl, rfl⟩ := Prod.mk.inj (Option.some.inj ho₁)
      exact ⟨hs, hc r source ht hpc o hs⟩
  | sessionMiss _ _ _ => exact hi.frameResponse s.cl rfl (fun _ => rfl) hnone
  | checkDup _ _ _ => exact hi.frameResponse _ rfl (checkResponse_sessionId _ _ · _) hnone
  | checkNew ht hpc _ =>
      exact hi.frameResponse _ rfl (checkResponse_sessionId _ _ · _)
        (hkeep ht (by rw [hpc]; rfl) rfl)
  | responseTouch ht hpc =>
      exact hi.frameResponse _ rfl (touch_sessionId _ _ · _) (hkeep ht (by rw [hpc]; rfl) rfl)
  | forward _ _ => exact hi.frameResponse s.cl rfl (fun _ => rfl) hnone
  | cleanup _ =>
      refine hi.frame (fun t r source o ht ho => ?_) (fun _ _ _ o _ _ => ?_)
        (fun _ _ h => Or.inl h)
      · simpa [setReader] using hsame t r source o ht ho
      · simp [setReader]
  | sweepUdp _ =>
      refine hi.frame (fun t r source o ht ho => ?_) (fun _ _ _ _ _ _ => rfl)
        (fun _ _ h => Or.inl h)
      have hs := hsame t r source o ht ho
      exact (udpSessions_cleanupExpiredUdp (hc t r source o ht ho hs)).trans hs
  | _ => exact hi.frame hsame (fun _ _ _ _ _ _ => rfl) (fun _ _ h => Or.inl h)

end HoldsOwn

/-- A section of a response handler works on what the handler holds. -/
theorem accountsToOwn_of_holds {s s' : State} {t : Responder} {r : Response} {now : ℕ} {ok : Bool}
    {obs : List Obs} (hi : HoldsOwn s) (ht : s.responses t = some r)
    (ha : Act s (.responder t now ok) s' obs) : AccountsToOwn s s' obs r.sessionId := by
  have hsilent : s'.cl = s.cl → obs = [] → AccountsToOwn s s' obs r.sessionId := by
    intro hcl hobs
    refine ⟨fun o seq dup h => ?_, fun o h => ?_, fun o h => ?_, fun o seq a p ok h => ?_⟩
    · exact absurd h (by simp [hobs])
    · exact absurd (by rw [hcl]) h
    · exact absurd (by rw [hcl]) h
    · exact absurd h (by simp [hobs])
  have hcheck : ∀ {r₁ : Response} {source : SocketAddr} {o : SessionObj} {dup : Bool}
      {r' : Option Response}, s.responses t = some r₁ → r₁.pc = .check source o →
      s' = { s with cl := (s.cl.checkResponse o r₁.seq).2 }.setResponse t r' →
      obs = [.checked o r₁.seq dup] → AccountsToOwn s s' obs r.sessionId := by
    intro r₁ source o dup r' ht₁ hpc hs' hobs
    obtain rfl : r₁ = r := Option.some.inj (ht₁.symm.trans ht)
    have hlive := hi t r₁ source o ht (by rw [hpc]; rfl)
    rw [hs', hobs]
    refine ⟨fun o' seq' dup' h => ?_, fun o' h => ?_, fun o' h => ?_, fun o' seq' a p ok' h => ?_⟩
    · obtain ⟨rfl, _, _⟩ := Obs.checked.inj (List.mem_singleton.mp h)
      exact ⟨source, hlive⟩
    · by_cases he : o' = o
      · exact he ▸ ⟨source, hlive⟩
      · exact absurd (by simp [State.setResponse, checkResponse, Function.update_of_ne he]) h
    · refine absurd ?_ h
      by_cases he : o' = o <;> simp [State.setResponse, checkResponse, he]
    · exact absurd (List.mem_singleton.mp h) (by simp)
  cases ha with
  | addrHit _ _ _ => exact hsilent rfl rfl
  | addrMiss _ _ _ => exact hsilent rfl rfl
  | sessionHit _ _ _ => exact hsilent rfl rfl
  | sessionMiss _ _ _ => exact hsilent rfl rfl
  | checkDup ht₁ hpc _ => exact hcheck ht₁ hpc rfl rfl
  | checkNew ht₁ hpc _ => exact hcheck ht₁ hpc rfl rfl
  | @responseTouch _ r₁ source o _ _ ht₁ hpc =>
      obtain rfl : r₁ = r := Option.some.inj (ht₁.symm.trans ht)
      have hlive := hi t r₁ source o ht (by rw [hpc]; rfl)
      refine ⟨fun _ _ _ h => absurd h List.not_mem_nil, fun o' h => ?_, fun o' h => ?_,
        fun _ _ _ _ _ h => absurd h List.not_mem_nil⟩
      · exact absurd (touch_responseDedup _ _ _ _) h
      · by_cases he : o' = o
        · exact he ▸ ⟨source, hlive⟩
        · exact absurd (by simp [State.setResponse, touch, Function.update_of_ne he]) h
  | @forward _ r₁ source o _ _ ht₁ hpc =>
      obtain rfl : r₁ = r := Option.some.inj (ht₁.symm.trans ht)
      have hlive := hi t r₁ source o ht (by rw [hpc]; rfl)
      refine ⟨fun _ _ _ h => absurd (List.mem_singleton.mp h) (by simp),
        fun _ h => absurd rfl h, fun _ h => absurd rfl h, fun o' seq' a p ok' h => ?_⟩
      obtain ⟨rfl, _, rfl, _, _⟩ := Obs.forwarded.inj (List.mem_singleton.mp h)
      exact hlive

/-- **When responses are accounted to their own session.**  In every run in which no lookup for a
response finds a session with another id and no sweep removes a session that a response handler
holds, every response handler consults and changes only the window and the activity of the live
session with the id of its response, and sends only to that session's source. -/
theorem responses_accounted_to_own (cfg : ClientConfig) (counter : UInt64) (es : List Event)
    (hC : (machine cfg counter).Each (fun s _ e => Loyal s e) es) :
    AccountedToOwn cfg counter es := by
  intro pre t now ok s tr r s' obs hpre hrun ht hstep
  have hboth : Objects s tr ∧ HoldsOwn s :=
    Machine.invariant_of_each (I := fun s tr => Objects s tr ∧ HoldsOwn s)
      ⟨objects_exec (machine cfg counter).exec_nil, fun _ _ _ _ h => absurd h (by simp [machine])⟩
      (fun _ _ _ _ _ hi hc hs =>
        ⟨hi.1.act (act_of_machine hs), hi.2.act hi.1 hc (act_of_machine hs)⟩)
      (hC.of_isPrefix ((List.prefix_append _ _).trans hpre)) hrun
  exact accountsToOwn_of_holds hboth.2 ht (act_of_machine hstep)

/-- A check of `Loyal` that rules sweeps out. -/
def findsOwn (s : State) : Event → Bool
  | .responder t _ _ =>
      match s.responses t with
      | some ⟨sid, _, _, .lookupSession source⟩ =>
          (s.cl.udpSessions source).all fun o => (s.cl.heap o).sessionId = sid
      | _ => true
  | .sweepUdp _ => false
  | _ => true

theorem loyal_of_finds {s : State} {e : Event} (h : findsOwn s e = true) : Loyal s e := by
  cases e with
  | responder t now ok =>
      intro r source ht hpc o ho
      obtain ⟨sid, seq, payload, pc⟩ := r
      dsimp only at hpc
      subst hpc
      simpa [findsOwn, ht, ho] using h
  | sweepUdp now => exact absurd h Bool.false_ne_true
  | _ => trivial

/-- A response of session 1 is handled while the session is alive. -/
def promptResponse : List Event :=
  sendDatagram demoAddr 10 11 ++
    [Event.frameBegins 0, Event.frameEnds 0 (Protocol.encodeTcp 1 0 [2])] ++
    List.replicate 4 (Event.responder (.tcp 0) 20 true)

/-- The condition holds of a run that no sweep disturbs. -/
theorem prompt_response_accounted_to_own :
    (∃ s tr, (machine demoConfig 0).exec promptResponse = some (s, tr) ∧
      .forwarded 0 0 demoAddr [2] true ∈ tr) ∧
    AccountedToOwn demoConfig 0 promptResponse := by
  have hview : ((machine demoConfig 0).exec promptResponse).map
      (fun r => decide (.forwarded 0 0 demoAddr [2] true ∈ r.2)) = some true := by decide
  obtain ⟨⟨s, tr⟩, hrun, hv⟩ := Option.map_eq_some_iff.mp hview
  exact ⟨⟨s, tr, hrun, of_decide_eq_true hv⟩,
    responses_accounted_to_own demoConfig 0 promptResponse
      (Machine.each_of_check (fun _ _ _ => loyal_of_finds) (by decide))⟩

/-- The session of a source expires at 75, but not its connection, which was last used at 20.  The
source sends again and gets session 2.  Then a response of session 1 arrives on the connection and
its handler looks up the session of the source. -/
def staleResponse : List Event :=
  Event.sourceSends demoAddr [1] :: List.replicate 8 (Event.listener 10 0 true true) ++
    List.replicate 3 (Event.listener 20 0 true true) ++
    [Event.sweepUdp 75, Event.sweepTcp] ++ sendDatagram demoAddr 76 10 ++
    ([.frameBegins 0, .frameEnds 0 (Protocol.encodeTcp 1 5 [9]),
      .responder (.tcp 0) 77 true] : List Event)

/-- The response of session 1 is recorded in the window of session 2. -/
theorem stale_response_in_successor :
    ¬ AccountedToOwn demoConfig 0 (staleResponse ++ [.responder (.tcp 0) 77 true]) := by
  intro hown
  have hview : ((machine demoConfig 0).exec staleResponse).map
      (fun r => (r.1.responses (.tcp 0), (r.1.cl.heap 1).sessionId,
        (step r.1 (.responder (.tcp 0) 77 true)).map Prod.snd)) =
        some (some ⟨1, 5, [9], .check demoAddr 1⟩, 2, some [.checked 1 5 false]) := by
    decide
  obtain ⟨⟨s, tr⟩, hrun, hv⟩ := Option.map_eq_some_iff.mp hview
  simp only [Prod.mk.injEq] at hv
  obtain ⟨hresp, hid, hstep⟩ := hv
  obtain ⟨⟨s', obs⟩, hstep, hobs⟩ := Option.map_eq_some_iff.mp hstep
  have haccount := hown staleResponse (.tcp 0) 77 true s tr _ s' obs (List.prefix_refl _) hrun
    hresp hstep
  obtain ⟨source, hlive⟩ := haccount.consulted 1 5 false (by
    rw [show obs = _ from hobs]
    exact List.mem_singleton_self _)
  have hbad : (2 : UInt64) = 1 := hid.symm.trans hlive.2
  exact absurd hbad (by decide)

end Fproxy.Client
