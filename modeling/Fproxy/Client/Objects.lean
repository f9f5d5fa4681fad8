import Fproxy.Client.Machine

/-!
# The session objects of the client and their windows

Tables and tasks hold references to session objects.  Every reference is to an object that was
created for the source it is used for, every entry of the reverse map is an id that was assigned
to that source, and the response window of every object is the one that its `is_duplicate` calls,
taken from the trace, leave behind.

* `checks tr o` — the calls of `is_duplicate` on the response window of `o`, with the verdicts.
* `Objects` — the invariant; `objects_exec` — it holds after every run.
-/

namespace Fproxy.Client

open Fproxy.Runs Fproxy.DedupWindow

/-- The calls of `is_duplicate` on the response window of an object, oldest first; `true` when
the response was let through. -/
def checks (tr : List Obs) (o : SessionObj) : List (UInt32 × Bool) :=
  tr.filterMap fun
    | .checked o' seq dup => if o' = o then some (seq, !dup) else none
    | _ => none

@[simp] theorem checks_append (tr tr' : List Obs) (o : SessionObj) :
    checks (tr ++ tr') o = checks tr o ++ checks tr' o := List.filterMap_append

/-- The object `handle_packet` works on. -/
def SendPc.obj : SendPc → Option SessionObj
  | .lookup => none
  | .create => none
  | .number o => some o
  | .touch o _ => some o
  | .udp o _ _ => some o
  | .tcp o _ _ => some o
  | .tcpCreate o _ _ _ => some o
  | .tcpTouch o _ _ _ => some o
  | .tcpSend o _ _ _ => some o

/-- The object a response is accounted to, and the source it goes to. -/
def ResponsePc.obj : ResponsePc → Option (SocketAddr × SessionObj)
  | .lookupAddr => none
  | .lookupSession _ => none
  | .check source o => some (source, o)
  | .touch source o => some (source, o)
  | .forward source o => some (source, o)

theorem responses_setResponse {s : State} {t t' : Responder} {r' : Option Response}
    {r : Response} (ht : (s.setResponse t r').responses t' = some r) :
    t' = t ∧ r' = some r ∨ s.responses t' = some r := by
  by_cases he : t' = t
  · rw [he] at ht
    exact Or.inl ⟨he, by simpa [State.setResponse] using ht⟩
  · exact Or.inr (by simpa [State.setResponse, Function.update_of_ne he] using ht)

/-- A reference to an object created for a source. -/
def Owns (cl : Client) (tr : List Obs) (source : SocketAddr) (o : SessionObj) : Prop :=
  o < cl.next ∧ .created o (cl.heap o).sessionId source ∈ tr

/-- An object keeps its session id. -/
theorem Act.keeps_object {s s' : State} {e : Event} {obs : List Obs} (ha : Act s e s' obs)
    {o : SessionObj} (ho : o < s.cl.next) :
    o < s'.cl.next ∧ (s'.cl.heap o).sessionId = (s.cl.heap o).sessionId := by
  cases ha with
  | createNew _ _ hnone =>
      simp only [createUdpSession, hnone]
      exact ⟨Nat.lt_succ_of_lt ho, by rw [Function.update_of_ne (Nat.ne_of_lt ho)]⟩
  | number _ _ => exact ⟨ho, takeSeq_sessionId _ _ _⟩
  | touch _ _ | responseTouch _ _ => exact ⟨ho, touch_sessionId _ _ _ _⟩
  | tcpCreateNew _ _ hnone =>
      simp [createTcpSession, hnone, ho]
  | checkDup _ _ _ | checkNew _ _ _ => exact ⟨ho, checkResponse_sessionId _ _ _ _⟩
  | cleanup _ => exact ⟨by simpa [setReader] using ho, by simp [setReader]⟩
  | _ => exact ⟨ho, rfl⟩

/-- Every response window has the same size. -/
theorem Act.keeps_size {s s' : State} {e : Event} {obs : List Obs} (ha : Act s e s' obs)
    (hi : ∀ o, (s.cl.heap o).responseDedup.size = defaultResponseDedupSize) (o : SessionObj) :
    (s'.cl.heap o).responseDedup.size = defaultResponseDedupSize := by
  have hsame : (s'.cl.heap o).responseDedup = (s.cl.heap o).responseDedup →
      (s'.cl.heap o).responseDedup.size = defaultResponseDedupSize := fun h => by rw [h, hi]
  have hcheck : ∀ {o' : SessionObj} {seq : UInt32},
      ((s.cl.checkResponse o' seq).2.heap o).responseDedup.size = defaultResponseDedupSize := by
    intro o' seq
    rw [checkResponse_responseDedup]
    split
    · rw [isDuplicate_size, hi]
    · exact hi o
  cases ha with
  | createNew _ _ hnone =>
      simp only [createUdpSession, hnone]
      by_cases ho : o = s.cl.next
      · rw [ho, Function.update_self]
        rfl
      · rw [Function.update_of_ne ho, hi]
  | number _ _ => exact hsame (takeSeq_responseDedup _ _ _)
  | touch _ _ | responseTouch _ _ => exact hsame (touch_responseDedup _ _ _ _)
  | tcpCreateNew _ _ hnone => exact hsame (by simp [createTcpSession, hnone])
  | checkDup _ _ _ | checkNew _ _ _ => exact hcheck
  | cleanup _ => exact hsame (by simp [setReader])
  | _ => exact hsame rfl

/-- What the references and the windows satisfy along every run. -/
structure Objects (s : State) (tr : List Obs) : Prop where
  sessions : ∀ source o, s.cl.udpSessions source = some o → Owns s.cl tr source o
  addrs : ∀ sid source, s.cl.udpSessionAddrs sid = some source →
    ∃ o, .created o sid source ∈ tr
  sending : ∀ h o, s.sending = some h → h.pc.obj = some o → Owns s.cl tr h.source o
  responses : ∀ t r source o, s.responses t = some r → r.pc.obj = some (source, o) →
    Owns s.cl tr source o
  fresh : ∀ o, s.cl.next ≤ o → checks tr o = []
  tracks : ∀ o, Tracks (s.cl.heap o).responseDedup (checks tr o)

namespace Objects

variable {s s' : State} {tr obs : List Obs}

/-- Frame rule: a move that creates no object and calls no window. -/
theorem frame (hi : Objects s tr) (hnext : s'.cl.next = s.cl.next)
    (hid : ∀ o, (s'.cl.heap o).sessionId = (s.cl.heap o).sessionId)
    (hwin : ∀ o, (s'.cl.heap o).responseDedup = (s.cl.heap o).responseDedup)
    (hobs : ∀ o, checks obs o = [])
    (hsess : ∀ source o, s'.cl.udpSessions source = some o → s.cl.udpSessions source = some o)
    (haddr : ∀ sid source, s'.cl.udpSessionAddrs sid = some source →
      s.cl.udpSessionAddrs sid = some source)
    (hsend : ∀ h o, s'.sending = some h → h.pc.obj = some o → Owns s.cl tr h.source o)
    (hresp : ∀ t r source o, s'.responses t = some r → r.pc.obj = some (source, o) →
      Owns s.cl tr source o) : Objects s' (tr ++ obs) := by
  have howns : ∀ source o, Owns s.cl tr source o → Owns s'.cl (tr ++ obs) source o :=
    fun source o h => ⟨hnext ▸ h.1, (hid o).symm ▸ List.mem_append_left _ h.2⟩
  refine ⟨fun source o h => howns source o (hi.sessions source o (hsess source o h)),
    fun sid source h => ?_, fun h o hs ho => howns _ o (hsend h o hs ho),
    fun t r source o ht ho => howns source o (hresp t r source o ht ho), fun o h => ?_,
    fun o => ?_⟩
  · obtain ⟨o, ho⟩ := hi.addrs sid source (haddr sid source h)
    exact ⟨o, List.mem_append_left _ ho⟩
  · rw [checks_append, hi.fresh o (hnext ▸ h), hobs, List.append_nil]
  · rw [checks_append, hobs, List.append_nil, hwin]
    exact hi.tracks o

/-- Frame rule for the listener's task. -/
theorem frameSending (hi : Objects s tr) {h' : Option Sending} {cl : Client}
    (hnext : cl.next = s.cl.next)
    (hid : ∀ o, (cl.heap o).sessionId = (s.cl.heap o).sessionId)
    (hwin : ∀ o, (cl.heap o).responseDedup = (s.cl.heap o).responseDedup)
    (hsess : cl.udpSessions = s.cl.udpSessions)
    (haddr : cl.udpSessionAddrs = s.cl.udpSessionAddrs) (hobs : ∀ o, checks obs o = [])
    (hh : ∀ h o, h' = some h → h.pc.obj = some o → Owns s.cl tr h.source o) :
    Objects { s with cl := cl, sending := h' } (tr ++ obs) :=
  hi.frame hnext hid hwin hobs (fun _ _ h => by rwa [← hsess]) (fun _ _ h => by rwa [← haddr]) hh
    hi.responses

/-- Frame rule for the tasks that handle responses. -/
theorem frameResponse (hi : Objects s tr) {t : Responder} {r' : Option Response} {cl : Client}
    (hnext : cl.next = s.cl.next)
    (hid : ∀ o, (cl.heap o).sessionId = (s.cl.heap o).sessionId)
    (hwin : ∀ o, (cl.heap o).responseDedup = (s.cl.heap o).responseDedup)
    (hsess : cl.udpSessions = s.cl.udpSessions)
    (haddr : cl.udpSessionAddrs = s.cl.udpSessionAddrs) (hobs : ∀ o, checks obs o = [])
    (hh : ∀ r source o, r' = some r → r.pc.obj = some (source, o) → Owns s.cl tr source o) :
    Objects ({ s with cl := cl }.setResponse t r') (tr ++ obs) := by
  refine hi.frame hnext hid hwin hobs (fun _ _ h => ?_) (fun _ _ h => ?_) hi.sending
    (fun t' r source o ht ho => ?_)
  · rwa [← hsess]
  · rwa [← haddr]
  · rcases responses_setResponse ht with ⟨_, hset⟩ | hold
    · exact hh r source o hset ho
    · exact hi.responses t' r source o hold ho

/-- The listener's task moves on without touching the client. -/
theorem frameListener (hi : Objects s tr) {h' : Option Sending} (hobs : ∀ o, checks obs o = [])
    (hh : ∀ h o, h' = some h → h.pc.obj = some o → Owns s.cl tr h.source o) :
    Objects { s with sending := h' } (tr ++ obs) :=
  hi.frameSending rfl (fun _ => rfl) (fun _ => rfl) rfl rfl hobs hh

/-- A task that handles a response moves on without touching the client. -/
theorem frameResponder (hi : Objects s tr) {t : Responder} {r' : Option Response}
    (hobs : ∀ o, checks obs o = [])
    (hh : ∀ r source o, r' = some r → r.pc.obj = some (source, o) → Owns s.cl tr source o) :
    Objects (s.setResponse t r') (tr ++ obs) :=
  hi.frameResponse rfl (fun _ => rfl) (fun _ => rfl) rfl rfl hobs hh

/-- A fresh object for a source. -/
theorem create (hi : Objects s tr) {h : Sending} {random : UInt32} {now : ℕ}
    (hnone : s.cl.udpSessions h.source = none) :
    Objects { s with
        cl := (s.cl.createUdpSession h.source random now).1
        sending := some { h with pc := .number s.cl.next } }
      (tr ++ [Obs.created s.cl.next (allocateSessionId s.cl.sessionIdCounter) h.source]) := by
  have hheap : ∀ o, o ≠ s.cl.next →
      (s.cl.createUdpSession h.source random now).1.heap o = s.cl.heap o := by
    intro o ho
    simp only [createUdpSession, hnone]
    exact Function.update_of_ne ho _ _
  have hself : (s.cl.createUdpSession h.source random now).1.heap s.cl.next =
      UdpSession.new (allocateSessionId s.cl.sessionIdCounter) (initialSeq random) now := by
    simp only [createUdpSession, hnone]
    exact Function.update_self _ _ _
  have hnext : (s.cl.createUdpSession h.source random now).1.next = s.cl.next + 1 := by
    simp only [createUdpSession, hnone]
  have hnew : Owns (s.cl.createUdpSession h.source random now).1
      (tr ++ [Obs.created s.cl.next (allocateSessionId s.cl.sessionIdCounter) h.source])
      h.source s.cl.next := by
    refine ⟨by rw [hnext]; exact Nat.lt_succ_self _, ?_⟩
    rw [hself]
    exact List.mem_append_right _ (List.mem_singleton_self _)
  have howns : ∀ source o, Owns s.cl tr source o →
      Owns (s.cl.createUdpSession h.source random now).1
        (tr ++ [Obs.created s.cl.next (allocateSessionId s.cl.sessionIdCounter) h.source])
        source o := by
    intro source o ho
    refine ⟨by rw [hnext]; exact Nat.lt_succ_of_lt ho.1, ?_⟩
    rw [hheap o (Nat.ne_of_lt ho.1)]
    exact List.mem_append_left _ ho.2
  refine ⟨fun source o hs => ?_, fun sid source ha => ?_, fun h' o hh ho => ?_,
    fun t r source o ht ho => howns source o (hi.responses t r source o ht ho), fun o ho => ?_,
    fun o => ?_⟩
  · simp only [createUdpSession, hnone] at hs
    by_cases he : source = h.source
    · rw [he, Function.update_self, Option.some.injEq] at hs
      rw [he, ← hs]
      exact hnew
    · rw [Function.update_of_ne he] at hs
      exact howns source o (hi.sessions source o hs)
  · simp only [createUdpSession, hnone] at ha
    by_cases he : sid = allocateSessionId s.cl.sessionIdCounter
    · rw [he, Function.update_self, Option.some.injEq] at ha
      rw [he, ← ha]
      exact ⟨_, List.mem_append_right _ (List.mem_singleton_self _)⟩
    · rw [Function.update_of_ne he] at ha
      obtain ⟨o, ho⟩ := hi.addrs sid source ha
      exact ⟨o, List.mem_append_left _ ho⟩
  · rw [← Option.some.inj hh] at ho ⊢
    rw [← Option.some.inj ho]
    exact hnew
  · have ho : s.cl.next + 1 ≤ o := by rwa [← hnext]
    rw [checks_append, hi.fresh o (Nat.le_of_succ_le ho)]
    rfl
  · show Tracks ((s.cl.createUdpSession h.source random now).1.heap o).responseDedup _
    rw [checks_append, show checks [Obs.created _ _ _] o = [] from rfl, List.append_nil]
    by_cases he : o = s.cl.next
    · rw [he, hself, hi.fresh s.cl.next (le_refl _)]
      exact tracks_new (by decide)
    · rw [hheap o he]
      exact hi.tracks o

/-- One call of `is_duplicate`. -/
theorem check (hi : Objects s tr) {t : Responder} {r : Response} {source : SocketAddr}
    {o : SessionObj} {dup : Bool} {r' : Option Response} (ht : s.responses t = some r)
    (hpc : r.pc = .check source o) (hdup : (s.cl.checkResponse o r.seq).1 = dup)
    (hh : ∀ r₁ source₁ o₁, r' = some r₁ → r₁.pc.obj = some (source₁, o₁) →
      Owns s.cl tr source₁ o₁) :
    Objects ({ s with cl := (s.cl.checkResponse o r.seq).2 }.setResponse t r')
      (tr ++ [Obs.checked o r.seq dup]) := by
  have hown : Owns s.cl tr source o := hi.responses t r source o ht (by rw [hpc]; rfl)
  have howns : ∀ source₁ o₁, Owns s.cl tr source₁ o₁ →
      Owns (s.cl.checkResponse o r.seq).2 (tr ++ [Obs.checked o r.seq dup]) source₁ o₁ :=
    fun source₁ o₁ ho => ⟨ho.1, by
      rw [checkResponse_sessionId]; exact List.mem_append_left _ ho.2⟩
  refine ⟨fun source₁ o₁ hs => howns source₁ o₁ (hi.sessions source₁ o₁ hs),
    fun sid source₁ ha => ?_, fun h o₁ hs ho => howns _ o₁ (hi.sending h o₁ hs ho),
    fun t' r₁ source₁ o₁ ht' ho => ?_, fun o' ho => ?_, fun o' => ?_⟩
  · obtain ⟨o₁, ho₁⟩ := hi.addrs sid source₁ ha
    exact ⟨o₁, List.mem_append_left _ ho₁⟩
  · rcases responses_setResponse ht' with ⟨_, hset⟩ | hold
    · exact howns source₁ o₁ (hh r₁ source₁ o₁ hset ho)
    · exact howns source₁ o₁ (hi.responses t' r₁ source₁ o₁ hold ho)
  · have hne : o ≠ o' := fun he => absurd hown.1 (by rw [he]; exact Nat.not_lt.mpr ho)
    rw [checks_append, hi.fresh o' ho]
    simp [checks, hne]
  · show Tracks ((s.cl.checkResponse o r.seq).2.heap o').responseDedup _
    rw [checkResponse_responseDedup, checks_append]
    by_cases he : o' = o
    · subst he
      have hverdict : ((s.cl.heap o').responseDedup.isDuplicate r.seq).1 = dup := hdup
      have hstep := (hi.tracks o').isDuplicate r.seq
      rw [hverdict] at hstep
      simpa [checks] using hstep
    · have hne : o ≠ o' := fun h => he h.symm
      simpa [checks, he, hne] using hi.tracks o'

/-- The step lemma. -/
theorem act {e : Event} (hi : Objects s tr) (ha : Act s e s' obs) : Objects s' (tr ++ obs) := by
  -- a task that keeps its object keeps its reference
  have hsend : ∀ {h : Sending} {o : SessionObj} {pc : SendPc}, s.sending = some h →
      h.pc.obj = some o → pc.obj = some o → ∀ h₁ o₁, some { h with pc := pc } = some h₁ →
        h₁.pc.obj = some o₁ → Owns s.cl tr h₁.source o₁ := by
    intro h o pc ht ho hpc h₁ o₁ hset ho₁
    rw [← Option.some.inj hset] at ho₁ ⊢
    rw [← Option.some.inj (hpc.symm.trans ho₁)]
    exact hi.sending h o ht ho
  have hresp : ∀ {t : Responder} {r : Response} {p : SocketAddr × SessionObj} {pc : ResponsePc},
      s.responses t = some r → r.pc.obj = some p → pc.obj = some p → ∀ r₁ source₁ o₁,
        some { r with pc := pc } = some r₁ → r₁.pc.obj = some (source₁, o₁) →
          Owns s.cl tr source₁ o₁ := by
    intro t r p pc ht ho hpc r₁ source₁ o₁ hset ho₁
    rw [← Option.some.inj hset] at ho₁
    have hp := Option.some.inj (hpc.symm.trans ho₁)
    exact hi.responses t r source₁ o₁ ht (hp ▸ ho)
  -- a task that has just found a session
  have hfound : ∀ {h : Sending} {o : SessionObj}, s.cl.udpSessions h.source = some o →
      ∀ h₁ o₁, some { h with pc := .number o } = some h₁ → h₁.pc.obj = some o₁ →
        Owns s.cl tr h₁.source o₁ := by
    intro h o hs h₁ o₁ hset ho₁
    rw [← Option.some.inj hset] at ho₁ ⊢
    rw [← Option.some.inj ho₁]
    exact hi.sessions h.source o hs
  have hfree : ∀ {h : Sending} {pc : SendPc}, pc.obj = none → ∀ h₁ o₁,
      some { h with pc := pc } = some h₁ → h₁.pc.obj = some o₁ → Owns s.cl tr h₁.source o₁ := by
    intro h pc hpc h₁ o₁ hset ho₁
    rw [← Option.some.inj hset] at ho₁
    exact absurd (hpc.symm.trans ho₁) (by simp)
  have hnone : ∀ r₁ source₁ o₁, (none : Option Response) = some r₁ →
      r₁.pc.obj = some (source₁, o₁) → Owns s.cl tr source₁ o₁ :=
    fun _ _ _ h => absurd h (by simp)
  have hidle : ∀ {r : Response}, r.pc.obj = none → ∀ r₁ source₁ o₁, some r = some r₁ →
      r₁.pc.obj = some (source₁, o₁) → Owns s.cl tr source₁ o₁ := by
    intro r hpc r₁ source₁ o₁ hset ho₁
    rw [← Option.some.inj hset] at ho₁
    exact absurd (hpc.symm.trans ho₁) (by simp)
  cases ha with
  | @sourceSends source payload _ =>
      exact hi.frameListener (fun _ => rfl) (hfree (h := ⟨source, payload, .lookup⟩) rfl)
  | lookupHit _ _ hs => exact hi.frameListener (fun _ => rfl) (hfound hs)
  | lookupMiss _ _ _ => exact hi.frameListener (fun _ => rfl) (hfree rfl)
  | createHit _ _ hs => exact hi.frameListener (fun _ => rfl) (hfound hs)
  | createNew _ _ hs => exact hi.create hs
  | number ht hpc =>
      exact hi.frameSending rfl (takeSeq_sessionId _ _) (takeSeq_responseDedup _ _) rfl rfl
        (fun _ => rfl) (hsend ht (by rw [hpc]; rfl) rfl)
  | touch ht hpc =>
      exact hi.frameSending rfl (touch_sessionId _ _ · _) (touch_responseDedup _ _ · _) rfl rfl
        (fun _ => rfl) (hsend ht (by rw [hpc]; rfl) rfl)
  | @udpSend h o seq i senders now random b b' ht hpc =>
      refine hi.frameListener (fun _ => ?_) (hsend ht (by rw [hpc]; rfl) rfl)
      cases b' <;> rfl
  | tcpDone _ _ => exact hi.frameListener (fun _ => rfl) (fun _ _ h => absurd h (by simp))
  | @tcpCreateNew h o seq server servers now random b' ht hpc hs =>
      refine hi.frameSending ?_ (fun o' => ?_) (fun o' => ?_) ?_ ?_ (fun _ => rfl)
        (hsend ht (by rw [hpc]; rfl) rfl) <;>
        simp only [createTcpSession, hs, if_true]
  | tcpTouch ht hpc =>
      exact hi.frameSending rfl (fun _ => rfl) (fun _ => rfl) rfl rfl (fun _ => rfl)
        (hsend ht (by rw [hpc]; rfl) rfl)
  | @tcpSend h o seq c servers frame now random b b' ht hpc _ =>
      refine hi.frameListener (fun _ => ?_) (hsend ht (by rw [hpc]; rfl) rfl)
      cases b' <;> rfl
  | udpDone ht hpc => exact hi.frameListener (fun _ => rfl) (hsend ht (by rw [hpc]; rfl) rfl)
  | tcpHit ht hpc _ => exact hi.frameListener (fun _ => rfl) (hsend ht (by rw [hpc]; rfl) rfl)
  | tcpMiss ht hpc _ => exact hi.frameListener (fun _ => rfl) (hsend ht (by rw [hpc]; rfl) rfl)
  | tcpCreateHit ht hpc _ => exact hi.frameListener (fun _ => rfl) (hsend ht (by rw [hpc]; rfl) rfl)
  | tcpCreateFail ht hpc _ =>
      exact hi.frameListener (fun _ => rfl) (hsend ht (by rw [hpc]; rfl) rfl)
  | tcpTooLarge ht hpc _ => exact hi.frameListener (fun _ => rfl) (hsend ht (by rw [hpc]; rfl) rfl)
  | udpArrives _ _ => exact hi.frameResponder (fun _ => rfl) (hidle rfl)
  | frameEnds _ _ _ =>
      exact hi.frameResponse rfl (fun _ => rfl) (fun _ => rfl) rfl rfl (fun _ => rfl) (hidle rfl)
  | addrHit _ _ _ => exact hi.frameResponder (fun _ => rfl) (hidle rfl)
  | addrMiss _ _ _ => exact hi.frameResponder (fun _ => rfl) hnone
  | @sessionHit t r source o now b _ _ hs =>
      refine hi.frameResponder (fun _ => rfl) ?_
      intro r₁ source₁ o₁ hset ho₁
      rw [← Option.some.inj hset] at ho₁
      obtain ⟨rfl, rfl⟩ := Prod.mk.inj (Option.some.inj ho₁)
      exact hi.sessions source o hs
  | sessionMiss _ _ _ => exact hi.frameResponder (fun _ => rfl) hnone
  | checkDup ht hpc hd => exact hi.check ht hpc hd hnone
  | checkNew ht hpc hd => exact hi.check ht hpc hd (hresp ht (by rw [hpc]; rfl) rfl)
  | responseTouch ht hpc =>
      exact hi.frameResponse rfl (touch_sessionId _ _ · _) (touch_responseDedup _ _ · _) rfl rfl
        (fun _ => rfl) (hresp ht (by rw [hpc]; rfl) rfl)
  | forward _ _ => exact hi.frameResponder (fun _ => rfl) hnone
  | cleanup _ =>
      refine hi.frame ?_ (fun o => ?_) (fun o => ?_) (fun _ => rfl) (fun source o hs => ?_)
        (fun sid source hs => ?_) hi.sending hi.responses
      · simp [setReader]
      · simp [setReader]
      · simp [setReader]
      · simpa [setReader] using hs
      · simpa [setReader] using hs
  | sweepUdp _ =>
      exact hi.frame rfl (fun _ => rfl) (fun _ => rfl) (fun _ => rfl)
        (fun _ _ h => udpSessions_of_cleanupExpiredUdp h)
        (fun _ _ h => udpSessionAddrs_of_cleanupExpiredUdp h) hi.sending hi.responses
  | _ =>
      exact hi.frame rfl (fun _ => rfl) (fun _ => rfl) (fun _ => rfl) (fun _ _ h => h)
        (fun _ _ h => h) hi.sending hi.responses

end Objects

/-- The run lemma. -/
theorem objects_exec {cfg : ClientConfig} {counter : UInt64} {es : List Event} {s : State}
    {tr : List Obs} (hrun : (machine cfg counter).exec es = some (s, tr)) : Objects s tr :=
  Machine.invariant (I := Objects) _
    ⟨fun _ _ h => absurd h (by simp [machine, new]), fun _ _ h => absurd h (by simp [machine, new]),
      fun _ _ h => absurd h (by simp [machine]), fun _ _ _ _ h => absurd h (by simp [machine]),
      fun _ _ => rfl, fun _ => tracks_new (by decide)⟩
    (fun _ _ _ _ _ hi hs => hi.act (act_of_machine hs)) hrun

end Fproxy.Client
