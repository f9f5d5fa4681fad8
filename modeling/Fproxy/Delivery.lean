import Fproxy.Client.Mapping
import Fproxy.Exchange
import Fproxy.Server.Objects

/-!
# Responses across the expiry of sessions

The server counts the responses of a session in its session object, the client remembers their
numbers in its own, and the two objects expire independently.  If the server loses its object and
makes a new one for a session that the client still has, the new object counts from zero again, and
the client takes the next responses for copies of the first ones.

* `ResponsesDelivered` — a response of which a copy comes in while the client's tables hold the
  session is sent on to the session's source, as soon as no reader has a copy of it in hand.
* `Steady` — the condition on a step: no numbering starts again under a session the client holds, no
  response is accounted to another session than its own, no session is swept away under a response
  on its way to the window, and none comes there too late.
* `Delivers` — the invariant; `Promised` — what a copy that comes in starts, and every step keeps.
* `responses_delivered` — in every run whose steps are all steady, responses are delivered.
* `response_lost_after_server_expiry` — a run in which the server's session alone expires.
-/

namespace Fproxy

open Fproxy.Runs Fproxy.Protocol Fproxy.TcpFraming Fproxy.DedupWindow

namespace Exchange

open Fproxy.Client (Live)

/-- In every run: if a copy of a response comes in while the tables hold the session, then from
there on the response has been sent on to the session's source, or a reader has it in hand. -/
def ResponsesDelivered (ccfg : Client.ClientConfig) (counter : UInt64)
    (scfg : Server.ServerConfig) (es : List Event) : Prop :=
  ∀ pre j t post x tr y tr', pre ++ Event.copy j t :: post <+: es →
    (machine ccfg counter scfg).exec pre = some (x, tr) →
    (machine ccfg counter scfg).exec (pre ++ Event.copy j t :: post) = some (y, tr') →
    ∀ k p r a o, x.copies[j]? = some (k, p) → x.responses[k]? = some r →
      Live x.net.client.cl r.sessionId a o →
        (∃ f ∈ y.forwards, f.response = k ∧ f.source = a ∧ f.payload = r.payload) ∨
          ∃ t', y.net.client.responses t' ≠ none ∧ y.handling t' = k

theorem taken_sameTables (s : Client.State) (t : Client.Responder) (r : Server.Response) :
    Client.SameTables s.cl (taken s t r).cl := by
  cases t <;> exact ⟨rfl, rfl, rfl, fun _ => rfl⟩

theorem taken_heap (s : Client.State) (t : Client.Responder) (r : Server.Response)
    (o : Client.SessionObj) : (taken s t r).cl.heap o = s.cl.heap o := by
  cases t <;> rfl

theorem taken_next (s : Client.State) (t : Client.Responder) (r : Server.Response) :
    (taken s t r).cl.next = s.cl.next := by
  cases t <;> rfl

/-! ### The condition -/

/-- Past the check of the window: where the response goes, and whose window let it through. -/
def passed : Client.ResponsePc → Option (SocketAddr × Client.SessionObj)
  | .touch source o => some (source, o)
  | .forward source o => some (source, o)
  | _ => none

theorem obj_of_passed {pc : Client.ResponsePc} {q : SocketAddr × Client.SessionObj}
    (h : passed pc = some q) : pc.obj = some q := by
  cases pc with
  | touch | forward => exact h
  | _ => exact absurd h (by simp [passed])

/-- The window of the object has let a copy of the response through, to this source. -/
def LetThrough (x : Exchange) (k : ℕ) (a : SocketAddr) (o : Client.SessionObj) : Prop :=
  (∃ f ∈ x.forwards, f.response = k ∧ f.source = a ∧ f.obj = o) ∨
    ∃ t r, x.net.client.responses t = some r ∧ x.handling t = k ∧ passed r.pc = some (a, o)

/-- A new client session gets an id that was never assigned.  A new server session has an id under
which no response has a number yet, or which the client does not hold.  A response is accounted to
no other session than its own.  A sweep removes no session that a reader is looking up for a
response, unless another reader has let that response through.  A response comes to the window
before the numbers asked about are a window's size ahead of it, and it is not below the first of
them, unless another reader has let it through. -/
def Steady (x : Exchange) : Event → Prop
  | .move (.client (.listener _ _ _ _)) => ∀ h, x.net.client.sending = some h → h.pc = .create →
      x.net.client.cl.udpSessions h.source = none →
        Client.allocateSessionId x.net.client.cl.sessionIdCounter ∉
          Client.createdIds x.net.clientLog
  | .move (.server (.handler t _ true _)) => ∀ h, x.net.server.handlers t = some h →
      h.pc = .create → x.net.server.srv.sessions h.sessionId = none →
        (∀ r ∈ x.responses, r.sessionId ≠ h.sessionId) ∨
          ∀ a o, ¬ Live x.net.client.cl h.sessionId a o
  | .move (.client (.responder t _ _)) => ∀ r, x.net.client.responses t = some r →
      (∀ a o, r.pc = .lookupSession a → x.net.client.cl.udpSessions a = some o →
        (x.net.client.cl.heap o).sessionId = r.sessionId) ∧
      ∀ a o, r.pc = .check a o → (∃ a', LetThrough x (x.handling t) a' o) ∨
        (∀ p, (Client.checks x.net.clientLog o).head? = some p → p.1.toNat ≤ r.seq.toNat) ∧
          ∀ p ∈ Client.checks x.net.clientLog o,
            p.1.toNat < r.seq.toNat + Client.defaultResponseDedupSize
  | .move (.client (.sweepUdp now)) => ∀ t r a o, x.net.client.responses t = some r →
      r.pc.obj = none → Live x.net.client.cl r.sessionId a o →
        (∃ a' o', LetThrough x (x.handling t) a' o') ∨ x.net.client.cl.expired now a = false
  | _ => True

/-! ### The invariant -/

/-- A copy of the response has been accounted to the object. -/
def Reached (x : Exchange) (k : ℕ) (o : Client.SessionObj) : Prop :=
  (∃ f ∈ x.forwards, f.response = k ∧ f.obj = o) ∨
    ∃ t r a, x.net.client.responses t = some r ∧ x.handling t = k ∧ r.pc.obj = some (a, o)

theorem LetThrough.reached {x : Exchange} {k : ℕ} {a : SocketAddr} {o : Client.SessionObj}
    (h : LetThrough x k a o) : Reached x k o := by
  rcases h with ⟨f, hf, hk, _, ho⟩ | ⟨t, r, ht, hk, hp⟩
  · exact Or.inl ⟨f, hf, hk, ho⟩
  · exact Or.inr ⟨t, r, a, ht, hk, obj_of_passed hp⟩

/-- What makes the number of a response new to the window of its session: the numbers of a session
in the tables are distinct, and a window has been asked about nothing but numbers of responses
that it let through. -/
structure Delivers (scfg : Server.ServerConfig) (x : Exchange) : Prop where
  net : Network.Inv x.net
  served : Server.Objects scfg x.net.server x.net.serverLog
  accounts : Accounts x
  mapped : x.net.client.cl.Mapped
  sizes : ∀ o, (x.net.client.cl.heap o).responseDedup.size = Client.defaultResponseDedupSize
  nodup : (Client.createdIds x.net.clientLog).Nodup
  sessions : ∀ sid o, x.net.server.srv.sessions sid = some o →
    sid ∈ Client.createdIds x.net.clientLog
  responses : ∀ r ∈ x.responses, r.sessionId ∈ Client.createdIds x.net.clientLog
  counters : ∀ o, (x.net.server.srv.heap o).responseSeq.toNat ≤ x.responses.length
  numbers : ∀ sid a o, Live x.net.client.cl sid a o →
    x.net.server.srv.Numbering x.responses sid
  own : ∀ t r a o, x.net.client.responses t = some r → r.pc.obj = some (a, o) →
    (x.net.client.cl.heap o).sessionId = r.sessionId
  forwarded : ∀ f ∈ x.forwards, Client.Owns x.net.client.cl x.net.clientLog f.source f.obj ∧
    ∃ r, x.responses[f.response]? = some r ∧ f.payload = r.payload ∧
      (x.net.client.cl.heap f.obj).sessionId = r.sessionId
  windows : ∀ o, ∀ p ∈ Client.checks x.net.clientLog o, ∃ k a r, LetThrough x k a o ∧
    x.responses[k]? = some r ∧ r.seq = p.1
  distinct : ∀ o k k' r r', Reached x k o → Reached x k' o → x.responses[k]? = some r →
    x.responses[k']? = some r' → r.seq = r'.seq → k = k'

namespace Delivers

variable {scfg : Server.ServerConfig} {x : Exchange}

/-- What has been accounted to an object is a response of the object's session. -/
theorem of_reached (hi : Delivers scfg x) {k : ℕ} {o : Client.SessionObj} (h : Reached x k o) :
    ∃ r, x.responses[k]? = some r ∧ (x.net.client.cl.heap o).sessionId = r.sessionId := by
  rcases h with ⟨f, hf, rfl, rfl⟩ | ⟨t, r, a, ht, rfl, ho⟩
  · obtain ⟨-, r, hr, -, hid⟩ := hi.forwarded f hf
    exact ⟨r, hr, hid⟩
  · exact ⟨_, hi.accounts.handling t r ht, hi.own t r a o ht ho⟩

/-- What an object's window let through went to the source of the object. -/
theorem owns_of_letThrough (hi : Delivers scfg x) {k : ℕ} {a : SocketAddr}
    {o : Client.SessionObj} (h : LetThrough x k a o) :
    Client.Owns x.net.client.cl x.net.clientLog a o := by
  rcases h with ⟨f, hf, -, rfl, rfl⟩ | ⟨t, r, ht, -, hp⟩
  · exact (hi.forwarded f hf).1
  · exact hi.net.objects.responses t r a o ht (obj_of_passed hp)

/-- The id of a live session was assigned to its source. -/
theorem created_of_live (hi : Delivers scfg x) {sid : UInt64} {a : SocketAddr}
    {o : Client.SessionObj} (h : Live x.net.client.cl sid a o) :
    .created o sid a ∈ x.net.clientLog := by
  have hm := (hi.net.objects.sessions a o h.1).2
  rw [h.2] at hm
  exact hm

/-- A response has gone to the source that its session belongs to. -/
theorem source_of_letThrough (hi : Delivers scfg x) {k : ℕ} {a a' : SocketAddr}
    {o o' : Client.SessionObj} {r : Server.Response} (h : LetThrough x k a' o')
    (hr : x.responses[k]? = some r) (hc : .created o r.sessionId a ∈ x.net.clientLog) :
    a' = a ∧ o' = o := by
  have hown := (hi.owns_of_letThrough h).2
  obtain ⟨r', hr', hid⟩ := hi.of_reached h.reached
  obtain rfl := Option.some.inj (hr'.symm.trans hr)
  rw [hid] at hown
  obtain ⟨ho, ha⟩ := Client.created_unique hi.nodup hown hc
  exact ⟨ha, ho⟩

/-! ### Moves of the server -/

/-- The id of a packet in hand was assigned by the client. -/
theorem assigned_of_handler (hi : Delivers scfg x) {t : Server.Task} {h : Server.Handler}
    (ht : x.net.server.handlers t = some h) :
    h.sessionId ∈ Client.createdIds x.net.clientLog := by
  obtain ⟨a, ⟨⟨o, ho⟩, -⟩, -⟩ :=
    hi.net.sentFor_of_requested h.source (hi.net.requests.handlers t h ht)
  exact Client.mem_createdIds ho

/-- What a step of the server does to the counters of the sessions. -/
theorem numbering (hi : Delivers scfg x) {se : Server.Event} {srv : Server}
    {rn : Option Server.Response} (hc : Steady x (.move (.server se)))
    (hn : Server.Numbers x.net.server se srv rn)
    (hfew : (x.responses ++ rn.toList).length < 2 ^ 32) :
    (∀ sid o, srv.sessions sid = some o → sid ∈ Client.createdIds x.net.clientLog) ∧
      (∀ r ∈ x.responses ++ rn.toList, r.sessionId ∈ Client.createdIds x.net.clientLog) ∧
      (∀ o, (srv.heap o).responseSeq.toNat ≤ (x.responses ++ rn.toList).length) ∧
      ∀ sid a o, Live x.net.client.cl sid a o →
        srv.Numbering (x.responses ++ rn.toList) sid := by
  cases hn with
  | same hsame =>
      simp only [Option.toList_none, List.append_nil]
      refine ⟨fun sid o ho => hi.sessions sid o (hsame.sessions sid o ho), hi.responses,
        fun o => ?_, fun sid a o hl => (hi.numbers sid a o hl).same hsame⟩
      rw [hsame.responseSeq]
      exact hi.counters o
  | @created t h now b' ht hpc hnone =>
      simp only [Option.toList_none, List.append_nil]
      have halloc : ∀ sid o, x.net.server.srv.sessions sid = some o → o ≠ x.net.server.srv.next :=
        fun sid o h => Nat.ne_of_lt (hi.served.sessions sid o h).1
      refine ⟨fun sid o ho => ?_, hi.responses, fun o => ?_, fun sid a o hl => ?_⟩
      · simp only [Server.createSession, hnone, if_true] at ho
        by_cases he : sid = h.sessionId
        · rw [he]
          exact hi.assigned_of_handler ht
        · rw [Function.update_of_ne he] at ho
          exact hi.sessions sid o ho
      · simp only [Server.createSession, hnone, if_true]
        by_cases he : o = x.net.server.srv.next
        · rw [he, Function.update_self]
          exact Nat.zero_le _
        · rw [Function.update_of_ne he]
          exact hi.counters o
      · refine (hi.numbers sid a o hl).create hnone halloc ?_
        rintro rfl
        exact (hc h ht hpc hnone).resolve_right fun hdead => hdead a o hl
  | @numbered o o' payload now b srv hpc hs hsess hheap =>
      simp only [Option.toList_some, List.length_append, List.length_singleton] at hfew ⊢
      have hcount := hi.counters o'
      have hfit : (x.net.server.srv.heap o').responseSeq.toNat + 1 < 2 ^ 32 := by omega
      refine ⟨fun sid o ho => ?_, fun r hr => ?_, fun o'' => ?_, fun sid a o hl => ?_⟩
      · rw [hsess] at ho
        exact hi.sessions sid o ho
      · rcases List.mem_append.mp hr with hr | hr
        · exact hi.responses r hr
        · rw [List.mem_singleton.mp hr]
          exact hi.sessions _ o' hs
      · rw [hheap, Server.takeResponseSeq_responseSeq]
        split
        · rw [UInt32.toNat_add]
          exact le_trans (Nat.mod_le _ _) (Nat.succ_le_succ hcount)
        · exact Nat.le_succ_of_le (hi.counters o'')
      · exact (hi.numbers sid a o hl).number hs hsess hheap hfit

/-- A move of the server. -/
theorem server (hi : Delivers scfg x) {se : Server.Event} {s' : Server.State}
    {so : List Server.Obs} (hc : Steady x (.move (.server se)))
    (hdel : x.net.deliverable (.server se) = true) (hs : Server.step x.net.server se = some (s', so))
    (hfew : (x.serverMove se s' so).responses.length < 2 ^ 32) :
    Delivers scfg (x.serverMove se s' so) := by
  have ha := Server.act_of_step hs
  have hacc := hi.accounts.server ha
  have hnet : Network.Inv (x.serverMove se s' so).net := hi.net.server hdel hs
  have hserved : Server.Objects scfg s' (x.net.serverLog ++ so) := hi.served.act ha
  have hold : ∀ {k : ℕ} {r : Server.Response}, x.responses[k]? = some r →
      (x.responses ++ (x.net.server.numbers se).toList)[k]? = some r := by
    intro k r h
    rw [List.getElem?_append_left (List.getElem?_eq_some_iff.mp h).1]
    exact h
  unfold serverMove at hacc hfew ⊢
  rw [noteServer_eq] at hacc hfew ⊢
  obtain ⟨hsessions, hresponses, hcounters, hnumbers⟩ := hi.numbering hc ha.numbers hfew
  refine ⟨hnet, hserved, hacc, hi.mapped, hi.sizes, hi.nodup, hsessions, hresponses, hcounters,
    hnumbers, hi.own, fun f hf => ?_, fun o p hp => ?_, fun o k k' r r' hk hk' hr hr' => ?_⟩
  · obtain ⟨hown, r, hr, hrest⟩ := hi.forwarded f hf
    exact ⟨hown, r, hold hr, hrest⟩
  · obtain ⟨k, a, r, hl, hr, hseq⟩ := hi.windows o p hp
    exact ⟨k, a, r, hl, hold hr, hseq⟩
  · -- what has been accounted was there before
    have hk : Reached x k o := hk
    have hk' : Reached x k' o := hk'
    obtain ⟨q, hq, -⟩ := hi.of_reached hk
    obtain ⟨q', hq', -⟩ := hi.of_reached hk'
    obtain rfl := Option.some.inj ((hold hq).symm.trans hr)
    obtain rfl := Option.some.inj ((hold hq').symm.trans hr')
    exact hi.distinct o k k' q q' hk hk' hq hq'

/-! ### Moves of the client -/

/-- Frame rule for a move of the client.  What is let through stays let through, and what is
accounted to an object was before, or is a response of the live session. -/
theorem clientFrame (hi : Delivers scfg x) {ce : Client.Event} {s' : Client.State}
    {co : List Client.Obs} {fs : List Forward} (hnone : ce.packet = none)
    (hs : Client.step x.net.client ce = some (s', co))
    (hnodup : (Client.createdIds (x.net.clientLog ++ co)).Nodup)
    (hlive : ∀ sid a o, Live s'.cl sid a o → Live x.net.client.cl sid a o ∨
      sid ∉ Client.createdIds x.net.clientLog)
    (hresp : ∀ t r' a o, s'.responses t = some r' → r'.pc.obj = some (a, o) →
      ∃ r, x.net.client.responses t = some r ∧ r'.sessionId = r.sessionId ∧
        (r.pc.obj = some (a, o) ∨ Live x.net.client.cl r.sessionId a o))
    (hthrough : ∀ k a o, LetThrough x k a o → LetThrough (x.clientMove s' co fs) k a o)
    (hfs : ∀ f ∈ fs, ∃ t r, x.net.client.responses t = some r ∧
      r.pc.obj = some (f.source, f.obj) ∧ f.response = x.handling t ∧ f.payload = r.payload)
    (hchecks : ∀ o, ∀ p ∈ Client.checks co o, ∃ t a r, x.net.client.responses t = some r ∧
      r.seq = p.1 ∧ LetThrough (x.clientMove s' co fs) (x.handling t) a o) :
    Delivers scfg (x.clientMove s' co fs) := by
  have ha := Client.act_of_step hs
  have hkeep : ∀ a o, Client.Owns x.net.client.cl x.net.clientLog a o →
      Client.Owns s'.cl (x.net.clientLog ++ co) a o ∧
        (s'.cl.heap o).sessionId = (x.net.client.cl.heap o).sessionId := by
    intro a o hown
    obtain ⟨hlt, hid⟩ := ha.keeps_object hown.1
    exact ⟨⟨hlt, hid ▸ List.mem_append_left _ hown.2⟩, hid⟩
  have hcreated : ∀ sid ∈ Client.createdIds x.net.clientLog,
      sid ∈ Client.createdIds (x.net.clientLog ++ co) := by
    intro sid hsid
    rw [Client.createdIds_append]
    exact List.mem_append_left _ hsid
  -- what is accounted to an object now
  have hreached : ∀ {k : ℕ} {o : Client.SessionObj}, Reached (x.clientMove s' co fs) k o →
      Reached x k o ∨ ∃ r a, x.responses[k]? = some r ∧ Live x.net.client.cl r.sessionId a o := by
    rintro k o (⟨f, hf, rfl, rfl⟩ | ⟨t, r', a, ht, rfl, ho⟩)
    · rcases List.mem_append.mp hf with hf | hf
      · exact Or.inl (Or.inl ⟨f, hf, rfl, rfl⟩)
      · obtain ⟨t, r, ht, ho, hk, -⟩ := hfs f hf
        exact Or.inl (Or.inr ⟨t, r, f.source, ht, hk.symm, ho⟩)
    · obtain ⟨r, ht, -, ho | hl⟩ := hresp t r' a o ht ho
      · exact Or.inl (Or.inr ⟨t, r, a, ht, rfl, ho⟩)
      · exact Or.inr ⟨_, a, hi.accounts.handling t r ht, hl⟩
  refine ⟨hi.net.client (Network.deliverable_of_no_packet hnone) hs, hi.served,
    hi.accounts.client hnone ha, hi.mapped.act hi.net.objects ha hnodup,
    ha.keeps_size hi.sizes, hnodup, fun sid o ho => hcreated sid (hi.sessions sid o ho),
    fun r hr => hcreated _ (hi.responses r hr), hi.counters, fun sid a o hl => ?_,
    fun t r' a o ht ho => ?_, fun f hf => ?_, fun o p hp => ?_,
    fun o k k' r r' hk hk' hr hr' hseq => ?_⟩
  · rcases hlive sid a o hl with hold | hfresh
    · exact hi.numbers sid a o hold
    · exact Server.Numbering.of_unnumbered fun r hr he => hfresh (he ▸ hi.responses r hr)
  · obtain ⟨r, ht, hsid, ho | hl⟩ := hresp t r' a o ht ho
    · rw [hsid, ← hi.own t r a o ht ho]
      exact (hkeep a o (hi.net.objects.responses t r a o ht ho)).2
    · rw [hsid, ← hl.2]
      exact (hkeep a o (hi.net.objects.sessions a o hl.1)).2
  · rcases List.mem_append.mp hf with hf | hf
    · obtain ⟨hown, r, hr, hpayload, hid⟩ := hi.forwarded f hf
      exact ⟨(hkeep _ _ hown).1, r, hr, hpayload, (hkeep _ _ hown).2.trans hid⟩
    · obtain ⟨t, r, ht, ho, hk, hpayload⟩ := hfs f hf
      have hown := hi.net.objects.responses t r _ _ ht ho
      exact ⟨(hkeep _ _ hown).1, _, hk ▸ hi.accounts.handling t r ht, hpayload,
        (hkeep _ _ hown).2.trans (hi.own t r _ _ ht ho)⟩
  · rw [show (x.clientMove s' co fs).net.clientLog = x.net.clientLog ++ co from rfl,
      Client.checks_append] at hp
    rcases List.mem_append.mp hp with hp | hp
    · obtain ⟨k, a, r, hl, hr, hseq⟩ := hi.windows o p hp
      exact ⟨k, a, r, hthrough k a o hl, hr, hseq⟩
    · obtain ⟨t, a, r, ht, hseq, hl⟩ := hchecks o p hp
      exact ⟨_, a, _, hl, hi.accounts.handling t r ht, hseq⟩
  · -- of two responses of the live session, no two have one number
    have hlived : ∀ {k k' : ℕ} {q q' : Server.Response} {a : SocketAddr},
        Reached (x.clientMove s' co fs) k' o → x.responses[k]? = some q →
          x.responses[k']? = some q' → Live x.net.client.cl q.sessionId a o →
            q.seq = q'.seq → k = k' := by
      intro k k' q q' a hk' hq hq' hl hseq
      refine (hi.numbers _ a o hl).distinct k k' q q' hq hq' rfl ?_ hseq
      rcases hreached hk' with hold | ⟨q₁, a₁, hq₁, hl₁⟩
      · obtain ⟨q₁, hq₁, hid⟩ := hi.of_reached hold
        obtain rfl := Option.some.inj (hq₁.symm.trans hq')
        exact hid.symm.trans hl.2
      · obtain rfl := Option.some.inj (hq₁.symm.trans hq')
        exact hl₁.2.symm.trans hl.2
    rcases hreached hk with hold | ⟨q, a, hq, hl⟩
    · rcases hreached hk' with hold' | ⟨q, a, hq, hl⟩
      · exact hi.distinct o k k' r r' hold hold' hr hr' hseq
      · obtain rfl := Option.some.inj (hq.symm.trans hr')
        exact (hlived hk hr' hr hl hseq.symm).symm
    · obtain rfl := Option.some.inj (hq.symm.trans hr)
      exact hlived hk' hr hr' hl hseq

end Delivers

theorem LetThrough.quiet {x : Exchange} {k : ℕ} {a : SocketAddr} {o : Client.SessionObj}
    (h : LetThrough x k a o) {s' : Client.State} {co : List Client.Obs} {fs : List Forward}
    (hresp : s'.responses = x.net.client.responses) :
    LetThrough (x.clientMove s' co fs) k a o := by
  rcases h with ⟨f, hf, hrest⟩ | ⟨t, r, ht, hrest⟩
  · exact Or.inl ⟨f, List.mem_append_left _ hf, hrest⟩
  · exact Or.inr ⟨t, r, (congrFun hresp t).trans ht, hrest⟩

namespace Delivers

variable {scfg : Server.ServerConfig} {x : Exchange}

/-- Frame rule for a move of the client that is none of a reader's. -/
theorem quietFrame (hi : Delivers scfg x) {ce : Client.Event} {s' : Client.State}
    {co : List Client.Obs} (hnone : ce.packet = none)
    (hs : Client.step x.net.client ce = some (s', co))
    (hnodup : (Client.createdIds (x.net.clientLog ++ co)).Nodup)
    (hlive : ∀ sid a o, Live s'.cl sid a o → Live x.net.client.cl sid a o ∨
      sid ∉ Client.createdIds x.net.clientLog)
    (hresp : s'.responses = x.net.client.responses) (hchecks : ∀ o, Client.checks co o = []) :
    Delivers scfg (x.clientMove s' co []) := by
  refine hi.clientFrame hnone hs hnodup hlive (fun t r' a o ht ho => ?_)
    (fun k a o h => h.quiet hresp) (fun f hf => absurd hf List.not_mem_nil) fun o p hp => ?_
  · exact ⟨r', hresp ▸ ht, rfl, Or.inl ho⟩
  · rw [hchecks] at hp
    exact absurd hp List.not_mem_nil

end Delivers

/-- What is let through stays let through when a reader moves, if the reader stays past the check
or sends its response on. -/
theorem LetThrough.reader {x : Exchange} {k : ℕ} {a : SocketAddr} {o : Client.SessionObj}
    (h : LetThrough x k a o) {t : Client.Responder} {r : Client.Response}
    {r' : Option Client.Response} {cl : Client} {co : List Client.Obs} {fs : List Forward}
    (ht : x.net.client.responses t = some r)
    (hpass : ∀ q, passed r.pc = some q → (∃ r₁, r' = some r₁ ∧ passed r₁.pc = some q) ∨
      ⟨x.handling t, q.2, q.1, r.payload⟩ ∈ fs) :
    LetThrough (x.clientMove ({ x.net.client with cl := cl }.setResponse t r') co fs) k a o := by
  rcases h with ⟨f, hf, hrest⟩ | ⟨t', r₁, ht', hk, hp⟩
  · exact Or.inl ⟨f, List.mem_append_left _ hf, hrest⟩
  · by_cases he : t' = t
    · subst he
      obtain rfl := Option.some.inj (ht'.symm.trans ht)
      rcases hpass _ hp with ⟨r₂, rfl, hp₂⟩ | hf
      · exact Or.inr ⟨t', r₂, by simp [clientMove, Client.State.setResponse], hk, hp₂⟩
      · exact Or.inl ⟨_, List.mem_append_right _ hf, hk, rfl, rfl⟩
    · exact Or.inr ⟨t', r₁, by simpa [clientMove, Client.State.setResponse, he] using ht', hk, hp⟩

namespace Delivers

variable {scfg : Server.ServerConfig} {x : Exchange}

/-- Frame rule for a move of a reader. -/
theorem readerFrame (hi : Delivers scfg x) {ce : Client.Event} {t : Client.Responder}
    {r : Client.Response} {r' : Option Client.Response} {cl : Client} {co : List Client.Obs}
    {fs : List Forward} (hnone : ce.packet = none)
    (hs : Client.step x.net.client ce =
      some ({ x.net.client with cl := cl }.setResponse t r', co))
    (htables : Client.SameTables x.net.client.cl cl) (hids : Client.createdIds co = [])
    (ht : x.net.client.responses t = some r)
    (hgoes : ∀ r₁ a o, r' = some r₁ → r₁.pc.obj = some (a, o) → r₁.sessionId = r.sessionId ∧
      (r.pc.obj = some (a, o) ∨ Live x.net.client.cl r.sessionId a o))
    (hpass : ∀ q, passed r.pc = some q → (∃ r₁, r' = some r₁ ∧ passed r₁.pc = some q) ∨
      ⟨x.handling t, q.2, q.1, r.payload⟩ ∈ fs)
    (hfs : ∀ f ∈ fs, r.pc.obj = some (f.source, f.obj) ∧ f.response = x.handling t ∧
      f.payload = r.payload)
    (hchecks : ∀ o, ∀ p ∈ Client.checks co o, r.seq = p.1 ∧ ∃ a, LetThrough
      (x.clientMove ({ x.net.client with cl := cl }.setResponse t r') co fs) (x.handling t) a o) :
    Delivers scfg (x.clientMove ({ x.net.client with cl := cl }.setResponse t r') co fs) := by
  refine hi.clientFrame hnone hs ?_ (fun sid a o hl => Or.inl (htables.live_iff.mp hl))
    (fun t' r₁ a o ht' ho => ?_) (fun k a o h => h.reader ht hpass) (fun f hf => ?_)
    fun o p hp => ?_
  · rw [Client.createdIds_append, hids, List.append_nil]
    exact hi.nodup
  · rcases Client.responses_setResponse ht' with ⟨rfl, hset⟩ | hold
    · obtain ⟨hsid, hrest⟩ := hgoes r₁ a o hset ho
      exact ⟨r, ht, hsid, hrest⟩
    · exact ⟨r₁, hold, rfl, Or.inl ho⟩
  · exact ⟨t, r, ht, hfs f hf⟩
  · obtain ⟨hseq, a, hl⟩ := hchecks o p hp
    exact ⟨t, a, r, ht, hseq, hl⟩

/-- A response that the window rejects, it has let through before. -/
theorem letThrough_of_rejects (hi : Delivers scfg x) {t : Client.Responder} {r : Client.Response}
    {a : SocketAddr} {o : Client.SessionObj} {now : ℕ} {b : Bool}
    (hc : Steady x (.move (.client (.responder t now b))))
    (ht : x.net.client.responses t = some r) (hpc : r.pc = .check a o)
    (hrej : (x.net.client.cl.heap o).responseDedup.Rejects r.seq) :
    ∃ a', LetThrough x (x.handling t) a' o := by
  by_contra hnot
  obtain ⟨hfirst, hnear⟩ := ((hc r ht).2 a o hpc).resolve_left hnot
  have htracks : Tracks (x.net.client.cl.heap o).responseDedup (Client.checks x.net.clientLog o) :=
    hi.net.objects.tracks o
  refine htracks.not_rejects (fun hseen => ?_) hfirst (fun p hp => ?_) hrej
  · -- a response with this number was let through, and it is this one
    obtain ⟨p, hp, hseq⟩ := List.mem_map.mp hseen
    obtain ⟨k, a', r', hl, hr', hseq'⟩ := hi.windows o p hp
    have hown : Reached x (x.handling t) o := Or.inr ⟨t, r, a, ht, rfl, by rw [hpc]; rfl⟩
    have hk := hi.distinct o k (x.handling t) r' _ hl.reached hown hr'
      (hi.accounts.handling t r ht) (hseq'.trans hseq)
    exact hnot ⟨a', hk ▸ hl⟩
  · rw [hi.sizes]
    exact hnear p hp

/-- A move of the client. -/
theorem client (hi : Delivers scfg x) {ce : Client.Event} {s' : Client.State}
    {co : List Client.Obs} (hc : Steady x (.move (.client ce))) (hnone : ce.packet = none)
    (hs : Client.step x.net.client ce = some (s', co)) :
    Delivers scfg (x.clientMove s' co (x.sentOn ce)) := by
  have hrefl := Client.SameTables.refl x.net.client.cl
  have hnodup : Client.createdIds co = [] →
      (Client.createdIds (x.net.clientLog ++ co)).Nodup := by
    intro hids
    rw [Client.createdIds_append, hids, List.append_nil]
    exact hi.nodup
  -- a move of another task
  have hquiet : Client.createdIds co = [] → Client.SameTables x.net.client.cl s'.cl →
      s'.responses = x.net.client.responses → (∀ o, Client.checks co o = []) →
      x.sentOn ce = [] → Delivers scfg (x.clientMove s' co (x.sentOn ce)) := by
    intro hids htables hresp hchecks hsent
    rw [hsent]
    exact hi.quietFrame hnone hs (hnodup hids) (fun _ _ _ hl => Or.inl (htables.live_iff.mp hl))
      hresp hchecks
  cases Client.act_of_step hs with
  | udpUndecodable | frameUndecodable _ | udpArrives _ _ | frameEnds _ _ _ =>
      exact absurd hnone (by simp [Client.Event.packet])
  | number _ _ =>
      exact hquiet rfl ⟨rfl, rfl, rfl, fun _ => Client.takeSeq_sessionId _ _ _⟩ rfl (fun _ => rfl)
        rfl
  | touch _ _ =>
      exact hquiet rfl ⟨rfl, rfl, rfl, fun _ => Client.touch_sessionId _ _ _ _⟩ rfl (fun _ => rfl)
        rfl
  | @udpSend _ _ _ _ _ _ _ _ b' _ _ | @tcpSend _ _ _ _ _ _ _ _ _ b' _ _ _ =>
      cases b' <;> exact hquiet rfl hrefl rfl (fun _ => rfl) rfl
  | tcpCreateNew _ _ hmiss =>
      refine hquiet rfl ⟨?_, ?_, ?_, fun _ => ?_⟩ rfl (fun _ => rfl) rfl <;>
        simp [Client.createTcpSession, hmiss]
  | cleanup _ =>
      exact hquiet rfl ((Client.cleanupTcpSession_sameTables _ _).trans
        (Client.setReader_sameTables _ _ _)) rfl (fun _ => rfl) rfl
  | @createNew h now random b b' ht hpc hmiss =>
      have hfresh := hc h ht hpc hmiss
      refine hi.quietFrame hnone hs ?_ (fun sid a o hl => ?_) rfl fun _ => rfl
      · rw [Client.createdIds_append]
        refine List.nodup_append.mpr ⟨hi.nodup, List.nodup_singleton _, ?_⟩
        rintro sid hsid _ hnew rfl
        rw [List.mem_singleton.mp hnew] at hsid
        exact hfresh hsid
      · have halloc : ∀ a o, x.net.client.cl.udpSessions a = some o → o ≠ x.net.client.cl.next :=
          fun a o h => Nat.ne_of_lt (hi.net.objects.sessions a o h).1
        rcases Client.Live.of_create hmiss halloc hl with ⟨-, -, rfl⟩ | hold
        · exact Or.inr hfresh
        · exact Or.inl hold
  | sweepUdp _ =>
      exact hi.quietFrame hnone hs (hnodup rfl) (fun _ _ _ hl => Or.inl hl.of_sweep) rfl
        fun _ => rfl
  | @addrHit t r a now b ht hpc _ =>
      rw [show x.sentOn (.responder t now b) = [] by simp only [sentOn, ht, hpc]]
      exact hi.readerFrame hnone hs hrefl rfl ht
        (fun r₁ a' o hr₁ ho => absurd (Option.some.inj hr₁ ▸ ho) (by simp [Client.ResponsePc.obj]))
        (fun q hq => absurd hq (by simp [hpc, passed])) (fun f hf => absurd hf List.not_mem_nil)
        fun o p hp => absurd hp List.not_mem_nil
  | @addrMiss t r now b ht hpc _ =>
      rw [show x.sentOn (.responder t now b) = [] by simp only [sentOn, ht, hpc]]
      exact hi.readerFrame hnone hs hrefl rfl ht (fun r₁ a' o hr₁ ho => absurd hr₁ (by simp))
        (fun q hq => absurd hq (by simp [hpc, passed])) (fun f hf => absurd hf List.not_mem_nil)
        fun o p hp => absurd hp List.not_mem_nil
  | @sessionHit t r a o now b ht hpc hsess =>
      have hlive : Live x.net.client.cl r.sessionId a o := ⟨hsess, (hc r ht).1 a o hpc hsess⟩
      rw [show x.sentOn (.responder t now b) = [] by simp only [sentOn, ht, hpc]]
      refine hi.readerFrame hnone hs hrefl rfl ht (fun r₁ a' o' hr₁ ho => ?_)
        (fun q hq => absurd hq (by simp [hpc, passed])) (fun f hf => absurd hf List.not_mem_nil)
        fun o p hp => absurd hp List.not_mem_nil
      rw [← Option.some.inj hr₁] at ho ⊢
      obtain ⟨rfl, rfl⟩ := Prod.mk.inj (Option.some.inj ho)
      exact ⟨rfl, Or.inr hlive⟩
  | @sessionMiss t r a now b ht hpc _ =>
      rw [show x.sentOn (.responder t now b) = [] by simp only [sentOn, ht, hpc]]
      exact hi.readerFrame hnone hs hrefl rfl ht (fun r₁ a' o hr₁ ho => absurd hr₁ (by simp))
        (fun q hq => absurd hq (by simp [hpc, passed])) (fun f hf => absurd hf List.not_mem_nil)
        fun o p hp => absurd hp List.not_mem_nil
  | @checkDup t r a o now b ht hpc hdup =>
      obtain ⟨a', hl⟩ := hi.letThrough_of_rejects hc ht hpc ((isDuplicate_iff _ _).mp hdup)
      have hstay : ∀ q, passed r.pc = some q → (∃ r₁, (none : Option Client.Response) = some r₁ ∧
          passed r₁.pc = some q) ∨ ⟨x.handling t, q.2, q.1, r.payload⟩ ∈ ([] : List Forward) :=
        fun q hq => absurd hq (by simp [hpc, passed])
      rw [show x.sentOn (.responder t now b) = [] by simp only [sentOn, ht, hpc]]
      refine hi.readerFrame hnone hs ⟨rfl, rfl, rfl, fun _ => Client.checkResponse_sessionId _ _ _ _⟩
        rfl ht (fun r₁ a' o hr₁ ho => absurd hr₁ (by simp)) hstay
        (fun f hf => absurd hf List.not_mem_nil) fun o' p hp => ?_
      by_cases ho : o = o'
      · subst ho
        obtain rfl : p = (r.seq, false) := by simpa [Client.checks] using hp
        exact ⟨rfl, a', hl.reader ht hstay⟩
      · exact absurd hp (by simp [Client.checks, ho])
  | @checkNew t r a o now b ht hpc hnew =>
      rw [show x.sentOn (.responder t now b) = [] by simp only [sentOn, ht, hpc]]
      refine hi.readerFrame hnone hs ⟨rfl, rfl, rfl, fun _ => Client.checkResponse_sessionId _ _ _ _⟩
        rfl ht (fun r₁ a' o' hr₁ ho => ?_) (fun q hq => absurd hq (by simp [hpc, passed]))
        (fun f hf => absurd hf List.not_mem_nil) fun o' p hp => ?_
      · rw [← Option.some.inj hr₁] at ho ⊢
        exact ⟨rfl, Or.inl (by rw [hpc]; exact ho)⟩
      · by_cases ho : o = o'
        · subst ho
          obtain rfl : p = (r.seq, true) := by simpa [Client.checks] using hp
          exact ⟨rfl, a, Or.inr ⟨t, { r with pc := .touch a o },
            by simp [clientMove, Client.State.setResponse], rfl, rfl⟩⟩
        · exact absurd hp (by simp [Client.checks, ho])
  | @responseTouch t r a o now b ht hpc =>
      rw [show x.sentOn (.responder t now b) = [] by simp only [sentOn, ht, hpc]]
      refine hi.readerFrame hnone hs ⟨rfl, rfl, rfl, fun _ => Client.touch_sessionId _ _ _ _⟩ rfl ht
        (fun r₁ a' o' hr₁ ho => ?_) (fun q hq => Or.inl ⟨_, rfl, by rw [hpc] at hq; exact hq⟩)
        (fun f hf => absurd hf List.not_mem_nil) fun o p hp => absurd hp List.not_mem_nil
      rw [← Option.some.inj hr₁] at ho ⊢
      exact ⟨rfl, Or.inl (by rw [hpc]; exact ho)⟩
  | @forward t r a o now b ht hpc =>
      rw [show x.sentOn (.responder t now b) = [⟨x.handling t, o, a, r.payload⟩] by
        simp only [sentOn, ht, hpc]]
      refine hi.readerFrame hnone hs hrefl rfl ht (fun r₁ a' o hr₁ ho => absurd hr₁ (by simp))
        (fun q hq => Or.inr ?_) (fun f hf => ?_) fun o p hp => absurd hp List.not_mem_nil
      · rw [hpc] at hq
        rw [← Option.some.inj hq]
        exact List.mem_singleton_self _
      · rw [List.mem_singleton.mp hf, hpc]
        exact ⟨rfl, rfl, rfl⟩
  | _ => exact hquiet rfl ⟨rfl, rfl, rfl, fun _ => rfl⟩ rfl (fun _ => rfl) rfl

/-- A copy comes in. -/
theorem copy (hi : Delivers scfg x) {j k : ℕ} {t : Client.Responder} {r : Server.Response}
    (hnet : Network.Inv (x.copyIn j t k r).net) (hk : x.responses[k]? = some r)
    (hidle : x.net.client.responses t = none) : Delivers scfg (x.copyIn j t k r) := by
  have htables := taken_sameTables x.net.client t r
  have hheap := taken_heap x.net.client t r
  have hthrough : ∀ {k' a o}, LetThrough x k' a o → LetThrough (x.copyIn j t k r) k' a o := by
    rintro k' a o (hf | ⟨t', r', ht', hk', hp⟩)
    · exact Or.inl hf
    · have hne : t' ≠ t := by
        rintro rfl
        exact absurd (hidle.symm.trans ht') (by simp)
      exact Or.inr ⟨t', r', (responses_taken_of_ne _ _ hne).trans ht',
        (Function.update_of_ne hne _ _).trans hk', hp⟩
  -- the reader that took the copy has not accounted it to an object yet
  have hold : ∀ {t' : Client.Responder} {r' : Client.Response} {q : SocketAddr × Client.SessionObj},
      (x.copyIn j t k r).net.client.responses t' = some r' → r'.pc.obj = some q →
        x.net.client.responses t' = some r' ∧ (x.copyIn j t k r).handling t' = x.handling t' := by
    intro t' r' q ht' ho
    rcases responses_taken ht' with ⟨-, -, -, -, hnone⟩ | ⟨hne, hold⟩
    · exact absurd (hnone.symm.trans ho) (by simp)
    · exact ⟨hold, Function.update_of_ne hne _ _⟩
  have hreached : ∀ {k' o}, Reached (x.copyIn j t k r) k' o → Reached x k' o := by
    rintro k' o (hf | ⟨t', r', a, ht', hk', ho⟩)
    · exact Or.inl hf
    · obtain ⟨ht', hh⟩ := hold ht' ho
      exact Or.inr ⟨t', r', a, ht', hh.symm.trans hk', ho⟩
  refine ⟨hnet, hi.served, hi.accounts.copy hk, hi.mapped.same htables,
    fun o => (congrArg (fun u => u.responseDedup.size) (hheap o)).trans (hi.sizes o), hi.nodup,
    hi.sessions, hi.responses, hi.counters,
    fun sid a o hl => hi.numbers sid a o (htables.live_iff.mp hl), fun t' r' a o ht' ho => ?_,
    fun f hf => ?_, fun o p hp => ?_, fun o k₁ k₂ r₁ r₂ h₁ h₂ =>
      hi.distinct o k₁ k₂ r₁ r₂ (hreached h₁) (hreached h₂)⟩
  · exact (htables.sessionId o).trans (hi.own t' r' a o (hold ht' ho).1 ho)
  · obtain ⟨⟨hlt, hm⟩, r', hr', hpayload, hid⟩ := hi.forwarded f hf
    refine ⟨⟨(taken_next _ _ _).symm ▸ hlt, ?_⟩, r', hr', hpayload,
      (htables.sessionId _).trans hid⟩
    exact (htables.sessionId f.obj).symm ▸ hm
  · obtain ⟨k', a, r', hl, hrest⟩ := hi.windows o p hp
    exact ⟨k', a, r', hthrough hl, hrest⟩

/-- The step lemma. -/
theorem step (hi : Delivers scfg x) {e : Event} {x' : Exchange} {obs : List Empty}
    (hc : Steady x e) (hs : Exchange.step x e = some (x', obs))
    (hfew : x'.responses.length < 2 ^ 32) : Delivers scfg x' := by
  rcases cases_step hs with ⟨se, s', so, rfl, hdel, hstep, rfl⟩ |
    ⟨ce, s', co, rfl, hnone, hstep, rfl⟩ | ⟨j, t, k, p, r, rfl, hj, hk, -, hidle, -, hnet, rfl⟩
  · exact hi.server hc hdel hstep hfew
  · exact hi.client hc hnone hstep
  · exact hi.copy (hi.net.step hnet) hk hidle

end Delivers

/-! ### From the arrival of a copy to the source -/

/-- A reader has the response in hand and is on its way to the source with it. -/
def Underway (x : Exchange) (t : Client.Responder) (k : ℕ) (a : SocketAddr) : Prop :=
  ∃ r, x.net.client.responses t = some r ∧ x.handling t = k ∧
    match r.pc with
    | .lookupAddr => ∃ o, Live x.net.client.cl r.sessionId a o
    | .lookupSession source => source = a ∧ ∃ o, Live x.net.client.cl r.sessionId a o
    | .check source _ => source = a
    | .touch source _ => source = a
    | .forward source _ => source = a

/-- The response has been sent on to the source, or a reader is on its way there with it. -/
def Promised (x : Exchange) (k : ℕ) (a : SocketAddr) : Prop :=
  (∃ f ∈ x.forwards, f.response = k ∧ f.source = a) ∨ ∃ t, Underway x t k a

theorem LetThrough.promised {x : Exchange} {k : ℕ} {a : SocketAddr} {o : Client.SessionObj}
    (h : LetThrough x k a o) : Promised x k a := by
  rcases h with ⟨f, hf, hk, ha, -⟩ | ⟨t, r, ht, hk, hp⟩
  · exact Or.inl ⟨f, hf, hk, ha⟩
  · refine Or.inr ⟨t, r, ht, hk, ?_⟩
    cases hpc : r.pc with
    | touch source o' | forward source o' =>
        rw [hpc] at hp
        exact (Prod.mk.inj (Option.some.inj hp)).1
    | _ =>
        rw [hpc] at hp
        exact absurd hp (by simp [passed])

namespace Promised

variable {scfg : Server.ServerConfig} {x : Exchange} {k : ℕ} {a : SocketAddr}

/-- A move that changes neither what the client has in hand nor its tables. -/
theorem frame {x' : Exchange} (h : Promised x k a)
    (hforwards : ∀ f ∈ x.forwards, f ∈ x'.forwards)
    (hresp : ∀ t r, x.net.client.responses t = some r →
      x'.net.client.responses t = some r ∧ x'.handling t = x.handling t)
    (hlive : ∀ t r o, x.net.client.responses t = some r → r.pc.obj = none →
      Live x.net.client.cl r.sessionId a o → x.handling t = k →
        Live x'.net.client.cl r.sessionId a o ∨ Promised x' k a) :
    Promised x' k a := by
  rcases h with ⟨f, hf, hrest⟩ | ⟨t, r, ht, hk, hstage⟩
  · exact Or.inl ⟨f, hforwards f hf, hrest⟩
  · obtain ⟨ht', hh⟩ := hresp t r ht
    cases hpc : r.pc with
    | lookupAddr =>
        rw [hpc] at hstage
        obtain ⟨o, hl⟩ := hstage
        rcases hlive t r o ht (by rw [hpc]; rfl) hl hk with hl' | hdone
        · exact Or.inr ⟨t, r, ht', hh.trans hk, by rw [hpc]; exact ⟨o, hl'⟩⟩
        · exact hdone
    | lookupSession source =>
        rw [hpc] at hstage
        obtain ⟨ha, o, hl⟩ := hstage
        rcases hlive t r o ht (by rw [hpc]; rfl) hl hk with hl' | hdone
        · exact Or.inr ⟨t, r, ht', hh.trans hk, by rw [hpc]; exact ⟨ha, o, hl'⟩⟩
        · exact hdone
    | check source o | touch source o | forward source o =>
        rw [hpc] at hstage
        exact Or.inr ⟨t, r, ht', hh.trans hk, by rw [hpc]; exact hstage⟩

/-- A move of a reader. -/
theorem reader (h : Promised x k a) {t : Client.Responder} {r : Client.Response}
    {r' : Option Client.Response} {cl : Client} {co : List Client.Obs} {fs : List Forward}
    (ht : x.net.client.responses t = some r) (htables : Client.SameTables x.net.client.cl cl)
    (hgoes : Underway x t k a →
      Promised (x.clientMove ({ x.net.client with cl := cl }.setResponse t r') co fs) k a) :
    Promised (x.clientMove ({ x.net.client with cl := cl }.setResponse t r') co fs) k a := by
  by_cases hown : Underway x t k a
  · exact hgoes hown
  · rcases h with ⟨f, hf, hrest⟩ | ⟨t', r₁, ht', hk, hstage⟩
    · exact Or.inl ⟨f, List.mem_append_left _ hf, hrest⟩
    · have hne : t' ≠ t := by
        rintro rfl
        exact hown ⟨r₁, ht', hk, hstage⟩
      refine Or.inr ⟨t', r₁, by simpa [clientMove, Client.State.setResponse, hne] using ht', hk, ?_⟩
      cases hpc : r₁.pc with
      | lookupAddr =>
          rw [hpc] at hstage
          exact hstage.imp fun o hl => htables.live_iff.mpr hl
      | lookupSession source =>
          rw [hpc] at hstage
          exact ⟨hstage.1, hstage.2.imp fun o hl => htables.live_iff.mpr hl⟩
      | check source o | touch source o | forward source o =>
          rw [hpc] at hstage
          exact hstage

/-- A move of the client. -/
theorem client (h : Promised x k a) (hi : Delivers scfg x) {ce : Client.Event}
    {s' : Client.State} {co : List Client.Obs} (hc : Steady x (.move (.client ce)))
    (hnone : ce.packet = none) (hs : Client.step x.net.client ce = some (s', co)) :
    Promised (x.clientMove s' co (x.sentOn ce)) k a := by
  have hrefl := Client.SameTables.refl x.net.client.cl
  -- a move of another task
  have hother : s'.responses = x.net.client.responses →
      (∀ t r o, x.net.client.responses t = some r → r.pc.obj = none →
        Live x.net.client.cl r.sessionId a o → x.handling t = k →
          Live s'.cl r.sessionId a o ∨ Promised (x.clientMove s' co (x.sentOn ce)) k a) →
      Promised (x.clientMove s' co (x.sentOn ce)) k a := fun hresp hlive =>
    h.frame (fun f hf => List.mem_append_left _ hf)
      (fun t r ht => ⟨(congrFun hresp t).trans ht, rfl⟩) hlive
  have hquiet : Client.SameTables x.net.client.cl s'.cl →
      s'.responses = x.net.client.responses →
      Promised (x.clientMove s' co (x.sentOn ce)) k a := fun htables hresp =>
    hother hresp fun _ _ _ _ _ hl _ => Or.inl (htables.live_iff.mpr hl)
  cases Client.act_of_step hs with
  | udpUndecodable | frameUndecodable _ | udpArrives _ _ | frameEnds _ _ _ =>
      exact absurd hnone (by simp [Client.Event.packet])
  | number _ _ => exact hquiet ⟨rfl, rfl, rfl, fun _ => Client.takeSeq_sessionId _ _ _⟩ rfl
  | touch _ _ => exact hquiet ⟨rfl, rfl, rfl, fun _ => Client.touch_sessionId _ _ _ _⟩ rfl
  | tcpCreateNew _ _ hmiss =>
      refine hquiet ⟨?_, ?_, ?_, fun _ => ?_⟩ rfl <;> simp [Client.createTcpSession, hmiss]
  | cleanup _ =>
      exact hquiet ((Client.cleanupTcpSession_sameTables _ _).trans
        (Client.setReader_sameTables _ _ _)) rfl
  | @createNew h' now random b b' _ _ hmiss =>
      refine hother rfl fun t r o _ _ hl _ => Or.inl ?_
      have ha : a ≠ h'.source := by
        rintro rfl
        exact absurd (hmiss.symm.trans hl.1) (by simp)
      have ho : o ≠ x.net.client.cl.next := Nat.ne_of_lt (hi.net.objects.sessions a o hl.1).1
      simp only [Live, Client.createUdpSession, hmiss, Function.update_of_ne ha,
        Function.update_of_ne ho]
      exact hl
  | @sweepUdp now _ =>
      refine hother rfl fun t r o ht ho hl hk => ?_
      rcases hc t r a o ht ho hl with ⟨a', o', hthrough⟩ | hstays
      · obtain ⟨rfl, -⟩ := hi.source_of_letThrough hthrough (hi.accounts.handling t r ht)
          (hi.created_of_live hl)
        subst hk
        exact Or.inr (LetThrough.promised (hthrough.quiet rfl))
      · refine Or.inl ⟨?_, hl.2⟩
        simp only [Client.cleanupExpiredUdp]
        rw [if_neg (by simp [hstays]), hl.1]
  | @addrHit t r source now b ht hpc haddr =>
      refine h.reader ht hrefl ?_
      rintro ⟨r₁, ht₁, hk, hstage⟩
      obtain rfl := Option.some.inj (ht.symm.trans ht₁)
      rw [hpc] at hstage
      obtain ⟨o, hl⟩ := hstage
      have ha := (hi.mapped.agree r.sessionId a).mpr ⟨o, hl⟩
      exact Or.inr ⟨t, { r with pc := .lookupSession source },
        by simp [clientMove, Client.State.setResponse], hk,
        Option.some.inj (haddr.symm.trans ha), o, hl⟩
  | @addrMiss t r now b ht hpc haddr =>
      refine h.reader ht hrefl ?_
      rintro ⟨r₁, ht₁, hk, hstage⟩
      obtain rfl := Option.some.inj (ht.symm.trans ht₁)
      rw [hpc] at hstage
      have ha := (hi.mapped.agree r.sessionId a).mpr hstage
      exact absurd (haddr.symm.trans ha) (by simp)
  | @sessionHit t r source o now b ht hpc _ =>
      refine h.reader ht hrefl ?_
      rintro ⟨r₁, ht₁, hk, hstage⟩
      obtain rfl := Option.some.inj (ht.symm.trans ht₁)
      rw [hpc] at hstage
      exact Or.inr ⟨t, { r with pc := .check source o },
        by simp [clientMove, Client.State.setResponse], hk, hstage.1⟩
  | @sessionMiss t r source now b ht hpc hmiss =>
      refine h.reader ht hrefl ?_
      rintro ⟨r₁, ht₁, hk, hstage⟩
      obtain rfl := Option.some.inj (ht.symm.trans ht₁)
      rw [hpc] at hstage
      obtain ⟨rfl, o, hl⟩ := hstage
      exact absurd (hmiss.symm.trans hl.1) (by simp)
  | @checkDup t r source o now b ht hpc hdup =>
      refine h.reader ht ⟨rfl, rfl, rfl, fun _ => Client.checkResponse_sessionId _ _ _ _⟩ ?_
      rintro ⟨r₁, ht₁, hk, hstage⟩
      obtain rfl := Option.some.inj (ht.symm.trans ht₁)
      rw [hpc] at hstage
      obtain rfl : source = a := hstage
      obtain ⟨a', hthrough⟩ :=
        hi.letThrough_of_rejects hc ht hpc ((isDuplicate_iff _ _).mp hdup)
      have hobj : r.pc.obj = some (source, o) := by rw [hpc]; rfl
      have hown := (hi.net.objects.responses t r source o ht hobj).2
      rw [hi.own t r source o ht hobj] at hown
      obtain ⟨rfl, -⟩ := hi.source_of_letThrough hthrough (hi.accounts.handling t r ht) hown
      rw [← hk]
      exact (hthrough.reader ht fun q hq => absurd hq (by simp [hpc, passed])).promised
  | @checkNew t r source o now b ht hpc _ =>
      refine h.reader ht ⟨rfl, rfl, rfl, fun _ => Client.checkResponse_sessionId _ _ _ _⟩ ?_
      rintro ⟨r₁, ht₁, hk, hstage⟩
      obtain rfl := Option.some.inj (ht.symm.trans ht₁)
      rw [hpc] at hstage
      exact Or.inr ⟨t, { r with pc := .touch source o },
        by simp [clientMove, Client.State.setResponse], hk, hstage⟩
  | @responseTouch t r source o now b ht hpc =>
      refine h.reader ht ⟨rfl, rfl, rfl, fun _ => Client.touch_sessionId _ _ _ _⟩ ?_
      rintro ⟨r₁, ht₁, hk, hstage⟩
      obtain rfl := Option.some.inj (ht.symm.trans ht₁)
      rw [hpc] at hstage
      exact Or.inr ⟨t, { r with pc := .forward source o },
        by simp [clientMove, Client.State.setResponse], hk, hstage⟩
  | @forward t r source o now b ht hpc =>
      refine h.reader ht hrefl ?_
      rintro ⟨r₁, ht₁, hk, hstage⟩
      obtain rfl := Option.some.inj (ht.symm.trans ht₁)
      rw [hpc] at hstage
      refine Or.inl ⟨⟨x.handling t, o, source, r.payload⟩, List.mem_append_right _ ?_, hk, hstage⟩
      simp only [sentOn, ht, hpc, List.mem_singleton]
  | _ => exact hquiet ⟨rfl, rfl, rfl, fun _ => rfl⟩ rfl

/-- The step lemma. -/
theorem step (h : Promised x k a) (hi : Delivers scfg x) {e : Event} {x' : Exchange}
    {obs : List Empty} (hc : Steady x e) (hs : Exchange.step x e = some (x', obs)) :
    Promised x' k a := by
  rcases cases_step hs with ⟨se, s', so, rfl, hdel, hstep, rfl⟩ |
    ⟨ce, s', co, rfl, hnone, hstep, rfl⟩ | ⟨j, t, k', p, r, rfl, hj, hk, -, hidle, -, hnet, rfl⟩
  · unfold serverMove
    rw [noteServer_eq]
    exact h.frame (fun f hf => hf) (fun t r ht => ⟨ht, rfl⟩) fun _ _ _ _ _ hl _ => Or.inl hl
  · exact h.client hi hc hnone hstep
  · have htables := taken_sameTables x.net.client t r
    refine h.frame (fun f hf => hf) (fun t' r' ht' => ?_)
      fun _ _ _ _ _ hl _ => Or.inl (htables.live_iff.mpr hl)
    have hne : t' ≠ t := by
      rintro rfl
      exact absurd (hidle.symm.trans ht') (by simp)
    exact ⟨(responses_taken_of_ne _ _ hne).trans ht', Function.update_of_ne hne _ _⟩

/-- A copy that comes in while the tables hold the session is on its way to the session's
source. -/
theorem of_copy (hi : Delivers scfg x) {j : ℕ} {t : Client.Responder} {r : Server.Response}
    {o : Client.SessionObj} (hbody : ∀ c, t = .tcp c → (x.net.client.cl.readers c).pc = .readBody)
    (hdel : x.net.deliverable
      (.client (arrives t (encodePacket r.sessionId r.seq r.payload))) = true)
    (hl : Live x.net.client.cl r.sessionId a o) : Promised (x.copyIn j t k r) k a := by
  have htables := taken_sameTables x.net.client t r
  have hl' : Live (x.copyIn j t k r).net.client.cl r.sessionId a o := htables.live_iff.mpr hl
  have hk : (x.copyIn j t k r).handling t = k := Function.update_self _ _ _
  cases t with
  | udp i =>
      exact Or.inr ⟨.udp i, ⟨r.sessionId, r.seq, r.payload, .lookupAddr⟩,
        by simp [copyIn, taken, Client.State.setResponse], hk, o, hl'⟩
  | tcp c =>
      refine Or.inr ⟨.tcp c, ⟨r.sessionId, r.seq, r.payload,
        .lookupSession (x.net.client.cl.readers c).source⟩,
        by simp [copyIn, taken, Client.State.setResponse], hk, ?_, o, hl'⟩
      -- the connection was opened for the source whose session this is
      have hresponded := Network.responded_of_deliverable hdel (.tcp c) _ rfl
      obtain ⟨a', ⟨o', hassigned⟩, hopened⟩ := (hi.net.read_of_responded hresponded).2 c rfl
      obtain ⟨-, rfl⟩ := Client.created_unique hi.nodup hassigned (hi.created_of_live hl)
      refine hi.net.sends.owner c _ _ (hi.net.sends.readers c ?_) hopened
      rw [hbody c rfl]
      exact Client.ReaderPc.noConfusion

end Promised

/-- A reader that has nothing in hand takes up a response as a copy only. -/
theorem idle_of_step {x x' : Exchange} {e : Event} {obs : List Empty} {t : Client.Responder}
    (hs : Exchange.step x e = some (x', obs)) (hidle : x.net.client.responses t = none)
    (hother : ∀ j, e ≠ .copy j t) : x'.net.client.responses t = none := by
  rcases cases_step hs with ⟨se, s', so, -, -, -, rfl⟩ | ⟨ce, s', co, -, hnone, hstep, rfl⟩ |
    ⟨j, t', k, p, r, rfl, -, -, -, -, -, -, rfl⟩
  · exact hidle
  · by_contra hsome
    obtain ⟨r', hr'⟩ := Option.ne_none_iff_exists'.mp hsome
    obtain ⟨r, hr, -⟩ := (Client.act_of_step hstep).had_in_hand hnone hr'
    exact absurd (hidle.symm.trans hr) (by simp)
  · have hne : t ≠ t' := by
      rintro rfl
      exact hother j rfl
    exact (responses_taken_of_ne _ _ hne).trans hidle

/-! ### Runs -/

section Runs

variable {ccfg : Client.ClientConfig} {counter : UInt64} {scfg : Server.ServerConfig}
  {es : List Event} {x : Exchange} {tr : List Empty}

/-- Responses keep their numbers. -/
theorem responses_prefix_of_step {x x' : Exchange} {e : Event} {obs : List Empty}
    (hs : Exchange.step x e = some (x', obs)) : x.responses <+: x'.responses := by
  rcases cases_step hs with ⟨se, s', so, -, -, -, rfl⟩ | ⟨ce, s', co, -, -, -, rfl⟩ |
    ⟨j, t, k, p, r, -, -, -, -, -, -, -, rfl⟩
  · unfold serverMove
    rw [noteServer_eq]
    exact List.prefix_append _ _
  · exact List.prefix_refl _
  · exact List.prefix_refl _

theorem responses_prefix_of_exec {pre : List Event} {y : Exchange} {tr' : List Empty}
    (hpre : pre <+: es) (hexec : (machine ccfg counter scfg).exec pre = some (y, tr'))
    (hrun : (machine ccfg counter scfg).exec es = some (x, tr)) : y.responses <+: x.responses := by
  obtain ⟨suf, rfl⟩ := hpre
  induction suf using List.reverseRecOn generalizing x tr with
  | nil =>
      rw [List.append_nil, hexec] at hrun
      obtain ⟨rfl, -⟩ := Prod.mk.inj (Option.some.inj hrun)
      exact List.prefix_refl _
  | append_singleton suf e ih =>
      rw [← List.append_assoc] at hrun
      obtain ⟨x₀, tr₀, o, hrun₀, hs, -⟩ := (machine ccfg counter scfg).exec_snoc.mp hrun
      exact (ih hrun₀).trans (responses_prefix_of_step hs)

/-- The run lemma. -/
theorem delivers_exec
    (hsteady : (machine ccfg counter scfg).Each (fun x _ e => Steady x e) es)
    (hrun : (machine ccfg counter scfg).exec es = some (x, tr))
    (hfew : x.responses.length < 2 ^ 32) : Delivers scfg x := by
  revert hfew
  refine Machine.invariant_of_each
    (I := fun x _ => x.responses.length < 2 ^ 32 → Delivers scfg x) (fun _ => ?_)
    (fun x tr e x' o hi hc hs hfew => ?_) hsteady hrun
  · refine ⟨Network.inv_exec (Network.machine ccfg counter scfg).exec_nil,
      Server.objects_exec (Server.machine scfg).exec_nil,
      accounts_exec (machine ccfg counter scfg).exec_nil, ⟨?_, ?_⟩, fun _ => rfl, List.nodup_nil,
      ?_, fun _ h => absurd h List.not_mem_nil, fun _ => Nat.zero_le _, ?_, ?_,
      fun _ h => absurd h List.not_mem_nil, fun _ _ h => absurd h List.not_mem_nil,
      fun _ _ _ _ _ _ _ h => absurd h (by simp [machine])⟩
    · exact fun _ _ h => absurd h (by simp [machine, Network.machine, Client.machine, Client.new])
    · intro sid a
      simp [machine, Network.machine, Client.machine, Client.new, Live]
    · exact fun _ _ h => absurd h (by simp [machine, Network.machine, Server.machine, Server.new])
    · exact fun _ _ _ h => absurd h.1
        (by simp [machine, Network.machine, Client.machine, Client.new])
    · exact fun _ _ _ _ h => absurd h (by simp [machine, Network.machine, Client.machine])
  · have hle := (responses_prefix_of_step hs).length_le
    exact (hi (by omega)).step hc hs hfew

/-- From the arrival of a copy on, the response is on its way to the source or has been sent on. -/
theorem promised_exec {pre post : List Event} {j k : ℕ} {t : Client.Responder} {y : Exchange}
    {tr' : List Empty} {p : Server.ClientPath} {r : Server.Response} {a : SocketAddr}
    {o : Client.SessionObj}
    (hsteady : (machine ccfg counter scfg).Each (fun x _ e => Steady x e)
      (pre ++ Event.copy j t :: post))
    (hexec : (machine ccfg counter scfg).exec pre = some (y, tr'))
    (hrun : (machine ccfg counter scfg).exec (pre ++ Event.copy j t :: post) = some (x, tr))
    (hfew : x.responses.length < 2 ^ 32) (hj : y.copies[j]? = some (k, p))
    (hr : y.responses[k]? = some r) (hl : Live y.net.client.cl r.sessionId a o) :
    Promised x k a := by
  induction post using List.reverseRecOn generalizing x tr with
  | nil =>
      have hle := (responses_prefix_of_exec (List.prefix_append _ _) hexec hrun).length_le
      obtain ⟨y₁, tr₁, o₁, hexec₁, hs, -⟩ := (machine ccfg counter scfg).exec_snoc.mp hrun
      obtain ⟨rfl, -⟩ := Prod.mk.inj (Option.some.inj (hexec.symm.trans hexec₁))
      have hi := delivers_exec hsteady.snoc hexec (by omega)
      have hs : step y (.copy j t) = some (x, o₁) := hs
      rcases cases_step hs with ⟨se, s', so, he, -⟩ | ⟨ce, s', co, he, -⟩ |
        ⟨j', t', k', p', r', he, hj', hr', -, -, hbody, hnet, rfl⟩
      · exact absurd he (by simp)
      · exact absurd he (by simp)
      · obtain ⟨rfl, rfl⟩ := Event.copy.inj he
        obtain ⟨rfl, -⟩ := Prod.mk.inj (Option.some.inj (hj.symm.trans hj'))
        obtain rfl := Option.some.inj (hr.symm.trans hr')
        have hdel := (Option.ite_none_right_eq_some.mp hnet).1
        exact Promised.of_copy hi hbody hdel hl
  | append_singleton post e ih =>
      rw [← List.cons_append, ← List.append_assoc] at hsteady hrun
      obtain ⟨x₀, tr₀, o₀, hrun₀, hs, -⟩ := (machine ccfg counter scfg).exec_snoc.mp hrun
      have hle := (responses_prefix_of_step hs).length_le
      have hi := delivers_exec hsteady.snoc hrun₀ (by omega)
      exact (ih hsteady.snoc hrun₀ (by omega)).step hi (hsteady.last hrun₀) hs

theorem idle_exec {t : Client.Responder}
    (hrun : (machine ccfg counter scfg).exec es = some (x, tr)) (hother : ∀ j, .copy j t ∉ es) :
    x.net.client.responses t = none := by
  refine Machine.exec_induction (P := fun es x _ => (∀ j, Event.copy j t ∉ es) →
    x.net.client.responses t = none) _ (fun _ => rfl) (fun es x tr e x' o _ ih hs hother => ?_)
    es x tr hrun hother
  refine idle_of_step hs (ih fun j hm => hother j (List.mem_append_left _ hm)) fun j he => ?_
  exact hother j (List.mem_append_right _ (he ▸ List.mem_singleton_self _))

end Runs

/-- **Responses are delivered across expiry.**  In every run of a client and a server with fewer
than `2^32` responses, with any loss, duplication and reordering of the requests, any interleaving
of the tasks and sweeps at any time on either side: if every step is steady, every response of
which a copy comes in while the client's tables hold the session is sent on to the session's
source. -/
theorem responses_delivered (ccfg : Client.ClientConfig) (counter : UInt64)
    (scfg : Server.ServerConfig) (es : List Event) {x : Exchange} {tr : List Empty}
    (hrun : (machine ccfg counter scfg).exec es = some (x, tr))
    (hfew : x.responses.length < 2 ^ 32)
    (hsteady : (machine ccfg counter scfg).Each (fun x _ e => Steady x e) es) :
    ResponsesDelivered ccfg counter scfg es := by
  intro pre j t post y tr₁ z tr₂ hpre hexec hexec' k p r a o hj hr hl
  have hle := (responses_prefix_of_exec hpre hexec' hrun).length_le
  have hfew' : z.responses.length < 2 ^ 32 := by omega
  have hi := delivers_exec (hsteady.of_isPrefix hpre) hexec' hfew'
  rcases promised_exec (hsteady.of_isPrefix hpre) hexec hexec' hfew' hj hr hl with
    ⟨f, hf, rfl, rfl⟩ | ⟨t', r', ht', hk, -⟩
  · obtain ⟨-, r', hr', hpayload, -⟩ := hi.forwarded f hf
    obtain ⟨suf, hsuf⟩ := responses_prefix_of_exec (List.prefix_append _ _) hexec hexec'
    have hsame : z.responses[f.response]? = some r := by
      rw [← hsuf, List.getElem?_append_left (List.getElem?_eq_some_iff.mp hr).1]
      exact hr
    obtain rfl := Option.some.inj (hr'.symm.trans hsame)
    exact Or.inl ⟨f, hf, rfl, rfl, hpayload⟩
  · exact Or.inr ⟨t', by simp [ht'], hk⟩

/-! ### Two runs -/

/-- One server, reached over UDP. -/
def udpOnly : Client.ClientConfig := ⟨[⟨"127.0.0.1:1", .udp⟩], 60⟩

/-- The client sends a datagram of a source, section by section; one section less if the source has
a session. -/
def datagramAt (payload : List UInt8) (now sections : ℕ) : List Event :=
  .move (.client (.sourceSends demoAddr payload)) ::
    List.replicate sections (.move (.client (.listener now 0 true true)))

/-- The packet of a datagram reaches the server; one section less if the id has a session. -/
def requestAt (sid : UInt64) (seq : UInt32) (payload : List UInt8) (now sections : ℕ) :
    List Event :=
  .move (.server (.udpArrives 0 demoAddr (encodeUdp sid seq payload))) ::
    List.replicate sections (.move (.server (.handler (.listener 0) now true true)))

/-- The target of a session object answers, and the answer is sent. -/
def answerAt (o : Server.ObjId) (payload : List UInt8) (now : ℕ) : List Event :=
  .move (.server (.targetReads o payload)) ::
    List.replicate 5 (.move (.server (.receiver o now true)))

/-- The reader of the UDP sender goes on with the response it has in hand. -/
def readerGoes (now sections : ℕ) : List Event :=
  List.replicate sections (.move (.client (.responder (.udp 0) now true)))

/-- A check of `Steady` for runs over UDP. -/
def steadyCheck (x : Exchange) : Event → Bool
  | .move (.client (.listener _ _ _ _)) =>
      x.net.client.sending.all fun h => h.pc ≠ .create ||
        (x.net.client.cl.udpSessions h.source).isSome ||
        Client.allocateSessionId x.net.client.cl.sessionIdCounter ∉
          Client.createdIds x.net.clientLog
  | .move (.server (.handler t _ _ _)) =>
      (x.net.server.handlers t).all fun h => h.pc ≠ .create ||
        (x.net.server.srv.sessions h.sessionId).isSome ||
        x.responses.all fun r => r.sessionId ≠ h.sessionId
  | .move (.client (.responder t _ _)) =>
      (x.net.client.responses t).all fun r =>
        match r.pc with
        | .lookupSession a => (x.net.client.cl.udpSessions a).all fun o =>
            (x.net.client.cl.heap o).sessionId = r.sessionId
        | .check _ o => (Client.checks x.net.clientLog o).head?.all
              (fun p => p.1.toNat ≤ r.seq.toNat) &&
            (Client.checks x.net.clientLog o).all fun p =>
              p.1.toNat < r.seq.toNat + Client.defaultResponseDedupSize
        | _ => true
  | .move (.client (.sweepUdp _)) => (x.net.client.responses (.udp 0)).isNone
  | _ => true

theorem steady_of_check {x : Exchange} {e : Event} (h : steadyCheck x e = true)
    (hidle : ∀ t, t ≠ .udp 0 → x.net.client.responses t = none) : Steady x e := by
  cases e with
  | copy j t => trivial
  | move e =>
      cases e with
      | server se =>
          cases se with
          | handler t now b b' =>
              cases b with
              | false => trivial
              | true =>
                  intro hd ht hpc hnone
                  simp only [steadyCheck, ht, Option.all_some] at h
                  simp only [hpc, hnone, ne_eq, not_true_eq_false, decide_false,
                    Option.isSome_none, Bool.or_self, Bool.false_or] at h
                  exact Or.inl fun r hr => of_decide_eq_true (List.all_eq_true.mp h r hr)
          | _ => trivial
      | client ce =>
          cases ce with
          | listener now random b b' =>
              intro hd ht hpc hnone
              simp only [steadyCheck, ht, Option.all_some] at h
              simpa [hpc, hnone] using h
          | responder t now b =>
              intro r ht
              simp only [steadyCheck, ht, Option.all_some] at h
              refine ⟨fun a o hpc hs => ?_, fun a o hpc => Or.inr ?_⟩
              · simpa [hpc, hs] using h
              · simp only [hpc, Bool.and_eq_true] at h
                refine ⟨fun p hp => ?_, fun p hp => ?_⟩
                · have hfirst := h.1
                  rw [hp] at hfirst
                  exact of_decide_eq_true hfirst
                · exact of_decide_eq_true (List.all_eq_true.mp h.2 p hp)
          | sweepUdp now =>
              intro t r a o ht ho hl
              by_cases he : t = .udp 0
              · rw [he] at ht
                exact absurd ht (by simp [Option.isNone_iff_eq_none.mp h])
              · exact absurd ht (by simp [hidle t he])
          | _ => trivial

/-- Every copy comes in over UDP. -/
def overUdp (es : List Event) : Bool :=
  es.all fun
    | .copy _ t => t = .udp 0
    | _ => true

theorem idle_of_overUdp {ccfg : Client.ClientConfig} {counter : UInt64}
    {scfg : Server.ServerConfig} {es pre : List Event} {x : Exchange} {tr : List Empty}
    (hudp : overUdp es = true) (hpre : pre <+: es)
    (hrun : (machine ccfg counter scfg).exec pre = some (x, tr)) {t : Client.Responder}
    (ht : t ≠ .udp 0) : x.net.client.responses t = none :=
  idle_exec hrun fun _ hm =>
    ht (of_decide_eq_true (List.all_eq_true.mp hudp _ (hpre.subset hm)))

/-- A request and its response; then both sides expire, and a new session takes their place. -/
def bothExpire : List Event :=
  datagramAt [1] 10 7 ++ requestAt 1 0 [1] 11 6 ++ answerAt 0 [7] 12 ++
    .copy 0 (.udp 0) :: readerGoes 13 5 ++
    ([.move (.server (.sweep 75)), .move (.client (.sweepUdp 75)),
      .move (.client .sweepTcp)] : List Event) ++
    datagramAt [2] 80 7 ++ requestAt 2 0 [2] 81 6 ++ answerAt 1 [8] 82 ++
    .copy 1 (.udp 0) :: readerGoes 83 5

/-- Both responses are sent on. -/
theorem responses_delivered_both_expire :
    (∃ x tr, (machine udpOnly 0 Server.demoConfig).exec bothExpire = some (x, tr) ∧
      x.forwards = [⟨0, 0, demoAddr, [7]⟩, ⟨1, 1, demoAddr, [8]⟩]) ∧
    ResponsesDelivered udpOnly 0 Server.demoConfig bothExpire := by
  have hview : ((machine udpOnly 0 Server.demoConfig).exec bothExpire).map
      (fun r => (r.1.forwards, r.1.responses.length)) =
        some ([⟨0, 0, demoAddr, [7]⟩, ⟨1, 1, demoAddr, [8]⟩], 2) := by decide
  obtain ⟨⟨x, tr⟩, hrun, hv⟩ := Option.map_eq_some_iff.mp hview
  obtain ⟨hforwards, hlen⟩ := Prod.mk.inj hv
  have hcheck : (machine udpOnly 0 Server.demoConfig).Each (fun x _ e => steadyCheck x e = true)
      bothExpire := Machine.each_of_check (fun _ _ _ h => h) (by decide)
  refine ⟨⟨x, tr, hrun, hforwards⟩,
    responses_delivered udpOnly 0 Server.demoConfig bothExpire hrun (by rw [hlen]; decide)
      fun pre e hpre y tr' hexec => steady_of_check (hcheck pre e hpre y tr' hexec) fun t ht => ?_⟩
  exact idle_of_overUdp (by decide) ((List.prefix_append pre [e]).trans hpre) hexec ht

/-- The session of a source answers once.  The source sends again at 50, and the packet is lost, so
the sweeps at 75 remove the session at the server only.  The next packet makes the server create it
again, and the target answers. -/
def serverExpires : List Event :=
  datagramAt [1] 10 7 ++ requestAt 1 0 [1] 11 6 ++ answerAt 0 [7] 12 ++
    .copy 0 (.udp 0) :: readerGoes 13 5 ++ datagramAt [2] 50 6 ++
    ([.move (.server (.sweep 75)), .move (.client (.sweepUdp 75)),
      .move (.client .sweepTcp)] : List Event) ++
    datagramAt [3] 80 6 ++ requestAt 1 2 [3] 81 6 ++ answerAt 1 [8] 82

/-- Every copy of every response comes in. -/
def losesNoCopy (es : List Event) (x : Exchange) : Prop :=
  ∀ j, j < x.copies.length → ∃ t, .copy j t ∈ es

/-- Its answer is discarded as a copy of the first one, although no copy of a response is lost. -/
theorem response_lost_after_server_expiry :
    (∃ x tr, (machine udpOnly 0 Server.demoConfig).exec
        (serverExpires ++ Event.copy 1 (.udp 0) :: readerGoes 83 3) = some (x, tr) ∧
      x.responses.length < 2 ^ 32 ∧
      losesNoCopy (serverExpires ++ Event.copy 1 (.udp 0) :: readerGoes 83 3) x) ∧
    ¬ ResponsesDelivered udpOnly 0 Server.demoConfig
      (serverExpires ++ Event.copy 1 (.udp 0) :: readerGoes 83 3) := by
  have hview : ((machine udpOnly 0 Server.demoConfig).exec
      (serverExpires ++ Event.copy 1 (.udp 0) :: readerGoes 83 3)).map
        (fun r => (r.1.responses.length, r.1.copies.length, r.1.forwards.map (·.response),
          r.1.net.client.responses (.udp 0))) = some (2, 2, [0], none) := by decide
  obtain ⟨⟨x, tr⟩, hrun, hv⟩ := Option.map_eq_some_iff.mp hview
  simp only [Prod.mk.injEq] at hv
  obtain ⟨hlen, hcopies, hforwards, hidle⟩ := hv
  refine ⟨⟨x, tr, hrun, by rw [hlen]; decide, fun j hj => ⟨.udp 0, ?_⟩⟩, fun hdelivered => ?_⟩
  · rw [hcopies] at hj
    obtain rfl | rfl : j = 0 ∨ j = 1 := by omega
    · simp [serverExpires]
    · simp
  · have hbefore : ((machine udpOnly 0 Server.demoConfig).exec serverExpires).map
        (fun r => (r.1.copies[1]?, r.1.responses[1]?,
          r.1.net.client.cl.udpSessions demoAddr, (r.1.net.client.cl.heap 0).sessionId)) =
        some (some (1, .udp demoAddr 0), some ⟨1, 0, [8]⟩, some 0, 1) := by decide
    obtain ⟨⟨y, tr'⟩, hexec, hv⟩ := Option.map_eq_some_iff.mp hbefore
    simp only [Prod.mk.injEq] at hv
    obtain ⟨hj, hr, hsession, hid⟩ := hv
    rcases hdelivered serverExpires 1 (.udp 0) (readerGoes 83 3) y tr' x tr (List.prefix_refl _)
      hexec hrun 1 _ _ demoAddr 0 hj hr ⟨hsession, hid⟩ with ⟨f, hf, hresponse, -⟩ | ⟨t, ht, -⟩
    · have hm := List.mem_map_of_mem (f := (·.response)) hf
      rw [hforwards, hresponse] at hm
      exact absurd hm (by decide)
    · by_cases he : t = .udp 0
      · exact ht (he ▸ hidle)
      · exact ht (idle_of_overUdp (by decide) (List.prefix_refl _) hrun he)

end Exchange

end Fproxy
