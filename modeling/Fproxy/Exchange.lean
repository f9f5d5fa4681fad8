import Fproxy.Network
import Fproxy.Server.Sequence

/-!
# Responses between one server and one client

The interleaved system of `Fproxy.Network` with an account of the responses.  Every task moves
section by section, and sweeps fall between any two sections.  The account says which response a
task has in hand, and which response a message is a copy of.  Every reader of the client takes in
the copies that lead to it in the order in which the server sent them; requests may be lost,
repeated and reordered.

* `machine` — the system.
* `network_exec` — without the account, a run is a run of the interleaved system.
* `Accounts` — the account is right: what a task has in hand is the response the account says, and
  the server has sent what the copies say.  `accounts_exec` — it is right after every run.
-/

namespace Fproxy

open Fproxy.Runs Fproxy.Protocol Fproxy.TcpFraming

/-- A response that a reader of the client has sent on: which one it was, the object whose window
let it through, and the source it went to. -/
structure Exchange.Forward where
  response : ℕ
  obj : Client.SessionObj
  source : SocketAddr
  payload : List UInt8
  deriving DecidableEq

/-- Both sides, and the account of the responses. -/
structure Exchange where
  net : Network
  /-- In the order in which they were numbered. -/
  responses : List Server.Response
  /-- The response that the response task of an object is sending. -/
  serving : Server.ObjId → ℕ
  /-- Which response left on which path, in the order in which the copies were sent. -/
  copies : List (ℕ × Server.ClientPath)
  /-- A reader takes in no copy before this one any more. -/
  reached : Client.Responder → ℕ
  /-- The response that a reader of the client has in hand. -/
  handling : Client.Responder → ℕ
  forwards : List Exchange.Forward

namespace Exchange

/-- A move of either side; at the client, the arrival of a response is the arrival of a copy. -/
inductive Event where
  | move (e : Network.Event)
  | copy (j : ℕ) (t : Client.Responder)
  deriving DecidableEq

/-- The arrival of a message at a reader. -/
def arrives (t : Client.Responder) (data : List UInt8) : Client.Event :=
  match t with
  | .udp i => .udpArrives i data
  | .tcp c => .frameEnds c data

/-- What left on the path goes to the reader. -/
def leadsTo (t : Client.Responder) : Server.ClientPath → Bool
  | .udp _ _ =>
      match t with
      | .udp _ => true
      | .tcp _ => false
  | .tcp _ w => t = .tcp w

/-- What a move of the server means for the responses. -/
def noteServer (x : Exchange) (e : Server.Event) : Exchange :=
  match e with
  | .receiver o _ sendOk =>
      match x.net.server.numbers e with
      | some r =>
          { x with
            responses := x.responses ++ [r]
            serving := Function.update x.serving o x.responses.length }
      | none =>
          match x.net.server.srv.receivers o with
          | .sending _ _ (p :: _) =>
              if sendOk then { x with copies := x.copies ++ [(x.serving o, p)] } else x
          | _ => x
  | _ => x

/-- A move of the server leaves what the client has in hand and has sent on. -/
theorem noteServer_eq (x : Exchange) (e : Server.Event) :
    x.noteServer e = { x with
      responses := x.responses ++ (x.net.server.numbers e).toList
      serving := (x.noteServer e).serving
      copies := (x.noteServer e).copies } := by
  unfold noteServer
  split
  · next o now sendOk =>
      cases hn : x.net.server.numbers (.receiver o now sendOk) with
      | some r => rfl
      | none =>
          simp only [Option.toList_none, List.append_nil]
          split
          · split <;> rfl
          · rfl
  · next hother =>
      have hn : x.net.server.numbers e = none := by
        unfold Server.State.numbers
        split
        · exact absurd rfl (hother _ _ _)
        · rfl
      simp [hn]

/-- What a move of the client sends on. -/
def sentOn (x : Exchange) : Client.Event → List Forward
  | .responder t _ _ =>
      match x.net.client.responses t with
      | none => []
      | some r =>
          match r.pc with
          | .forward source o => [⟨x.handling t, o, source, r.payload⟩]
          | _ => []
  | _ => []

/-- What a move means for the responses. -/
def note (x : Exchange) : Network.Event → Exchange
  | .client e => { x with forwards := x.forwards ++ x.sentOn e }
  | .server e => x.noteServer e

/-- The event is the arrival of a response. -/
def isArrival : Network.Event → Bool
  | .client e => e.packet.isSome
  | .server _ => false

/-- One step; `none` where the event cannot occur. -/
def step (x : Exchange) : Event → Option (Exchange × List Empty)
  | .move e =>
      if isArrival e then none
      else (Network.step x.net e).map fun r => ({ x.note e with net := r.1 }, [])
  | .copy j t =>
      match x.copies[j]? with
      | none => none
      | some (k, p) =>
          match x.responses[k]? with
          | none => none
          | some r =>
              if x.reached t ≤ j ∧ leadsTo t p then
                (Network.step x.net (.client (arrives t
                  (encodePacket r.sessionId r.seq r.payload)))).map fun q =>
                    ({ x with
                        net := q.1
                        reached := Function.update x.reached t j
                        handling := Function.update x.handling t k }, [])
              else none

/-- A client and a server that have not met. -/
def machine (ccfg : Client.ClientConfig) (counter : UInt64) (scfg : Server.ServerConfig) :
    Machine Exchange Event Empty where
  init := ⟨(Network.machine ccfg counter scfg).init, [], fun _ => 0, [], fun _ => 0, fun _ => 0, []⟩
  step := step

/-! ### Steps -/

/-- After a move of the client that did this and sent that on. -/
def clientMove (x : Exchange) (s' : Client.State) (co : List Client.Obs) (fs : List Forward) :
    Exchange :=
  { x with
    net := { x.net with client := s', clientLog := x.net.clientLog ++ co }
    forwards := x.forwards ++ fs }

/-- After a move of the server that did this. -/
def serverMove (x : Exchange) (se : Server.Event) (s' : Server.State) (so : List Server.Obs) :
    Exchange :=
  { x.noteServer se with
    net := { x.net with server := s', serverLog := x.net.serverLog ++ so } }

/-- A response that has just come in to a reader. -/
def taken (s : Client.State) (t : Client.Responder) (r : Server.Response) : Client.State :=
  match t with
  | .udp i => s.setResponse (.udp i) (some ⟨r.sessionId, r.seq, r.payload, .lookupAddr⟩)
  | .tcp c =>
      { s with cl := s.cl.setReader c .readLength }.setResponse (.tcp c)
        (some ⟨r.sessionId, r.seq, r.payload, .lookupSession (s.cl.readers c).source⟩)

/-- A copy that comes in is a response in hand. -/
theorem step_arrives {s s' : Client.State} {t : Client.Responder} {r : Server.Response}
    {co : List Client.Obs} (h : Client.step s (arrives t (encodePacket r.sessionId r.seq
      r.payload)) = some (s', co)) :
    s.responses t = none ∧ s' = taken s t r ∧ co = [] ∧
      ∀ c, t = .tcp c → (s.cl.readers c).pc = .readBody := by
  cases t with
  | udp i =>
      have hdec : decodeUdp (encodePacket r.sessionId r.seq r.payload) =
          .ok (r.sessionId, r.seq, r.payload) := decodePacket_encodePacket _ _ _
      simp only [arrives, Client.step, hdec, Option.ite_none_right_eq_some, Option.some.injEq,
        Prod.mk.injEq] at h
      obtain ⟨hc, rfl, rfl⟩ := h
      exact ⟨hc.2, rfl, rfl, fun c hc => absurd hc (by simp)⟩
  | tcp c =>
      have hdec : decodeTcp (encodePacket r.sessionId r.seq r.payload) =
          .ok (r.sessionId, r.seq, r.payload) := decodePacket_encodePacket _ _ _
      simp only [arrives, Client.step, hdec, Option.ite_none_right_eq_some, Option.some.injEq,
        Prod.mk.injEq] at h
      obtain ⟨hc, rfl, rfl⟩ := h
      refine ⟨hc.2, rfl, rfl, fun c' hc' => ?_⟩
      rw [← Client.Responder.tcp.inj hc']
      exact hc.1

/-- What a reader has in hand after a copy came in to one of them. -/
theorem responses_taken {s : Client.State} {t t' : Client.Responder} {r : Server.Response}
    {r' : Client.Response} (h : (taken s t r).responses t' = some r') :
    t' = t ∧ r'.sessionId = r.sessionId ∧ r'.seq = r.seq ∧ r'.payload = r.payload ∧
        r'.pc.obj = none ∨
      t' ≠ t ∧ s.responses t' = some r' := by
  by_cases he : t' = t
  · refine Or.inl ⟨he, ?_⟩
    cases t <;> simp only [taken, Client.State.setResponse, he, Function.update_self,
      Option.some.injEq] at h <;> subst h <;> exact ⟨rfl, rfl, rfl, rfl⟩
  · refine Or.inr ⟨he, ?_⟩
    cases t <;> simpa [taken, Client.State.setResponse, Function.update_of_ne he] using h

theorem responses_taken_of_ne (s : Client.State) {t t' : Client.Responder} (r : Server.Response)
    (h : t' ≠ t) : (taken s t r).responses t' = s.responses t' := by
  cases t <;> simp [taken, Client.State.setResponse, h]

/-- After a copy, of the response `k`, has come in to a reader. -/
def copyIn (x : Exchange) (j : ℕ) (t : Client.Responder) (k : ℕ) (r : Server.Response) :
    Exchange :=
  { x with
    net := { x.net with client := taken x.net.client t r }
    reached := Function.update x.reached t j
    handling := Function.update x.handling t k }

/-- The inversion lemma. -/
theorem cases_step {x x' : Exchange} {e : Event} {obs : List Empty}
    (h : step x e = some (x', obs)) :
    (∃ se s' so, e = .move (.server se) ∧ x.net.deliverable (.server se) = true ∧
      Server.step x.net.server se = some (s', so) ∧
      x' = x.serverMove se s' so) ∨
    (∃ ce s' co, e = .move (.client ce) ∧ ce.packet = none ∧
      Client.step x.net.client ce = some (s', co) ∧
      x' = x.clientMove s' co (x.sentOn ce)) ∨
    ∃ j t k p r, e = .copy j t ∧ x.copies[j]? = some (k, p) ∧ x.responses[k]? = some r ∧
      leadsTo t p = true ∧ x.net.client.responses t = none ∧
      (∀ c, t = .tcp c → (x.net.client.cl.readers c).pc = .readBody) ∧
      Network.step x.net (.client (arrives t (encodePacket r.sessionId r.seq r.payload))) =
        some ((x.copyIn j t k r).net, []) ∧ x' = x.copyIn j t k r := by
  cases e with
  | move e =>
      simp only [step] at h
      split at h
      · exact absurd h (by simp)
      · next harr =>
          obtain ⟨⟨n', o⟩, hs, he⟩ := Option.map_eq_some_iff.mp h
          obtain rfl := (Prod.mk.inj he).1
          rcases Network.cases_step hs with
            ⟨ce, s', co, rfl, hdel, hstep, rfl⟩ | ⟨se, s', so, rfl, hdel, hstep, rfl⟩
          · have hnone : ce.packet = none := by simpa [isArrival] using harr
            exact Or.inr (Or.inl ⟨ce, s', co, rfl, hnone, hstep, rfl⟩)
          · exact Or.inl ⟨se, s', so, rfl, hdel, hstep, rfl⟩
  | copy j t =>
      simp only [step] at h
      split at h
      · exact absurd h (by simp)
      · next k p hj =>
          split at h
          · exact absurd h (by simp)
          · next r hk =>
              obtain ⟨hc, h⟩ := Option.ite_none_right_eq_some.mp h
              obtain ⟨⟨n', o⟩, hs, he⟩ := Option.map_eq_some_iff.mp h
              obtain rfl := (Prod.mk.inj he).1
              rcases Network.cases_step hs with
                ⟨ce, s', co, hce, hdel, hstep, rfl⟩ | ⟨se, s', so, hse, -⟩
              · obtain rfl := Network.Event.client.inj hce
                obtain rfl : o = [] := by
                  cases o with
                  | nil => rfl
                  | cons v _ => exact v.elim
                obtain ⟨hidle, rfl, rfl, hbody⟩ := step_arrives hstep
                simp only [List.append_nil] at hs ⊢
                exact Or.inr (Or.inr ⟨j, t, k, p, r, rfl, hj, hk, hc.2, hidle, hbody, hs, rfl⟩)
              · exact absurd hse (by simp)

/-- A step is a move of the interleaved system. -/
theorem network_step {x x' : Exchange} {e : Event} {obs : List Empty}
    (h : step x e = some (x', obs)) : ∃ e', Network.step x.net e' = some (x'.net, []) := by
  rcases cases_step h with ⟨se, s', so, -, hdel, hs, rfl⟩ | ⟨ce, s', co, -, hnone, hs, rfl⟩ |
    ⟨j, t, k, p, r, -, -, -, -, -, -, hs, rfl⟩
  · exact ⟨.server se, by simp [Network.step, hdel, hs, serverMove]⟩
  · exact ⟨.client ce, by
      simp [Network.step, Network.deliverable_of_no_packet hnone, hs, clientMove]⟩
  · exact ⟨_, hs⟩

section Runs

variable {ccfg : Client.ClientConfig} {counter : UInt64} {scfg : Server.ServerConfig}
  {es : List Event} {x : Exchange} {tr : List Empty}

/-- Without the account, a run is a run of the interleaved system. -/
theorem network_exec (hrun : (machine ccfg counter scfg).exec es = some (x, tr)) :
    ∃ nes, (Network.machine ccfg counter scfg).exec nes = some (x.net, []) := by
  refine Machine.invariant (I := fun x _ => ∃ nes,
    (Network.machine ccfg counter scfg).exec nes = some (x.net, [])) _ ⟨[], rfl⟩
    (fun x tr e x' o hi hs => ?_) hrun
  obtain ⟨nes, hnes⟩ := hi
  obtain ⟨e', he'⟩ := network_step hs
  exact ⟨nes ++ [e'], (Network.machine ccfg counter scfg).exec_snoc.mpr
    ⟨x.net, [], [], hnes, he', rfl⟩⟩

end Runs

/-! ### The account is right -/

/-- What a response task is about to send, with its number. -/
def inHand : Server.ReceiverPc → Option (List UInt8 × UInt32)
  | .paths payload seq => some (payload, seq)
  | .sending payload seq _ => some (payload, seq)
  | _ => none

/-- Every task has in hand what the account says, and every copy was sent. -/
structure Accounts (x : Exchange) : Prop where
  serving : ∀ o payload seq, inHand (x.net.server.srv.receivers o) = some (payload, seq) →
    x.responses[x.serving o]? = some ⟨(x.net.server.srv.heap o).sessionId, seq, payload⟩
  copies : ∀ k p, (k, p) ∈ x.copies → ∃ r, x.responses[k]? = some r ∧
    Server.sendOnPath r.sessionId r.seq r.payload p ∈ x.net.serverLog
  handling : ∀ t r, x.net.client.responses t = some r →
    x.responses[x.handling t]? = some ⟨r.sessionId, r.seq, r.payload⟩

namespace Accounts

variable {x : Exchange} {s' : Server.State} {so : List Server.Obs}

/-- Frame rule: no response task takes another response in hand. -/
theorem serverFrame (hi : Accounts x) {se : Server.Event} (hnote : x.noteServer se = x)
    (hpc : ∀ o payload seq, inHand (s'.srv.receivers o) = some (payload, seq) →
      inHand (x.net.server.srv.receivers o) = some (payload, seq) ∧
        (s'.srv.heap o).sessionId = (x.net.server.srv.heap o).sessionId) :
    Accounts (x.serverMove se s' so) := by
  rw [serverMove, hnote]
  refine ⟨fun o payload seq h => ?_, fun k p h => ?_, hi.handling⟩
  · obtain ⟨hold, hid⟩ := hpc o payload seq h
    show x.responses[x.serving o]? = some ⟨(s'.srv.heap o).sessionId, seq, payload⟩
    rw [hid]
    exact hi.serving o payload seq hold
  · obtain ⟨r, hr, hm⟩ := hi.copies k p h
    exact ⟨r, hr, List.mem_append_left _ hm⟩

/-- A response task moves on with what it has in hand, or puts it down. -/
theorem receiverFrame (hi : Accounts x) {se : Server.Event} (hnote : x.noteServer se = x)
    {o : Server.ObjId} {pc : Server.ReceiverPc} {srv : Server}
    (hrec : srv.receivers = x.net.server.srv.receivers)
    (hid : ∀ o, (srv.heap o).sessionId = (x.net.server.srv.heap o).sessionId)
    (hpc : ∀ q, inHand pc = some q → inHand (x.net.server.srv.receivers o) = some q) :
    Accounts (x.serverMove se ({ x.net.server with srv := srv }.setReceiver o pc) so) := by
  refine hi.serverFrame hnote fun o' payload seq h => ⟨?_, hid o'⟩
  have h : inHand (Function.update srv.receivers o pc o') = some (payload, seq) := h
  by_cases ho : o' = o
  · rw [ho, Function.update_self] at h
    rw [ho]
    exact hpc _ h
  · rw [Function.update_of_ne ho, hrec] at h
    exact h

/-- A move of the server. -/
theorem server (hi : Accounts x) {se : Server.Event} (ha : Server.Act x.net.server se s' so) :
    Accounts (x.serverMove se s' so) := by
  have hdown : ∀ {pc : Server.ReceiverPc}, inHand pc = none → ∀ {o : Server.ObjId}, ∀ q,
      inHand pc = some q → inHand (x.net.server.srv.receivers o) = some q :=
    fun hnone _ _ hq => absurd (hnone.symm.trans hq) (by simp)
  cases ha with
  | @undecodable source e _ _ htcp hudp | @arrive source e _ _ _ _ _ htcp hudp _ =>
      cases source with
      | udp l addr =>
          rw [hudp l addr rfl]
          exact hi.serverFrame rfl fun _ _ _ h => ⟨h, rfl⟩
      | tcp c =>
          rw [(htcp c rfl).2]
          exact hi.serverFrame rfl fun _ _ _ h => ⟨h, rfl⟩
  | @createNew t h now b' _ _ hnone =>
      refine hi.serverFrame rfl fun o payload seq hin => ?_
      simp only [Server.State.setHandler, Server.createSession, hnone, if_true] at hin ⊢
      by_cases ho : o = x.net.server.srv.next
      · rw [ho, Function.update_self] at hin
        exact absurd hin (by simp [inHand])
      · rw [Function.update_of_ne ho] at hin
        exact ⟨hin, by rw [Function.update_of_ne ho]⟩
  | touch _ _ => exact hi.serverFrame rfl fun o _ _ h => ⟨h, Server.touch_sessionId _ _ _ _⟩
  | checkDup _ _ _ | checkNew _ _ _ _ =>
      exact hi.serverFrame rfl fun o _ _ h => ⟨h, Server.checkDuplicate_sessionId _ _ _ _⟩
  | sweep =>
      exact hi.serverFrame rfl fun o _ _ h => ⟨h, Server.cleanupExpiredSessions_sessionId _ _ _⟩
  | @removePath c sid _ =>
      refine hi.serverFrame rfl fun o payload seq h => ?_
      have h : inHand ((x.net.server.srv.removeTcpPath sid c).receivers o) = _ := h
      rw [Server.removeTcpPath_receivers] at h
      refine ⟨h, ?_⟩
      show ((x.net.server.srv.removeTcpPath sid c).heap o).sessionId = _
      rw [Server.removeTcpPath_heap]
  | targetReads _ | targetFails _ | receiverCancelled _ _ =>
      exact hi.receiverFrame rfl rfl (fun _ => rfl) (hdown rfl)
  | responseTouch hpc _ =>
      exact hi.receiverFrame (by simp only [noteServer, Server.State.numbers, hpc]) rfl
        (fun _ => Server.touch_sessionId _ _ _ _) (hdown rfl)
  | responseUntouched hpc _ =>
      exact hi.receiverFrame (by simp only [noteServer, Server.State.numbers, hpc]) rfl
        (fun _ => rfl) (hdown rfl)
  | @responseNumber o o' payload now b hpc hs =>
      simp only [serverMove, noteServer, Server.State.numbers, hpc, hs, Option.map_some]
      have hold : ∀ {k : ℕ} {r : Server.Response}, x.responses[k]? = some r → ∀ r',
          (x.responses ++ [r'])[k]? = some r := by
        intro k r h r'
        rw [List.getElem?_append_left (List.getElem?_eq_some_iff.mp h).1]
        exact h
      refine ⟨fun o'' payload' seq' hin => ?_, fun k p hm => ?_, fun t r hr => ?_⟩
      · have hin : inHand (Function.update x.net.server.srv.receivers o
            (.paths payload (x.net.server.srv.heap o').responseSeq) o'') = _ := hin
        show (x.responses ++ [_])[Function.update x.serving o x.responses.length o'']? =
          some ⟨((x.net.server.srv.takeResponseSeq o').2.heap o'').sessionId, seq', payload'⟩
        rw [Server.takeResponseSeq_sessionId]
        by_cases ho : o'' = o
        · subst ho
          rw [Function.update_self] at hin ⊢
          obtain ⟨rfl, rfl⟩ := Prod.mk.inj (Option.some.inj hin)
          exact List.getElem?_concat_length
        · rw [Function.update_of_ne ho] at hin ⊢
          exact hold (hi.serving o'' payload' seq' hin) _
      · obtain ⟨r, hr, hlog⟩ := hi.copies k p hm
        exact ⟨r, hold hr _, List.mem_append_left _ hlog⟩
      · exact hold (hi.handling t r hr) _
  | responsePaths hpc _ =>
      refine hi.receiverFrame (by simp only [noteServer, Server.State.numbers, hpc]) rfl
        (fun _ => rfl) fun q hq => ?_
      rw [hpc]
      exact hq
  | @responseSend o payload seq p ps now b hpc =>
      have hnext : Accounts (x.serverMove .stop
          ({ x.net.server with srv := x.net.server.srv }.setReceiver o (.sending payload seq ps))
          (if b then [Server.sendOnPath (x.net.server.srv.heap o).sessionId seq payload p]
            else [])) :=
        hi.receiverFrame rfl rfl (fun _ => rfl) fun q hq => by rw [hpc]; exact hq
      cases b with
      | false =>
          simp only [serverMove, noteServer, Server.State.numbers, hpc]
          exact hnext
      | true =>
          simp only [serverMove, noteServer, Server.State.numbers, hpc]
          refine ⟨hnext.serving, fun k p' hm => ?_, hnext.handling⟩
          rcases List.mem_append.mp hm with hm | hm
          · exact hnext.copies k p' hm
          · obtain ⟨rfl, rfl⟩ := Prod.mk.inj (List.mem_singleton.mp hm)
            exact ⟨_, hi.serving o payload seq (by rw [hpc]; rfl),
              List.mem_append_right _ List.mem_cons_self⟩
  | @responseOver o now b hover =>
      refine hi.receiverFrame ?_ rfl (fun _ => rfl) (hdown rfl)
      unfold Server.State.AnswerOver at hover
      cases hpc : x.net.server.srv.receivers o with
      | number payload =>
          rw [hpc] at hover
          simp only [noteServer, Server.State.numbers, hpc, hover, Option.map_none]
      | sending payload seq rest =>
          rw [hpc] at hover
          simp only [noteServer, Server.State.numbers, hpc, hover]
      | _ => simp only [noteServer, Server.State.numbers, hpc]
  | _ => exact hi.serverFrame rfl fun _ _ _ h => ⟨h, rfl⟩

/-- A move of the client: a reader goes on with what it has in hand, or puts it down. -/
theorem client (hi : Accounts x) {ce : Client.Event} {s' : Client.State} {co : List Client.Obs}
    {fs : List Forward} (hnone : ce.packet = none) (ha : Client.Act x.net.client ce s' co) :
    Accounts (x.clientMove s' co fs) := by
  refine ⟨hi.serving, hi.copies, fun t r' hr' => ?_⟩
  obtain ⟨r, hr, hid, hseq, hpayload⟩ := ha.had_in_hand hnone hr'
  rw [hid, hseq, hpayload]
  exact hi.handling t r hr

/-- A copy comes in. -/
theorem copy (hi : Accounts x) {j k : ℕ} {t : Client.Responder} {r : Server.Response}
    (hk : x.responses[k]? = some r) : Accounts (x.copyIn j t k r) := by
  refine ⟨hi.serving, hi.copies, fun t' r' hr' => ?_⟩
  show x.responses[Function.update x.handling t k t']? = _
  rcases responses_taken hr' with ⟨rfl, hid, hseq, hpayload, -⟩ | ⟨hne, hold⟩
  · rw [Function.update_self, hk, hid, hseq, hpayload]
  · rw [Function.update_of_ne hne]
    exact hi.handling t' r' hold

end Accounts

/-- The run lemma. -/
theorem accounts_exec {ccfg : Client.ClientConfig} {counter : UInt64} {scfg : Server.ServerConfig}
    {es : List Event} {x : Exchange} {tr : List Empty}
    (hrun : (machine ccfg counter scfg).exec es = some (x, tr)) : Accounts x := by
  refine Machine.invariant (I := fun x _ => Accounts x) _ ⟨fun _ _ _ h => absurd h (by
    simp [machine, Network.machine, Server.machine, Server.new, inHand]),
    fun _ _ h => absurd h List.not_mem_nil, fun _ _ h => absurd h (by
      simp [machine, Network.machine, Client.machine])⟩ (fun x tr e x' o hi hs => ?_) hrun
  rcases cases_step hs with ⟨se, s', so, -, -, hstep, rfl⟩ | ⟨ce, s', co, -, hnone, hstep, rfl⟩ |
    ⟨j, t, k, p, r, -, -, hk, -, -, -, -, rfl⟩
  · exact hi.server (Server.act_of_step hstep)
  · exact hi.client hnone (Client.act_of_step hstep)
  · exact hi.copy hk

end Exchange

end Fproxy
