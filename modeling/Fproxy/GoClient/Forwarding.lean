import Fproxy.Client.Forwarding
import Fproxy.GoClient.Objects

/-!
# What the Go client forwards, it forwards once

The goroutines of several paths share the window of a session.  What the window lets through is
held by one goroutine until it writes it to the source, whatever the others and the sweep do
meanwhile.  The Go client is another instance of the ledger of the library.

* `Response.held`, `ledger` — who holds what, what was let through, what was forwarded.
* `ledger_act` — every move of the Go client is a move of its ledger.
* `admitted_forwarded_once` — what is let through is forwarded exactly once.
-/

namespace Fproxy.GoClient

open Fproxy.Protocol Fproxy.Runs
open Fproxy.Client (SessionObj Responder Obs admissions forwards admissions_append forwards_append
  mem_admissions_iff)

/-- What a goroutine holds: let through by the window of an object, and not yet forwarded. -/
def Response.held (r : Response) : Option (SessionObj × UInt32) :=
  match r.pc with
  | .touch _ o => some (o, r.seq)
  | .touchTcp _ o => some (o, r.seq)
  | .forward _ o => some (o, r.seq)
  | _ => none

/-- The ledger of the Go client. -/
def ledger (s : State) (tr : List Obs) : Ledger Responder (SessionObj × UInt32) where
  pending := fun t => (s.responses t).bind Response.held
  admitted := admissions tr
  delivered := forwards tr

/-- A move of one goroutine, as the ledger sees it. -/
theorem ledger_setResponse (s : State) (cl : Client) (t : Responder) (r : Option Response)
    (tr : List Obs) :
    ledger ({ s with cl := cl }.setResponse t r) tr =
      ⟨Function.update (ledger s tr).pending t (r.bind Response.held), admissions tr,
        forwards tr⟩ := by
  have hpending : (ledger ({ s with cl := cl }.setResponse t r) tr).pending =
      Function.update (ledger s tr).pending t (r.bind Response.held) := by
    funext t'
    by_cases he : t' = t
    · simp [ledger, State.setResponse, he]
    · simp [ledger, State.setResponse, Function.update_of_ne he]
  rw [← hpending]
  rfl

section Moves

variable {s s' : State} {tr obs : List Obs}

/-- A move that leaves what the goroutines hold alone. -/
theorem move_of_pending (hp : (ledger s' tr).pending = (ledger s tr).pending)
    (ha : admissions obs = []) (hf : forwards obs = []) :
    Ledger.Move (ledger s tr) (ledger s' (tr ++ obs)) := by
  have hsame : ledger s' (tr ++ obs) = ledger s tr := by
    show Ledger.mk (ledger s' tr).pending _ _ = _
    rw [hp, admissions_append, forwards_append, ha, hf, List.append_nil, List.append_nil]
    rfl
  rw [hsame]
  exact .stay

theorem move_of_responses (hr : s'.responses = s.responses) (ha : admissions obs = [])
    (hf : forwards obs = []) : Ledger.Move (ledger s tr) (ledger s' (tr ++ obs)) := by
  refine move_of_pending ?_ ha hf
  funext t
  show (s'.responses t).bind _ = (s.responses t).bind _
  rw [hr]

/-- A move during which the goroutine goes on holding what it held, or nothing. -/
theorem move_of_keep (cl : Client) {t : Responder} {r r' : Option Response}
    (ht : s.responses t = r) (hr : r'.bind Response.held = r.bind Response.held)
    (ha : admissions obs = []) (hf : forwards obs = []) :
    Ledger.Move (ledger s tr) (ledger ({ s with cl := cl }.setResponse t r') (tr ++ obs)) := by
  refine move_of_pending ?_ ha hf
  rw [ledger_setResponse, Function.update_eq_self_iff, hr, ← ht]
  rfl

/-- **The Go client refines the ledger.**  Every move of the client is a move of its ledger. -/
theorem ledger_act {e : Event} (hi : Objects s tr) (ha : Act s e s' obs) :
    Ledger.Move (ledger s tr) (ledger s' (tr ++ obs)) := by
  cases ha with
  | loop _ _ hresp _ => exact move_of_responses hresp rfl rfl
  | @arrive _ _ t data sid seq payload _ hidle _ _ _ hresp _ =>
      refine move_of_pending ?_ rfl rfl
      funext t'
      show (s'.responses t').bind _ = (s.responses t').bind _
      rw [hresp, Function.update_apply]
      split
      · next he =>
          rw [he, hidle]
          rfl
      · rfl
  | addrHit ht hpc _ => exact move_of_keep s.cl ht (by simp [Response.held, hpc]) rfl rfl
  | sessionHit ht hpc _ _ => exact move_of_keep s.cl ht (by simp [Response.held, hpc]) rfl rfl
  | @drop t r e ht hpc =>
      have hnone : r.held = none := by
        rcases hpc with hpc | ⟨source, hpc⟩ <;> simp [Response.held, hpc]
      exact move_of_keep s.cl ht hnone.symm rfl rfl
  | checkDup ht hpc _ => exact move_of_keep _ ht (by simp [Response.held, hpc]) rfl rfl
  | @checkNew t r source o now order b ht hpc hd =>
      -- a number let through before would be a duplicate now
      have hnew : (o, r.seq) ∉ admissions tr := by
        intro hmem
        have hdup := (hi.tracks o).duplicate_of_mem (mem_admissions_iff.mp hmem)
        have hd : ((s.cl.heap o).responseDedup.isDuplicate r.seq).1 = false := hd
        rw [hdup] at hd
        exact absurd hd (by simp)
      have hsame := ledger_setResponse s (s.cl.checkResponse o r.seq).2 t
        (some { r with pc := .touch source o }) (tr ++ [Obs.checked o r.seq false])
      rw [Option.bind_some, admissions_append, forwards_append] at hsame
      rw [hsame]
      have hidle : (ledger s tr).pending t = none := by simp [ledger, ht, Response.held, hpc]
      have hmove := Ledger.Move.enter hidle hnew
      simpa [admissions, forwards, ledger, Response.held] using hmove
  | @responseTouch t r source o now order b ht hpc =>
      refine move_of_keep _ ht ?_ rfl rfl
      show (Response.held { r with pc := afterTouch t source o }) = r.held
      cases t <;> simp [afterTouch, Response.held, hpc]
  | responseTouchTcp ht hpc => exact move_of_keep _ ht (by simp [Response.held, hpc]) rfl rfl
  | responseGoto ht hpc => exact move_of_keep s.cl ht (by simp [Response.held, hpc]) rfl rfl
  | @forward t r source o e ok ht hpc =>
      have hheld : (ledger s tr).pending t = some (o, r.seq) := by
        simp [ledger, ht, Response.held, hpc]
      have hsame := ledger_setResponse s s.cl t none
        (tr ++ [Obs.forwarded o r.seq source r.payload ok])
      rw [Option.bind_none, admissions_append, forwards_append] at hsame
      have hmove := Ledger.Move.deliver hheld
      rw [show s.setResponse t none = { s with cl := s.cl }.setResponse t none from rfl, hsame]
      simpa [admissions, forwards, ledger] using hmove
  | @udpSend _ _ _ _ _ _ ok _ _ => cases ok <;> exact move_of_responses rfl rfl rfl
  | @tcpSend _ _ _ _ _ _ _ ok _ _ _ => cases ok <;> exact move_of_responses rfl rfl rfl
  | _ => exact move_of_responses rfl rfl rfl

end Moves

/-- The ledger of every run is sound. -/
theorem sound_exec {cfg : ClientConfig} {counter : UInt64} {es : List Event} {s : State}
    {tr : List Obs} (hrun : (machine cfg counter).exec es = some (s, tr)) :
    (ledger s tr).Sound :=
  Machine.exec_induction (P := fun _ s tr => (ledger s tr).Sound) _ Ledger.sound_empty
    (fun _ _ _ _ _ _ hrun hs hstep =>
      hs.move (ledger_act (objects_exec hrun) (act_of_machine hstep))) es s tr hrun

/-- Two copies of a response race on the UDP path and the TCP path. -/
def responseRace : List Event :=
  let udp : Event := .responder (.udp 0) 20 [demoAddr] true
  let tcp : Event := .responder (.tcp 0) 20 [demoAddr] true
  sendDatagram demoAddr 10 11 ++
    [.receiverSelect 0, .datagram 0 (encodePacket 1 0 [2]), .readerSelect 0, .lengthRead 0 13,
      .bodyRead 0 (encodePacket 1 0 [2]), udp, udp, tcp, tcp, udp, tcp, udp, udp]

end Fproxy.GoClient
