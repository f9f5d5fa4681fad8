import Fproxy.Client.Objects
import Fproxy.Server.Forwarding

/-!
# What the client forwards, it forwards once

A response that the window of its session lets through is held by the reader that received it
until it is sent to the source, and the readers of the other paths may run in between.  The client
is another instance of the ledger of the library.

* `ledger_act` — every move of the client is a move of its ledger.
* `forwards_nodup` — along every run no pair of an object and a sequence number is forwarded
  twice.
* `at_most_once` — the result for both sides.
-/

namespace Fproxy.Client

open Fproxy.Runs Fproxy.DedupWindow

/-- What a reader holds: let through by the window of an object, and not yet forwarded. -/
def Response.held (r : Response) : Option (SessionObj × UInt32) :=
  match r.pc with
  | .touch _ o => some (o, r.seq)
  | .forward _ o => some (o, r.seq)
  | _ => none

/-- The responses the windows let through. -/
def admissions (tr : List Obs) : List (SessionObj × UInt32) :=
  tr.filterMap fun
    | .checked o seq false => some (o, seq)
    | _ => none

/-- The responses sent to the sources. -/
def forwards (tr : List Obs) : List (SessionObj × UInt32) :=
  tr.filterMap fun
    | .forwarded o seq _ _ _ => some (o, seq)
    | _ => none

@[simp] theorem admissions_append (tr tr' : List Obs) :
    admissions (tr ++ tr') = admissions tr ++ admissions tr' := List.filterMap_append

@[simp] theorem forwards_append (tr tr' : List Obs) :
    forwards (tr ++ tr') = forwards tr ++ forwards tr' := List.filterMap_append

/-- The admissions are the calls the windows answered with "not a duplicate". -/
theorem mem_admissions_iff {tr : List Obs} {o : SessionObj} {seq : UInt32} :
    (o, seq) ∈ admissions tr ↔ (seq, true) ∈ checks tr o := by
  simp only [admissions, checks, List.mem_filterMap]
  constructor
  · rintro ⟨obs, hmem, hobs⟩
    refine ⟨obs, hmem, ?_⟩
    split at hobs
    · simp_all
    · exact absurd hobs (by simp)
  · rintro ⟨obs, hmem, hobs⟩
    refine ⟨obs, hmem, ?_⟩
    split at hobs
    · split at hobs
      · simp_all
      · exact absurd hobs (by simp)
    · exact absurd hobs (by simp)

/-- The ledger of the client. -/
def ledger (s : State) (tr : List Obs) : Ledger Responder (SessionObj × UInt32) where
  pending := fun t => (s.responses t).bind Response.held
  admitted := admissions tr
  delivered := forwards tr

/-- A move of one reader, as the ledger sees it. -/
theorem ledger_setResponse (s : State) (cl : Client) (t : Responder) (r : Option Response)
    (tr : List Obs) :
    ledger ({ s with cl := cl }.setResponse t r) tr =
      ⟨Function.update (ledger s tr).pending t (r.bind Response.held), admissions tr,
        forwards tr⟩ := by
  have hpending : (ledger ({ s with cl := cl }.setResponse t r) tr).pending =
      Function.update (ledger s tr).pending t (r.bind Response.held) := by
    funext t'
    by_cases he : t' = t
    · simp [ledger, State.setResponse, he]
    · simp [ledger, State.setResponse, Function.update_of_ne he]
  rw [← hpending]
  rfl

section Moves

variable {s s' : State} {tr obs : List Obs}

/-- A move that leaves the readers alone. -/
theorem move_of_responses (hr : s'.responses = s.responses) (ha : admissions obs = [])
    (hf : forwards obs = []) : Ledger.Move (ledger s tr) (ledger s' (tr ++ obs)) := by
  have hsame : ledger s' (tr ++ obs) = ledger s tr := by
    simp only [ledger, hr, admissions_append, forwards_append, ha, hf, List.append_nil]
  rw [hsame]
  exact .stay

/-- A move during which the reader goes on holding what it held, or nothing. -/
theorem move_of_keep (cl : Client) {t : Responder} {r r' : Option Response}
    (ht : s.responses t = r) (hr : r'.bind Response.held = r.bind Response.held)
    (ha : admissions obs = []) (hf : forwards obs = []) :
    Ledger.Move (ledger s tr) (ledger ({ s with cl := cl }.setResponse t r') (tr ++ obs)) := by
  have hsame := ledger_setResponse s cl t r' (tr ++ obs)
  have hkeep : Function.update (ledger s (tr ++ obs)).pending t (r'.bind Response.held) =
      (ledger s (tr ++ obs)).pending := by
    rw [Function.update_eq_self_iff, hr, ← ht]
    rfl
  rw [hkeep, admissions_append, forwards_append, ha, hf, List.append_nil, List.append_nil] at hsame
  rw [hsame]
  exact .stay

/-- **The client refines the ledger.**  Every move of the client is a move of its ledger. -/
theorem ledger_act {e : Event} (hi : Objects s tr) (ha : Act s e s' obs) :
    Ledger.Move (ledger s tr) (ledger s' (tr ++ obs)) := by
  cases ha with
  | udpArrives hidle _ => exact move_of_keep s.cl hidle rfl rfl rfl
  | frameEnds _ hidle _ => exact move_of_keep _ hidle rfl rfl rfl
  | addrHit ht hpc _ =>
      exact move_of_keep s.cl ht (by simp [Response.held, hpc]) rfl rfl
  | addrMiss ht hpc _ =>
      exact move_of_keep s.cl ht (by simp [Response.held, hpc]) rfl rfl
  | sessionHit ht hpc _ =>
      exact move_of_keep s.cl ht (by simp [Response.held, hpc]) rfl rfl
  | sessionMiss ht hpc _ =>
      exact move_of_keep s.cl ht (by simp [Response.held, hpc]) rfl rfl
  | checkDup ht hpc _ => exact move_of_keep _ ht (by simp [Response.held, hpc]) rfl rfl
  | @checkNew t r source o now b ht hpc hd =>
      -- a number let through before would be rejected now
      have hnew : (o, r.seq) ∉ admissions tr := by
        intro hmem
        have hrej := (hi.tracks o).rejects_of_mem (mem_admissions_iff.mp hmem)
        have hdup : (s.cl.checkResponse o r.seq).1 = true :=
          congrArg Prod.fst (isDuplicate_of_rejects hrej)
        rw [hd] at hdup
        exact absurd hdup (by simp)
      have hsame := ledger_setResponse s (s.cl.checkResponse o r.seq).2 t
        (some { r with pc := .touch source o }) (tr ++ [Obs.checked o r.seq false])
      rw [Option.bind_some, admissions_append, forwards_append] at hsame
      rw [hsame]
      have hidle : (ledger s tr).pending t = none := by simp [ledger, ht, Response.held, hpc]
      have hmove := Ledger.Move.enter hidle hnew
      simpa [admissions, forwards, ledger, Response.held] using hmove
  | responseTouch ht hpc => exact move_of_keep _ ht (by simp [Response.held, hpc]) rfl rfl
  | @forward t r source o now b ht hpc =>
      have hheld : (ledger s tr).pending t = some (o, r.seq) := by
        simp [ledger, ht, Response.held, hpc]
      have hsame := ledger_setResponse s s.cl t none
        (tr ++ [Obs.forwarded o r.seq source r.payload b])
      rw [Option.bind_none, admissions_append, forwards_append] at hsame
      have hmove := Ledger.Move.deliver hheld
      rw [show s.setResponse t none = { s with cl := s.cl }.setResponse t none from rfl, hsame]
      simpa [admissions, forwards, ledger] using hmove
  | @udpSend h o seq i senders now random b b' _ _ =>
      refine move_of_responses rfl ?_ ?_ <;> cases b' <;> rfl
  | @tcpSend h o seq c servers frame now random b b' _ _ _ =>
      refine move_of_responses rfl ?_ ?_ <;> cases b' <;> rfl
  | _ => exact move_of_responses rfl rfl rfl

end Moves

/-- The ledger of every run is sound. -/
theorem sound_exec {cfg : ClientConfig} {counter : UInt64} {es : List Event} {s : State}
    {tr : List Obs} (hrun : (machine cfg counter).exec es = some (s, tr)) :
    (ledger s tr).Sound :=
  Machine.exec_induction (P := fun _ s tr => (ledger s tr).Sound) _ Ledger.sound_empty
    (fun _ _ _ _ _ _ hrun hs hstep =>
      hs.move (ledger_act (objects_exec hrun) (act_of_machine hstep))) es s tr hrun

/-- **At most once.**  No response is sent twice to the source of a session object. -/
theorem forwards_nodup {cfg : ClientConfig} {counter : UInt64} {es : List Event} {s : State}
    {tr : List Obs} (hrun : (machine cfg counter).exec es = some (s, tr)) :
    (forwards tr).Nodup :=
  (sound_exec hrun).nodup

end Fproxy.Client

namespace Fproxy

/-- **At-most-once forwarding on both sides.**  In every run of a server, for every session object
and every sequence number at most one packet is forwarded on the object's target socket; in every
run of a client, for every session object and every sequence number at most one response is
forwarded to the source. -/
theorem at_most_once :
    (∀ (cfg : Server.ServerConfig) (es : List Server.Event) (s : Server.State)
        (tr : List Server.Obs), (Server.machine cfg).exec es = some (s, tr) →
        ∀ o seq, (Server.forwards tr).count (o, seq) ≤ 1) ∧
      (∀ (cfg : Client.ClientConfig) (counter : UInt64) (es : List Client.Event)
        (s : Client.State) (tr : List Client.Obs),
        (Client.machine cfg counter).exec es = some (s, tr) →
        ∀ o seq, (Client.forwards tr).count (o, seq) ≤ 1) :=
  ⟨fun _ _ _ _ hrun o seq => List.nodup_iff_count_le_one.mp (Server.forwards_nodup hrun) (o, seq),
    fun _ _ _ _ _ hrun o seq =>
      List.nodup_iff_count_le_one.mp (Client.forwards_nodup hrun) (o, seq)⟩

/-- Two copies of a packet race on two listeners of the server. -/
def serverRace : List Server.Event :=
  let packet := Protocol.encodeUdp 7 0 [1]
  let step (l : ℕ) : Server.Event := .handler (.listener l) 10 true true
  [Server.Event.udpArrives 0 demoAddr packet, Server.Event.udpArrives 1 demoAddr packet] ++
    [0, 1, 0, 1, 0, 1, 0, 1, 0, 0].map step

/-- Two copies of a response race on the UDP path and the TCP path of the client. -/
def clientRace : List Client.Event :=
  let udp : Client.Event := .responder (.udp 0) 20 true
  let tcp : Client.Event := .responder (.tcp 0) 20 true
  Client.sendDatagram demoAddr 10 11 ++
    [.udpArrives 0 (Protocol.encodeUdp 1 0 [2]), .frameBegins 0,
      .frameEnds 0 (Protocol.encodeTcp 1 0 [2]), udp, udp, tcp, udp, tcp, udp, udp]

/-- One copy of each race is forwarded. -/
theorem at_most_once_race :
    (∃ s tr, (Server.machine Server.demoConfig).exec serverRace = some (s, tr) ∧
      Server.forwards tr = [(0, 0)] ∧ (Server.forwards tr).count (0, 0) ≤ 1) ∧
    (∃ s tr, (Client.machine Client.demoConfig 0).exec clientRace = some (s, tr) ∧
      Client.forwards tr = [(0, 0)] ∧ (Client.forwards tr).count (0, 0) ≤ 1) := by
  have hserver : ((Server.machine Server.demoConfig).exec serverRace).map
      (fun r => Server.forwards r.2) = some [(0, 0)] := by decide
  have hclient : ((Client.machine Client.demoConfig 0).exec clientRace).map
      (fun r => Client.forwards r.2) = some [(0, 0)] := by decide
  obtain ⟨⟨s, tr⟩, hrun, hf⟩ := Option.map_eq_some_iff.mp hserver
  obtain ⟨⟨s', tr'⟩, hrun', hf'⟩ := Option.map_eq_some_iff.mp hclient
  exact ⟨⟨s, tr, hrun, hf, at_most_once.1 _ _ s tr hrun 0 0⟩,
    ⟨s', tr', hrun', hf', at_most_once.2 _ _ _ s' tr' hrun' 0 0⟩⟩

end Fproxy
