import Fproxy.Library.Ledger
import Fproxy.Server.Objects

/-!
# What the server forwards, it forwards once

A packet that its window lets through is held by its handler until it is forwarded, and other
handlers of the same session may run in between.  The server is an instance of the ledger of the
library: tasks hold pairs of a session object and a sequence number.

* `ledger` — the ledger of a state and the trace that led to it.
* `ledger_act` — every move of the server is a move of the ledger; the windows are what makes an
  admission one.
* `forwards_nodup` — along every run no pair is forwarded twice.
-/

namespace Fproxy.Server

open Fproxy.Runs Fproxy.DedupWindow

/-- What a handler holds: let through by the window of an object, and not yet forwarded. -/
def Handler.held (h : Handler) : Option (ObjId × UInt32) :=
  match h.pc with
  | .track o => some (o, h.seq)
  | .register o => some (o, h.seq)
  | .forward o => some (o, h.seq)
  | _ => none

/-- The packets the windows let through. -/
def admissions (tr : List Obs) : List (ObjId × UInt32) :=
  tr.filterMap fun
    | .checked o seq _ false => some (o, seq)
    | _ => none

/-- The packets sent on the target sockets. -/
def forwards (tr : List Obs) : List (ObjId × UInt32) :=
  tr.filterMap fun
    | .forwarded o _ seq _ _ => some (o, seq)
    | _ => none

@[simp] theorem admissions_append (tr tr' : List Obs) :
    admissions (tr ++ tr') = admissions tr ++ admissions tr' := List.filterMap_append

@[simp] theorem forwards_append (tr tr' : List Obs) :
    forwards (tr ++ tr') = forwards tr ++ forwards tr' := List.filterMap_append

/-- The admissions are the calls the windows answered with "not a duplicate". -/
theorem mem_admissions_iff {tr : List Obs} {o : ObjId} {seq : UInt32} :
    (o, seq) ∈ admissions tr ↔ (seq, true) ∈ checks tr o := by
  simp only [admissions, checks, List.mem_filterMap]
  constructor
  · rintro ⟨obs, hmem, hobs⟩
    refine ⟨obs, hmem, ?_⟩
    split at hobs
    · simp_all
    · exact absurd hobs (by simp)
  · rintro ⟨obs, hmem, hobs⟩
    refine ⟨obs, hmem, ?_⟩
    split at hobs
    · split at hobs
      · simp_all
      · exact absurd hobs (by simp)
    · exact absurd hobs (by simp)

/-- The ledger of the server. -/
def ledger (s : State) (tr : List Obs) : Ledger Task (ObjId × UInt32) where
  pending := fun t => (s.handlers t).bind Handler.held
  admitted := admissions tr
  delivered := forwards tr

/-- A move of one handler, as the ledger sees it. -/
theorem ledger_setHandler (s : State) (srv : Server) (t : Task) (h : Option Handler)
    (tr : List Obs) :
    ledger ({ s with srv := srv }.setHandler t h) tr =
      ⟨Function.update (ledger s tr).pending t (h.bind Handler.held), admissions tr,
        forwards tr⟩ := by
  have hpending : (ledger ({ s with srv := srv }.setHandler t h) tr).pending =
      Function.update (ledger s tr).pending t (h.bind Handler.held) := by
    funext t'
    by_cases he : t' = t
    · simp [ledger, State.setHandler, he]
    · simp [ledger, State.setHandler, Function.update_of_ne he]
  rw [← hpending]
  rfl

section Moves

variable {s s' : State} {tr obs : List Obs}

/-- A move that leaves the handlers alone. -/
theorem move_of_handlers (hh : s'.handlers = s.handlers) (ha : admissions obs = [])
    (hf : forwards obs = []) : Ledger.Move (ledger s tr) (ledger s' (tr ++ obs)) := by
  have hsame : ledger s' (tr ++ obs) = ledger s tr := by
    simp only [ledger, hh, admissions_append, forwards_append, ha, hf, List.append_nil]
  rw [hsame]
  exact .stay

/-- A move during which the task goes on holding what it held, or nothing. -/
theorem move_of_keep (srv : Server) {t : Task} {h h' : Option Handler}
    (ht : s.handlers t = h) (hh : h'.bind Handler.held = h.bind Handler.held)
    (ha : admissions obs = []) (hf : forwards obs = []) :
    Ledger.Move (ledger s tr) (ledger ({ s with srv := srv }.setHandler t h') (tr ++ obs)) := by
  have hsame := ledger_setHandler s srv t h' (tr ++ obs)
  have hkeep : Function.update (ledger s (tr ++ obs)).pending t (h'.bind Handler.held) =
      (ledger s (tr ++ obs)).pending := by
    rw [Function.update_eq_self_iff, hh, ← ht]
    rfl
  rw [hkeep, admissions_append, forwards_append, ha, hf, List.append_nil, List.append_nil] at hsame
  rw [hsame]
  exact .stay

/-- **The server refines the ledger.**  Every move of the server is a move of its ledger. -/
theorem ledger_act {cfg : ServerConfig} {e : Event} (hi : Objects cfg s tr)
    (ha : Act s e s' obs) : Ledger.Move (ledger s tr) (ledger s' (tr ++ obs)) := by
  cases ha with
  | arrive hidle _ _ _ => exact move_of_keep s.srv hidle rfl rfl rfl
  | lookupHit ht hpc _ =>
      exact move_of_keep s.srv ht (by simp [Handler.held, hpc]) rfl rfl
  | lookupMiss ht hpc _ =>
      exact move_of_keep s.srv ht (by simp [Handler.held, hpc]) rfl rfl
  | createHit ht hpc _ =>
      exact move_of_keep s.srv ht (by simp [Handler.held, hpc]) rfl rfl
  | createFail ht hpc _ =>
      exact move_of_keep s.srv ht (by simp [Handler.held, hpc]) rfl rfl
  | createNew ht hpc _ => exact move_of_keep _ ht (by simp [Handler.held, hpc]) rfl rfl
  | touch ht hpc => exact move_of_keep _ ht (by simp [Handler.held, hpc]) rfl rfl
  | checkDup ht hpc _ => exact move_of_keep _ ht (by simp [Handler.held, hpc]) rfl rfl
  | @checkNew t h o pc now b b' ht hpc hd hnext =>
      have hheld : Handler.held { h with pc := pc } = some (o, h.seq) := by
        rcases hnext with ⟨rfl, _⟩ | ⟨rfl, _⟩ <;> rfl
      -- a number let through before would be rejected now
      have hnew : (o, h.seq) ∉ admissions tr := by
        intro hmem
        have hrej := (hi.tracks o).rejects_of_mem (mem_admissions_iff.mp hmem)
        have hdup : (s.srv.checkDuplicate o h.seq).1 = true :=
          congrArg Prod.fst (isDuplicate_of_rejects hrej)
        rw [hd] at hdup
        exact absurd hdup (by simp)
      have hsame := ledger_setHandler s (s.srv.checkDuplicate o h.seq).2 t
        (some { h with pc := pc }) (tr ++ [Obs.checked o h.seq h.payload false])
      rw [Option.bind_some, hheld, admissions_append, forwards_append] at hsame
      rw [hsame]
      have hidle : (ledger s tr).pending t = none := by simp [ledger, ht, Handler.held, hpc]
      have hmove := Ledger.Move.enter hidle hnew
      simpa [admissions, forwards, ledger] using hmove
  | trackUdp ht hpc _ =>
      exact move_of_keep s.srv ht (by simp [Handler.held, hpc]) rfl rfl
  | track ht hpc _ => exact move_of_keep _ ht (by simp [Handler.held, hpc]) rfl rfl
  | registerUdp ht hpc _ => exact move_of_keep _ ht (by simp [Handler.held, hpc]) rfl rfl
  | registerTcp ht hpc _ => exact move_of_keep _ ht (by simp [Handler.held, hpc]) rfl rfl
  | @forward t h o now b b' ht hpc =>
      have hheld : (ledger s tr).pending t = some (o, h.seq) := by
        simp [ledger, ht, Handler.held, hpc]
      have hsame := ledger_setHandler s s.srv t none
        (tr ++ [Obs.forwarded o h.sessionId h.seq h.payload b'])
      rw [Option.bind_none, admissions_append, forwards_append] at hsame
      have hmove := Ledger.Move.deliver hheld
      rw [show s.setHandler t none = { s with srv := s.srv }.setHandler t none from rfl, hsame]
      simpa [admissions, forwards, ledger] using hmove
  | @responseSend o payload seq p ps now b _ =>
      refine move_of_handlers rfl ?_ ?_ <;> cases b <;> cases p <;> rfl
  | _ => exact move_of_handlers rfl rfl rfl

end Moves

/-- The ledger of every run is sound. -/
theorem sound_exec {cfg : ServerConfig} {es : List Event} {s : State} {tr : List Obs}
    (hrun : (machine cfg).exec es = some (s, tr)) : (ledger s tr).Sound :=
  (Machine.exec_induction (P := fun _ s tr => (ledger s tr).Sound) _ Ledger.sound_empty
    (fun _ _ _ _ _ _ hrun hs hstep =>
      hs.move (ledger_act (objects_exec hrun) (act_of_machine hstep))) es s tr hrun)

/-- **At most once.**  No packet is sent twice on the target socket of a session object. -/
theorem forwards_nodup {cfg : ServerConfig} {es : List Event} {s : State} {tr : List Obs}
    (hrun : (machine cfg).exec es = some (s, tr)) : (forwards tr).Nodup :=
  (sound_exec hrun).nodup

end Fproxy.Server
