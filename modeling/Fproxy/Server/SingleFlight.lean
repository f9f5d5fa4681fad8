import Fproxy.Library.Simulation
import Fproxy.Server.Machine

/-!
# One session object for each id

`get_or_create_session` looks a session up under the read lock and, if there is none, looks again
and creates it under the write lock.  Between the two sections any other caller may have created
the session and any sweep may have removed it.  The callers are the packet handlers, as many as
there are listeners and connections; the Go server has the same two sections.

* `watch cfg sid` — the server, observed at the entry of one id in the session table.
* `entry_act` — what one step does to that entry and tells a caller.
* `one_object_between_removals` — as long as the id is not removed, at most one object is put in
  the table for it, and everybody gets that one.
-/

namespace Fproxy.Server

open Fproxy.Runs

/-- What happens to the entry of one session id. -/
inductive Note where
  /-- An object is put in the table. -/
  | inserted (o : ObjId)
  /-- An object is removed from the table. -/
  | removed (o : ObjId)
  /-- A section of `get_or_create_session` returns an object to its caller. -/
  | returned (t : Task) (o : ObjId) (created : Bool)
  deriving DecidableEq

/-- The change of an entry. -/
def entryChange : Option ObjId → Option ObjId → List Note
  | none, none => []
  | none, some o => [.inserted o]
  | some o, none => [.removed o]
  | some o, some o' => if o = o' then [] else [.removed o, .inserted o']

/-- What a section of `get_or_create_session` for the id returns; a section that goes on to the
next one, or whose socket creation fails, returns nothing. -/
def returnedTo (sid : UInt64) (s : State) : Event → List Note
  | .handler t now connected _ =>
      match s.handlers t with
      | none => []
      | some h =>
          if h.sessionId = sid then
            match h.pc with
            | .lookup => ((s.srv.sessions sid).map fun o => .returned t o false).toList
            | .create =>
                ((s.srv.createSession sid now connected).2.map fun r =>
                  .returned t r.1 r.2).toList
            | _ => []
          else []
  | _ => []

/-- The notes of one step about one id. -/
def notes (sid : UInt64) (s : State) (e : Event) (s' : State) : List Note :=
  entryChange (s.srv.sessions sid) (s'.srv.sessions sid) ++ returnedTo sid s e

/-- The server, observed at the entry of one id. -/
def watch (cfg : ServerConfig) (sid : UInt64) : Machine State Event Note :=
  (machine cfg).observe fun s e s' _ => notes sid s e s'

/-- The objects put in the table. -/
def inserted (tr : List Note) : List ObjId :=
  tr.filterMap fun
    | .inserted o => some o
    | _ => none

/-- The callers told that they created the session, with the object they got. -/
def createdBy (tr : List Note) : List (Task × ObjId) :=
  tr.filterMap fun
    | .returned t o true => some (t, o)
    | _ => none

/-- The objects callers got, created or found. -/
def obtained (tr : List Note) : List ObjId :=
  tr.filterMap fun
    | .returned _ o _ => some o
    | _ => none

@[simp] theorem inserted_append (tr tr' : List Note) :
    inserted (tr ++ tr') = inserted tr ++ inserted tr' := List.filterMap_append

@[simp] theorem createdBy_append (tr tr' : List Note) :
    createdBy (tr ++ tr') = createdBy tr ++ createdBy tr' := List.filterMap_append

@[simp] theorem obtained_append (tr tr' : List Note) :
    obtained (tr ++ tr') = obtained tr ++ obtained tr' := List.filterMap_append

/-! ### One step -/

/-- The four things a step can do to the entry of an id: nothing, return the stored object, put a
new object in and return it as created, or remove the object. -/
inductive EntryStep : Option ObjId → Option ObjId → List Note → Prop
  | quiet {entry : Option ObjId} : EntryStep entry entry []
  | found {o : ObjId} {t : Task} : EntryStep (some o) (some o) [.returned t o false]
  | create {o : ObjId} {t : Task} : EntryStep none (some o) [.inserted o, .returned t o true]
  | remove {o : ObjId} : EntryStep (some o) none [.removed o]

theorem entryChange_self (entry : Option ObjId) : entryChange entry entry = [] := by
  cases entry <;> simp [entryChange]

/-- A handler of another id returns nothing for this one. -/
theorem returnedTo_ne {sid : UInt64} {s : State} {t : Task} {h : Handler} {now : ℕ}
    {b b' : Bool} (ht : s.handlers t = some h) (hne : h.sessionId ≠ sid) :
    returnedTo sid s (.handler t now b b') = [] := by
  simp only [returnedTo, ht, if_neg hne]

/-- A step that leaves the entry alone and returns nothing. -/
theorem EntryStep.of_quiet {sid : UInt64} {s s' : State} {e : Event}
    (hsess : s'.srv.sessions sid = s.srv.sessions sid) (hret : returnedTo sid s e = []) :
    EntryStep (s.srv.sessions sid) (s'.srv.sessions sid) (notes sid s e s') := by
  rw [notes, hret, hsess, entryChange_self]
  exact .quiet

/-- The sections of a handler after `get_or_create_session`. -/
def HandlerPc.hasSession : HandlerPc → Bool
  | .lookup | .create => false
  | _ => true

/-- A section of a handler that has its session leaves the entry alone and returns nothing. -/
theorem EntryStep.of_hasSession {sid : UInt64} {s s' : State} {t : Task} {h : Handler}
    {pc : HandlerPc} {now : ℕ} {b b' : Bool} (ht : s.handlers t = some h) (hpc : h.pc = pc)
    (hhas : pc.hasSession = true) (hsess : s'.srv.sessions = s.srv.sessions) :
    EntryStep (s.srv.sessions sid) (s'.srv.sessions sid)
      (notes sid s (.handler t now b b') s') := by
  refine .of_quiet (congrFun hsess sid) ?_
  simp only [returnedTo, ht, hpc]
  cases pc with
  | lookup | create => exact absurd hhas Bool.false_ne_true
  | _ => exact ite_self _

/-- An arriving packet is no section of a handler. -/
theorem returnedTo_arrival {sid : UInt64} {s : State} {source : Source} {e : Event}
    {data : List UInt8} (htcp : ∀ c, source = .tcp c → s.conns c = .open ∧ e = .tcpArrives c data)
    (hudp : ∀ l addr, source = .udp l addr → e = .udpArrives l addr data) :
    returnedTo sid s e = [] := by
  cases source with
  | udp l addr => rw [hudp l addr rfl]; rfl
  | tcp c => rw [(htcp c rfl).2]; rfl

/-- The sweep removes the entry or leaves it. -/
theorem entry_sweep (s : State) (now : ℕ) (sid : UInt64) :
    EntryStep (s.srv.sessions sid) ((s.srv.cleanupExpiredSessions now).sessions sid)
      (entryChange (s.srv.sessions sid) ((s.srv.cleanupExpiredSessions now).sessions sid)) := by
  simp only [cleanupExpiredSessions]
  split
  · next hexp =>
      cases hsess : s.srv.sessions sid with
      | none => exact .quiet
      | some o => exact .remove
  · rw [entryChange_self]
    exact .quiet

/-- The step lemma. -/
theorem entry_act {s s' : State} {e : Event} {obs : List Obs} (ha : Act s e s' obs)
    (sid : UInt64) :
    EntryStep (s.srv.sessions sid) (s'.srv.sessions sid) (notes sid s e s') := by
  cases ha with
  | undecodable _ htcp hudp => exact .of_quiet rfl (returnedTo_arrival htcp hudp)
  | arrive _ htcp hudp _ => exact .of_quiet rfl (returnedTo_arrival htcp hudp)
  | @lookupHit t h o _ _ _ ht hpc hsess =>
      by_cases hsid : h.sessionId = sid
      · rw [hsid] at hsess
        simp only [notes, State.setHandler, returnedTo, ht, hpc, hsess, if_pos hsid,
          entryChange_self, Option.map_some, Option.toList_some, List.nil_append]
        exact .found
      · exact .of_quiet rfl (returnedTo_ne ht hsid)
  | @lookupMiss t h _ _ _ ht hpc hsess =>
      by_cases hsid : h.sessionId = sid
      · rw [hsid] at hsess
        exact .of_quiet rfl (by simp [returnedTo, ht, hpc, hsess])
      · exact .of_quiet rfl (returnedTo_ne ht hsid)
  | @createHit t h o _ _ _ ht hpc hsess =>
      by_cases hsid : h.sessionId = sid
      · rw [hsid] at hsess
        simp only [notes, State.setHandler, returnedTo, createSession, ht, hpc, hsess, if_pos hsid,
          entryChange_self, Option.map_some, Option.toList_some, List.nil_append]
        exact .found
      · exact .of_quiet rfl (returnedTo_ne ht hsid)
  | @createFail t h _ _ ht hpc hsess =>
      by_cases hsid : h.sessionId = sid
      · rw [hsid] at hsess
        exact .of_quiet rfl (by simp [returnedTo, createSession, ht, hpc, hsess])
      · exact .of_quiet rfl (returnedTo_ne ht hsid)
  | @createNew t h now _ ht hpc hsess =>
      by_cases hsid : h.sessionId = sid
      · rw [hsid] at hsess
        simp only [notes, State.setHandler, returnedTo, createSession, ht, hpc, hsid, hsess,
          if_true, Function.update_self, entryChange, Option.map_some, Option.toList_some,
          List.cons_append, List.nil_append]
        exact .create
      · refine .of_quiet ?_ (returnedTo_ne ht hsid)
        simp only [State.setHandler, createSession, hsess, if_true]
        exact Function.update_of_ne (Ne.symm hsid) _ _
  | touch ht hpc => exact .of_hasSession ht hpc rfl rfl
  | checkDup ht hpc _ => exact .of_hasSession ht hpc rfl rfl
  | checkNew ht hpc _ _ => exact .of_hasSession ht hpc rfl rfl
  | trackUdp ht hpc _ => exact .of_hasSession ht hpc rfl rfl
  | track ht hpc _ => exact .of_hasSession ht hpc rfl rfl
  | registerUdp ht hpc _ => exact .of_hasSession ht hpc rfl rfl
  | registerTcp ht hpc _ => exact .of_hasSession ht hpc rfl rfl
  | forward ht hpc => exact .of_hasSession ht hpc rfl rfl
  | @removePath c k _ => exact .of_quiet (by rw [State.setConn, removeTcpPath_sessions]) rfl
  | @sweep now =>
      have hsweep := entry_sweep s now sid
      simpa only [notes, returnedTo, List.append_nil] using hsweep
  | _ => exact .of_quiet rfl rfl

/-! ### Between two removals -/

/-- What a stretch of a run does to the entry of an id that is not removed in it. -/
inductive Interval : Option ObjId → List Note → Prop
  /-- The id is not there and stays away. -/
  | absent {tr : List Note} : inserted tr = [] → createdBy tr = [] → obtained tr = [] →
      Interval none tr
  /-- The id is there. -/
  | present {o : ObjId} {tr : List Note} : inserted tr = [] → createdBy tr = [] →
      (∀ o' ∈ obtained tr, o' = o) → Interval (some o) tr
  /-- The id is not there, and one caller puts it in. -/
  | created {o : ObjId} {t : Task} {tr : List Note} : inserted tr = [o] →
      createdBy tr = [(t, o)] → (∀ o' ∈ obtained tr, o' = o) → Interval none tr

/-- One more step at the front. -/
theorem Interval.cons {entry entry' : Option ObjId} {obs tr : List Note}
    (hstep : EntryStep entry entry' obs) (hno : ∀ o, Note.removed o ∉ obs)
    (hi : Interval entry' tr) : Interval entry (obs ++ tr) := by
  cases hstep with
  | quiet => exact hi
  | @found o t =>
      cases hi with
      | present hins hcr hobt =>
          refine .present (by simpa [inserted] using hins) (by simpa [createdBy] using hcr) ?_
          simpa [obtained] using hobt
  | @create o t =>
      cases hi with
      | present hins hcr hobt =>
          refine .created (t := t) (o := o) ?_ ?_ ?_
          · rw [inserted_append, hins]; rfl
          · rw [createdBy_append, hcr]; rfl
          · simpa [obtained] using hobt
  | @remove o => exact absurd (List.mem_singleton_self _) (hno o)

theorem interval_execFrom {cfg : ServerConfig} {sid : UInt64} {es : List Event} {s s' : State}
    {tr : List Note} (hrun : (watch cfg sid).execFrom s es = some (s', tr))
    (hno : ∀ o, Note.removed o ∉ tr) : Interval (s.srv.sessions sid) tr := by
  induction es generalizing s tr with
  | nil =>
      obtain ⟨rfl, rfl⟩ := Prod.mk.inj (Option.some.inj hrun)
      cases hsess : s.srv.sessions sid with
      | none => exact .absent rfl rfl rfl
      | some o => exact .present rfl rfl (fun o' h => absurd h (by simp [obtained]))
  | cons e es ih =>
      obtain ⟨s₁, obs, tr₁, hstep, hrest, rfl⟩ := (watch cfg sid).execFrom_cons.mp hrun
      obtain ⟨o', hs, rfl⟩ := Machine.observe_step.mp hstep
      refine Interval.cons (entry_act (act_of_machine hs) sid)
        (fun o h => hno o (List.mem_append_left _ h)) (ih hrest fun o h => hno o ?_)
      exact List.mem_append_right _ h

/-- **One session object for each id.**  Take any stretch of a run of the server, with any number
of packet handlers in any of their sections, expiry sweeps, and socket creations that succeed or
fail, in which the id is not removed from the session table.  At most one object is put in the
table for the id; as many callers are told that they created it as objects were put in; and all
callers whose check or creation succeeds in the stretch get one and the same object, the one put in
if there is one. -/
theorem one_object_between_removals (cfg : ServerConfig) (sid : UInt64) (es : List Event)
    {s s' : State} {tr : List Note} (hrun : (watch cfg sid).execFrom s es = some (s', tr))
    (hno : ∀ o, Note.removed o ∉ tr) :
    (inserted tr).length ≤ 1 ∧ (createdBy tr).length = (inserted tr).length ∧
      ∃ o, (∀ o' ∈ inserted tr, o' = o) ∧ (∀ o' ∈ obtained tr, o' = o) ∧
        ∀ c ∈ createdBy tr, c.2 = o := by
  have hi := interval_execFrom hrun hno
  generalize s.srv.sessions sid = entry at hi
  cases hi with
  | absent hins hcr hobt =>
      rw [hins, hcr, hobt]
      exact ⟨Nat.zero_le _, rfl, 0, by simp, by simp, by simp⟩
  | @present o _ hins hcr hobt =>
      rw [hins, hcr]
      exact ⟨Nat.zero_le _, rfl, o, by simp, hobt, by simp⟩
  | @created o t _ hins hcr hobt =>
      rw [hins, hcr]
      exact ⟨le_refl _, rfl, o, by simp, hobt, by simp⟩

/-- Packets of session 7 on three listeners.  All three handlers miss the session; the socket
creation of the first to go on fails, the second creates the session, the third finds it. -/
def threeCallers : List Event :=
  let arrives (l : ListenerId) : Event :=
    .udpArrives l demoAddr (Protocol.encodeUdp 7 (UInt32.ofNat l) [1])
  let next (l : ListenerId) (connected : Bool) : Event := .handler (.listener l) 10 connected true
  [arrives 0, arrives 1, arrives 2, next 0 true, next 1 true, next 2 true,
    next 0 false, next 1 true, next 2 true]

/-- One of the three is told that it created the session. -/
theorem one_object_three_callers :
    ∃ s tr, (watch demoConfig 7).execFrom (watch demoConfig 7).init threeCallers = some (s, tr) ∧
      tr = [.inserted 0, .returned (.listener 1) 0 true, .returned (.listener 2) 0 false] ∧
      (inserted tr).length ≤ 1 ∧ (createdBy tr).length = (inserted tr).length ∧
      ∃ o, (∀ o' ∈ inserted tr, o' = o) ∧ (∀ o' ∈ obtained tr, o' = o) ∧
        ∀ c ∈ createdBy tr, c.2 = o := by
  have hview : ((watch demoConfig 7).execFrom (watch demoConfig 7).init threeCallers).map
      Prod.snd = some [.inserted 0, .returned (.listener 1) 0 true,
        .returned (.listener 2) 0 false] := by decide
  obtain ⟨⟨s, tr⟩, hrun, hv⟩ := Option.map_eq_some_iff.mp hview
  have hno : ∀ o, Note.removed o ∉ tr := fun o hm => by
    rw [show tr = _ from hv] at hm
    simp at hm
  exact ⟨s, tr, hrun, hv, one_object_between_removals demoConfig 7 threeCallers hrun hno⟩

end Fproxy.Server
