import Fproxy.Library.Simulation
import Fproxy.Server.Handlers
import Fproxy.Server.Objects
import Fproxy.Server.SingleFlight

/-!
# Sessions do not influence each other

All sessions of the server share its tables and its sweep.  Seen from one session, the server is a
small automaton that keeps a window and the time of the last activity while the session lives, and
that packets, responses and closed connections of other sessions leave alone.

* `timeline cfg sid` — the server handling timed events one after the other, observed at what
  happens to one session: when it is created and expired, and what is forwarded for it.
* `session cfg sid` — the automaton.
* `follows_handle` — the step of the simulation; `timeline_eq_session` — both have the same trace.
* `session_isolation` — the packets and responses of other sessions can be left out.
-/

namespace Fproxy.Server

open Fproxy.Protocol Fproxy.Runs Fproxy.DedupWindow

/-! ### Timed events -/

/-- An event that is handled to its end before the next one, with its clock reading and what the
environment decides about the sends. -/
inductive Timed where
  | packet (source : Source) (data : List UInt8) (now : ℕ) (sendOk : Bool)
  | response (sessionId : UInt64) (payload : List UInt8) (now : ℕ) (sendOk : ClientPath → Bool)
  | close (c : ConnId)
  | sweep (now : ℕ)

/-- The clock reading; the clean-up of a connection makes none. -/
def Timed.now : Timed → ℕ
  | .packet _ _ now _ => now
  | .response _ _ now _ => now
  | .close _ => 0
  | .sweep now => now

/-- Handle an event.  Target sockets can always be created. -/
def handle (s : Server) : Timed → Server × List Obs
  | .packet source data now sendOk => s.handleFrom source data ⟨now, true, sendOk⟩
  | .response sessionId payload now sendOk => s.sendResponseToAllPaths sessionId payload now sendOk
  | .close c => (s.cleanupTcpConn c, [])
  | .sweep now => (s.cleanupExpiredSessions now, [])

/-- The event is no packet and no response of another session. -/
def Timed.concerns (sid : UInt64) : Timed → Bool
  | .packet _ data _ _ =>
      match decodePacket data with
      | .error _ => true
      | .ok (sid', _, _) => sid' = sid
  | .response sid' _ _ _ => sid' = sid
  | .close _ => true
  | .sweep _ => true

/-! ### What happens to one session -/

/-- An entry of the timeline of a session. -/
inductive Mark where
  | created (now : ℕ)
  | expired (now : ℕ)
  | forwarded (now : ℕ) (seq : UInt32) (payload : List UInt8) (ok : Bool)
  deriving DecidableEq

/-- A change of the entry of the session in the table. -/
def Note.mark (now : ℕ) : Note → Option Mark
  | .inserted _ => some (.created now)
  | .removed _ => some (.expired now)
  | .returned _ _ _ => none

/-- A send on the target socket of the session. -/
def Obs.mark (sid : UInt64) (now : ℕ) : Obs → Option Mark
  | .forwarded _ sid' seq payload ok =>
      if sid' = sid then some (.forwarded now seq payload ok) else none
  | _ => none

/-- What one event puts on the timeline of a session. -/
def marks (sid : UInt64) (s : Server) (e : Timed) (s' : Server) (obs : List Obs) : List Mark :=
  (entryChange (s.sessions sid) (s'.sessions sid)).filterMap (Note.mark e.now) ++
    obs.filterMap (Obs.mark sid e.now)

/-- The server handling timed events. -/
def timed (cfg : ServerConfig) : Machine Server Timed (List Obs) :=
  .calls (new cfg) fun s e => ((s.handle e).2, (s.handle e).1)

/-- The same, observed at one session. -/
def timeline (cfg : ServerConfig) (sid : UInt64) : Machine Server Timed Mark :=
  (timed cfg).observe fun s e s' obs => marks sid s e s' obs.flatten

/-! ### One session as an automaton -/

/-- What the server keeps of a living session. -/
structure Life where
  dedupWindow : DedupWindow
  lastActivity : ℕ
  deriving DecidableEq

/-- A packet of the session. -/
def Life.receive (cfg : ServerConfig) (life : Option Life) (seq : UInt32) (payload : List UInt8)
    (now : ℕ) (sendOk : Bool) : Option Life × List Mark :=
  let window := match life with
    | some l => l.dedupWindow
    | none => .new cfg.dedupWindow
  let created := if life.isNone then [Mark.created now] else []
  let r := window.isDuplicate seq
  (some ⟨r.2, now⟩, created ++ if r.1 then [] else [.forwarded now seq payload sendOk])

/-- The automaton of a session. -/
def sessionStep (cfg : ServerConfig) (sid : UInt64) (life : Option Life) :
    Timed → Option Life × List Mark
  | .packet _ data now sendOk =>
      match decodePacket data with
      | .error _ => (life, [])
      | .ok (sid', seq, payload) =>
          if sid' = sid then Life.receive cfg life seq payload now sendOk else (life, [])
  | .response sid' _ now _ =>
      (if sid' = sid then life.map fun l => { l with lastActivity := now } else life, [])
  | .close _ => (life, [])
  | .sweep now =>
      match life with
      | none => (none, [])
      | some l =>
          if cfg.sessionTimeout < now - l.lastActivity then (none, [.expired now])
          else (some l, [])

/-- The automaton as a machine. -/
def session (cfg : ServerConfig) (sid : UInt64) : Machine (Option Life) Timed Mark where
  init := none
  step := fun life e => some (sessionStep cfg sid life e)

/-- What concerns other sessions only does nothing. -/
theorem sessionStep_of_not_concerns (cfg : ServerConfig) {sid : UInt64} (life : Option Life)
    {e : Timed} (h : e.concerns sid = false) : sessionStep cfg sid life e = (life, []) := by
  cases e with
  | packet source data now sendOk =>
      simp only [Timed.concerns] at h
      simp only [sessionStep]
      cases hdec : decodePacket data with
      | error e => rfl
      | ok p =>
          rw [hdec] at h
          exact if_neg (by simpa using h)
  | response sid' payload now sendOk =>
      simp only [sessionStep, if_neg (show ¬ sid' = sid by simpa [Timed.concerns] using h)]
  | close c => rfl
  | sweep now => exact absurd h (by simp [Timed.concerns])

/-! ### The server follows the automaton -/

/-- The life of a session, read off the server. -/
def lifeOf (s : Server) (sid : UInt64) : Option Life :=
  (s.sessions sid).map fun o => ⟨(s.heap o).dedupWindow, (s.heap o).lastActivity⟩

/-- The server keeps a session as the automaton does. -/
structure Follows (cfg : ServerConfig) (sid : UInt64) (s : Server) (life : Option Life) :
    Prop where
  cfg_eq : s.cfg = cfg
  stored : ∀ sid o, s.sessions sid = some o → Owns s sid o
  life_eq : lifeOf s sid = life

theorem follows_new (cfg : ServerConfig) (sid : UInt64) : Follows cfg sid (new cfg) none :=
  ⟨rfl, fun _ _ h => absurd h (by simp [new]), rfl⟩

namespace Follows

variable {cfg : ServerConfig} {sid : UInt64} {s s' : Server} {life : Option Life}

/-- The session is not there. -/
theorem eq_none (h : Follows cfg sid s life) (hs : s.sessions sid = none) : life = none := by
  rw [← h.life_eq, lifeOf, hs]
  rfl

/-- The session is there, with its window and its last activity. -/
theorem eq_some (h : Follows cfg sid s life) {o : ObjId} (hs : s.sessions sid = some o) :
    life = some ⟨(s.heap o).dedupWindow, (s.heap o).lastActivity⟩ := by
  rw [← h.life_eq, lifeOf, hs]
  rfl

/-- Frame rule: the sessions are left alone. -/
theorem same (h : Follows cfg sid s life) (hcfg : s'.cfg = s.cfg)
    (hsess : s'.sessions = s.sessions) (hheap : s'.heap = s.heap) (hnext : s'.next = s.next) :
    Follows cfg sid s' life where
  cfg_eq := hcfg.trans h.cfg_eq
  stored := fun id o ho => by
    rw [hsess] at ho
    rw [Owns, hheap, hnext]
    exact h.stored id o ho
  life_eq := by rw [← h.life_eq, lifeOf, lifeOf, hsess, hheap]

/-- Frame rule: one object, stored under some id, changes its window or its last activity. -/
theorem update (h : Follows cfg sid s life) {sid' : UInt64} {o : ObjId}
    (ho : s.sessions sid' = some o) {t : TargetSession}
    (hid : t.sessionId = (s.heap o).sessionId) (hcfg : s'.cfg = s.cfg)
    (hsess : s'.sessions = s.sessions) (hheap : s'.heap = Function.update s.heap o t)
    (hnext : s'.next = s.next) :
    Follows cfg sid s' (if sid' = sid then some ⟨t.dedupWindow, t.lastActivity⟩ else life) where
  cfg_eq := hcfg.trans h.cfg_eq
  stored := fun id o' ho' => by
    rw [hsess] at ho'
    rw [Owns, hheap, hnext]
    refine ⟨(h.stored id o' ho').1, ?_⟩
    by_cases he : o' = o
    · subst he
      rw [Function.update_self, hid]
      exact (h.stored id o' ho').2
    · rw [Function.update_of_ne he]
      exact (h.stored id o' ho').2
  life_eq := by
    by_cases he : sid' = sid
    · subst he
      simp [lifeOf, hsess, ho, hheap]
    · -- objects of different sessions are different
      rw [if_neg he, ← h.life_eq, lifeOf, lifeOf, hsess, hheap]
      refine Option.map_congr fun o' ho' => ?_
      have hne : o' ≠ o := by
        intro hoo
        refine he ?_
        rw [← (h.stored sid' o ho).2, ← hoo]
        exact (h.stored sid o' ho').2
      rw [Function.update_of_ne hne]

/-- The creation of a session. -/
theorem create (h : Follows cfg sid s life) {sid' : UInt64} (hnone : s.sessions sid' = none)
    (now : ℕ) :
    Follows cfg sid (s.createSession sid' now true).1
      (if sid' = sid then some ⟨.new cfg.dedupWindow, now⟩ else life) := by
  simp only [createSession, hnone, if_true]
  refine ⟨h.cfg_eq, fun id o ho => ?_, ?_⟩
  · have ho : Function.update s.sessions sid' (some s.next) id = some o := ho
    by_cases he : id = sid'
    · subst he
      rw [Function.update_self, Option.some.injEq] at ho
      subst ho
      exact ⟨Nat.lt_succ_self _, by simp [TargetSession.new]⟩
    · rw [Function.update_of_ne he] at ho
      have hold := h.stored id o ho
      refine ⟨Nat.lt_succ_of_lt hold.1, ?_⟩
      show (Function.update s.heap s.next _ o).sessionId = id
      rw [Function.update_of_ne (Nat.ne_of_lt hold.1)]
      exact hold.2
  · by_cases he : sid' = sid
    · subst he
      simp [lifeOf, TargetSession.new, h.cfg_eq]
    · rw [if_neg he, ← h.life_eq, lifeOf, lifeOf]
      dsimp only
      rw [Function.update_of_ne (Ne.symm he)]
      refine Option.map_congr fun o ho => ?_
      rw [Function.update_of_ne (Nat.ne_of_lt (h.stored sid o ho).1)]

/-- The registration of a path. -/
theorem addPath (h : Follows cfg sid s life) (source : Source) (sid' : UInt64) :
    Follows cfg sid (source.addPath s sid') life := by
  cases source <;> exact h.same rfl rfl rfl rfl

/-- The write of `last_activity` and the call of `is_duplicate` on the object of some session. -/
theorem receive (h : Follows cfg sid s life) {sid' : UInt64} {o : ObjId}
    (ho : s.sessions sid' = some o) (now : ℕ) (seq : UInt32) :
    Follows cfg sid ((s.touch o now).checkDuplicate o seq).2
      (if sid' = sid then some ⟨((s.heap o).dedupWindow.isDuplicate seq).2, now⟩ else life) := by
  have hheap : ((s.touch o now).checkDuplicate o seq).2.heap = Function.update s.heap o
      { s.heap o with
        lastActivity := now, dedupWindow := ((s.heap o).dedupWindow.isDuplicate seq).2 } := by
    simp [checkDuplicate, touch]
  exact h.update ho (t := { s.heap o with lastActivity := now, dedupWindow := _ }) rfl rfl rfl
    hheap rfl

/-- A response for some session. -/
theorem respond (h : Follows cfg sid s life) (sid' : UInt64) (payload : List UInt8) (now : ℕ)
    (sendOk : ClientPath → Bool) :
    Follows cfg sid (s.sendResponseToAllPaths sid' payload now sendOk).1
      (if sid' = sid then life.map fun l => { l with lastActivity := now } else life) := by
  unfold sendResponseToAllPaths
  cases ho : s.sessions sid' with
  | none =>
      dsimp only
      split
      · next he =>
          obtain rfl := h.eq_none (he ▸ ho)
          exact h
      · exact h
  | some o =>
      have hheap : ((s.touch o now).takeResponseSeq o).2.heap = Function.update s.heap o
          { s.heap o with
            lastActivity := now, responseSeq := (s.heap o).responseSeq + 1 } := by
        simp [takeResponseSeq, touch]
      have hnext : Follows cfg sid ((s.touch o now).takeResponseSeq o).2
          (if sid' = sid then some ⟨(s.heap o).dedupWindow, now⟩ else life) :=
        h.update ho
          (t := { s.heap o with lastActivity := now, responseSeq := (s.heap o).responseSeq + 1 })
          rfl rfl rfl hheap rfl
      by_cases he : sid' = sid
      · obtain rfl := h.eq_some (he ▸ ho)
        rw [if_pos he] at hnext ⊢
        exact hnext
      · rw [if_neg he] at hnext ⊢
        exact hnext

/-- The clean-up of a connection. -/
theorem close (h : Follows cfg sid s life) (c : ConnId) : Follows cfg sid (s.cleanupTcpConn c) life :=
  h.same (by simp [cleanupTcpConn, untrackTcpConn]) (by simp [cleanupTcpConn, untrackTcpConn])
    (by simp [cleanupTcpConn, untrackTcpConn]) (by simp [cleanupTcpConn, untrackTcpConn])

/-- The sweep finds a session expired by its own last activity. -/
theorem expired_eq (h : Follows cfg sid s life) (now : ℕ) :
    s.expired now sid = life.any fun l => cfg.sessionTimeout < now - l.lastActivity := by
  rw [← h.life_eq, lifeOf, Server.expired, h.cfg_eq]
  cases s.sessions sid <;> rfl

theorem sweep (h : Follows cfg sid s life) (now : ℕ) :
    Follows cfg sid (s.cleanupExpiredSessions now) (if s.expired now sid then none else life) := by
  refine ⟨h.cfg_eq, fun id o ho => ?_, ?_⟩
  · have hold := h.stored id o (sessions_of_cleanupExpiredSessions ho).2
    exact ⟨hold.1, (cleanupExpiredSessions_sessionId s now o).trans hold.2⟩
  · rw [← h.life_eq, lifeOf, lifeOf]
    simp only [cleanupExpiredSessions]
    split
    · rfl
    · refine Option.map_congr fun o ho => ?_
      split <;> rfl

end Follows

/-- A packet that decodes, once its session is found or created: the server and what it says. -/
def receivePacket (s : Server) (o : ObjId) (source : Source) (sid : UInt64) (seq : UInt32)
    (payload : List UInt8) (now : ℕ) (sendOk : Bool) : Server × List Obs :=
  if ((s.heap o).dedupWindow.isDuplicate seq).1 then
    (((s.touch o now).checkDuplicate o seq).2, [.checked o seq payload true])
  else (source.addPath ((s.touch o now).checkDuplicate o seq).2 sid,
    [.checked o seq payload false, .forwarded o sid seq payload sendOk])

theorem handleFrom_found {s s₁ : Server} {source : Source} {data : List UInt8} {sid : UInt64}
    {seq : UInt32} {payload : List UInt8} (hdec : decodePacket data = .ok (sid, seq, payload))
    {now : ℕ} {sendOk b : Bool} {o : ObjId}
    (hget : s.getOrCreateSession sid now true = (s₁, some (o, b))) :
    s.handleFrom source data ⟨now, true, sendOk⟩ =
      s₁.receivePacket o source sid seq payload now sendOk := by
  have hverdict : ((s₁.touch o now).checkDuplicate o seq).1 =
      ((s₁.heap o).dedupWindow.isDuplicate seq).1 := by simp [checkDuplicate, touch]
  rw [handleFrom_eq, handlePacket, hdec]
  dsimp only
  rw [hget]
  dsimp only
  rw [receivePacket, ← hverdict]
  cases (s₁.touch o now).checkDuplicate o seq with
  | mk dup s₂ => cases dup <;> rfl

/-- What the rest of the handling of a packet does to the sessions, and to the timeline of one. -/
theorem Follows.receivePacket {cfg : ServerConfig} {sid sid' : UInt64} {s : Server}
    {life : Option Life} (h : Follows cfg sid s life) {o : ObjId} (ho : s.sessions sid' = some o)
    (source : Source) (seq : UInt32) (payload : List UInt8) (now : ℕ) (sendOk : Bool) :
    Follows cfg sid (s.receivePacket o source sid' seq payload now sendOk).1
        (if sid' = sid then some ⟨((s.heap o).dedupWindow.isDuplicate seq).2, now⟩ else life) ∧
      (s.receivePacket o source sid' seq payload now sendOk).1.sessions = s.sessions ∧
      (s.receivePacket o source sid' seq payload now sendOk).2.filterMap (Obs.mark sid now) =
        if sid' = sid then
          if ((s.heap o).dedupWindow.isDuplicate seq).1 then []
          else [.forwarded now seq payload sendOk]
        else [] := by
  unfold Server.receivePacket
  have hnext := h.receive ho now seq
  cases ((s.heap o).dedupWindow.isDuplicate seq).1 with
  | true =>
      refine ⟨hnext, rfl, ?_⟩
      by_cases he : sid' = sid <;> simp [Obs.mark, he]
  | false =>
      refine ⟨hnext.addPath source sid', by cases source <;> rfl, ?_⟩
      by_cases he : sid' = sid <;> simp [Obs.mark, List.filterMap_cons, he]

/-- A packet of some session. -/
theorem follows_packet {cfg : ServerConfig} {sid : UInt64} {s : Server} {life : Option Life}
    (h : Follows cfg sid s life) (source : Source) {data : List UInt8} {sid' : UInt64}
    {seq : UInt32} {payload : List UInt8} (hdec : decodePacket data = .ok (sid', seq, payload))
    (now : ℕ) (sendOk : Bool) :
    Follows cfg sid (s.handleFrom source data ⟨now, true, sendOk⟩).1
        (if sid' = sid then Life.receive cfg life seq payload now sendOk else (life, [])).1 ∧
      (entryChange (s.sessions sid)
          ((s.handleFrom source data ⟨now, true, sendOk⟩).1.sessions sid)).filterMap
            (Note.mark now) ++
          (s.handleFrom source data ⟨now, true, sendOk⟩).2.filterMap (Obs.mark sid now) =
        (if sid' = sid then Life.receive cfg life seq payload now sendOk else (life, [])).2 := by
  cases hs : s.sessions sid' with
  | some o =>
      have hget : s.getOrCreateSession sid' now true = (s, some (o, false)) := by
        simp [getOrCreateSession, hs]
      obtain ⟨hnext, hsess, hmarks⟩ := h.receivePacket hs source seq payload now sendOk
      rw [handleFrom_found hdec hget, hsess, hmarks, entryChange_self]
      by_cases he : sid' = sid
      · obtain rfl := h.eq_some (he ▸ hs)
        simp only [if_pos he] at hnext ⊢
        exact ⟨hnext, rfl⟩
      · simp only [if_neg he] at hnext ⊢
        exact ⟨hnext, rfl⟩
  | none =>
      have hget : s.getOrCreateSession sid' now true =
          ((s.createSession sid' now true).1, some (s.next, true)) := by
        simp [getOrCreateSession, createSession, hs]
      have hstored : (s.createSession sid' now true).1.sessions sid' = some s.next := by
        simp [createSession, hs]
      have hwindow : (((s.createSession sid' now true).1.heap s.next).dedupWindow) =
          .new cfg.dedupWindow := by simp [createSession, hs, TargetSession.new, h.cfg_eq]
      obtain ⟨hnext, hsess, hmarks⟩ :=
        (h.create hs now).receivePacket hstored source seq payload now sendOk
      rw [handleFrom_found hdec hget, hsess, hmarks]
      by_cases he : sid' = sid
      · obtain rfl := h.eq_none (he ▸ hs)
        simp only [if_pos he, hwindow] at hnext ⊢
        rw [← he, hs, hstored]
        exact ⟨he ▸ hnext, rfl⟩
      · have hother : (s.createSession sid' now true).1.sessions sid = s.sessions sid := by
          simp [createSession, hs, Function.update_of_ne (Ne.symm he)]
        simp only [if_neg he] at hnext ⊢
        rw [hother, entryChange_self]
        exact ⟨hnext, rfl⟩

/-- A response forwards nothing to a target. -/
theorem marks_response (s : Server) (sid sid' : UInt64) (payload : List UInt8) (now : ℕ)
    (sendOk : ClientPath → Bool) :
    (s.sendResponseToAllPaths sid' payload now sendOk).2.filterMap (Obs.mark sid now) = [] := by
  refine List.filterMap_eq_nil_iff.mpr fun x hx => ?_
  unfold sendResponseToAllPaths at hx
  cases hs : s.sessions sid' with
  | none =>
      rw [hs] at hx
      exact absurd hx List.not_mem_nil
  | some o =>
      simp only [hs] at hx
      obtain ⟨p, _, rfl⟩ := List.mem_map.mp hx
      cases p <;> rfl

/-- **The step of the simulation.**  What the server does to a session is what the automaton of the
session does, and both put the same on its timeline. -/
theorem follows_handle {cfg : ServerConfig} {sid : UInt64} {s : Server} {life : Option Life}
    (h : Follows cfg sid s life) (e : Timed) :
    Follows cfg sid (s.handle e).1 (sessionStep cfg sid life e).1 ∧
      marks sid s e (s.handle e).1 (s.handle e).2 = (sessionStep cfg sid life e).2 := by
  cases e with
  | packet source data now sendOk =>
      cases hdec : decodePacket data with
      | error e =>
          have hskip : s.handleFrom source data ⟨now, true, sendOk⟩ = (s, []) :=
            handleFrom_undecodable s source _ hdec
          simp only [handle, hskip, sessionStep, hdec, marks, entryChange_self]
          exact ⟨h, rfl⟩
      | ok p =>
          obtain ⟨sid', seq, payload⟩ := p
          simp only [handle, sessionStep, hdec, marks, Timed.now]
          exact follows_packet h source hdec now sendOk
  | response sid' payload now sendOk =>
      refine ⟨h.respond sid' payload now sendOk, ?_⟩
      simp only [handle, marks, Timed.now, sendResponseToAllPaths_sessions, marks_response,
        entryChange_self]
      rfl
  | close c =>
      have hsess : (s.cleanupTcpConn c).sessions = s.sessions := by
        simp [cleanupTcpConn, untrackTcpConn]
      refine ⟨h.close c, ?_⟩
      simp only [handle, marks, hsess, entryChange_self]
      rfl
  | sweep now =>
      have hnext := h.sweep now
      have hsess : (s.cleanupExpiredSessions now).sessions sid =
          if s.expired now sid then none else s.sessions sid := rfl
      simp only [handle, marks, Timed.now, sessionStep, hsess]
      rw [h.expired_eq now] at hnext ⊢
      cases hs : s.sessions sid with
      | none =>
          obtain rfl := h.eq_none hs
          exact ⟨hnext, rfl⟩
      | some o =>
          obtain rfl := h.eq_some hs
          by_cases hlate : cfg.sessionTimeout < now - (s.heap o).lastActivity
          · simp only [Option.any_some, hlate, decide_true, if_true] at hnext ⊢
            exact ⟨hnext, rfl⟩
          · simp only [Option.any_some, hlate, decide_false, Bool.false_eq_true, if_false,
              entryChange_self] at hnext ⊢
            exact ⟨hnext, rfl⟩

/-! ### Isolation -/

/-- **One session is one automaton.**  On every sequence of events the server has the timeline of a
session that the automaton of the session has. -/
theorem timeline_eq_session (cfg : ServerConfig) (sid : UInt64) (es : List Timed) :
    ∃ s life tl, (timeline cfg sid).exec es = some (s, tl) ∧
      (session cfg sid).exec es = some (life, tl) ∧ Follows cfg sid s life := by
  obtain ⟨s, obs, hrun⟩ := Machine.calls_total (new cfg)
    (fun s e => ((s.handle e).2, (s.handle e).1)) es
  obtain ⟨tl, htl⟩ := Machine.observe_exec (M := timed cfg)
    (fun s e s' obs => marks sid s e s' obs.flatten) hrun
  have hstep : ∀ s life e s' o, Follows cfg sid s life →
      (timeline cfg sid).step s e = some (s', o) →
        ∃ life', (session cfg sid).step life e = some (life', o) ∧ Follows cfg sid s' life' := by
    intro s life e s' o h hs
    obtain ⟨obs, hcall, rfl⟩ := Machine.observe_step.mp hs
    obtain ⟨rfl, rfl⟩ := Machine.calls_step.mp hcall
    obtain ⟨hnext, hmarks⟩ := follows_handle h e
    refine ⟨(sessionStep cfg sid life e).1, ?_, hnext⟩
    rw [List.flatten_singleton, hmarks]
    rfl
  obtain ⟨life, hlife, hfollows⟩ := Machine.exec_related (M := timeline cfg sid)
    (N := session cfg sid) (follows_new cfg sid) hstep htl
  exact ⟨s, life, tl, htl, hlife, hfollows⟩

/-- **Session isolation.**  For every sequence of packets on any listeners and connections, target
responses, closed connections and expiry sweeps, with any clock readings, and for every session id:
the timeline of the session (when it is created, expired and created again, and which payloads are
forwarded to the target for it) is the one it has when the packets and target responses of all
other sessions are left out. -/
theorem session_isolation (cfg : ServerConfig) (sid : UInt64) (es : List Timed) :
    ∃ s s' tl, (timeline cfg sid).exec es = some (s, tl) ∧
      (timeline cfg sid).exec (es.filter (Timed.concerns sid)) = some (s', tl) := by
  obtain ⟨s, life, tl, hrun, hlife, _⟩ := timeline_eq_session cfg sid es
  obtain ⟨s', life', tl', hrun', hlife', _⟩ :=
    timeline_eq_session cfg sid (es.filter (Timed.concerns sid))
  have hpurge := (session cfg sid).exec_filter
    (fun life e h => congrArg some (sessionStep_of_not_concerns cfg life h)) es
  rw [hlife, hlife', Option.some.injEq, Prod.mk.injEq] at hpurge
  exact ⟨s, s', tl, hrun, hpurge.2 ▸ hrun'⟩

/-- Session 7 expires while session 8 stays busy, and is created again. -/
example : ((timeline demoConfig 7).exec
    [.packet (.udp 0 demoAddr) (encodeUdp 7 0 [1]) 10 true,
      .packet (.tcp 0) (encodeTcp 8 0 [2]) 50 true, .packet (.tcp 0) (encodeTcp 7 0 [1]) 55 true,
      .response 8 [3] 100 (fun _ => true), .sweep 116, .close 0,
      .packet (.udp 1 demoAddr) (encodeUdp 7 0 [1]) 120 true]).map Prod.snd =
    some [.created 10, .forwarded 10 0 [1] true, .expired 116, .created 120,
      .forwarded 120 0 [1] true] := by decide

end Fproxy.Server
