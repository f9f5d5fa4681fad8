import Fproxy.GoFrameWriter
import Fproxy.GoServer.Machine
import Fproxy.Library.Simulation
import Fproxy.Server.Handlers

/-!
# The Go server and the Rust server answer alike

The handlers of both servers, each run without interruption, on the same packets, target datagrams,
hang-ups and sweeps.  The two keep their books differently.  When a session expires the Go server
also forgets which session its connections belong to, so that it may leave the path of a connection
behind that ends later; the Rust server removes it.  Nobody can tell: the Go server closes a
connection whose handler ends, and a write to it fails.  The Rust server does not: the write half
stays open as long as it is on the list of a session, and a connection that has carried several
sessions stays on the lists of all but the last.  So the Rust server may still send on a connection
that has ended.  This is the only difference.

* `Answering` — the Go server with the numbers of its responses; `handlePacket`,
  `respond` — its handlers.
* `Call`, `rustCalls`, `goCalls` — the two servers as machines over the calls of their handlers.
* `onLiveConns` — a server less what it sends on connections that have ended.
* `Agree` — the simulation relation: the same sessions, windows and numbers, and on the lists of
  paths the same paths that are not of an ended connection.
* `servers_agree` — on every schedule the Go server makes the observations of the Rust server, less
  the responses that this one still sends on connections that have ended.
-/

namespace Fproxy.GoServer

open Fproxy.DedupWindow Fproxy.GoFrameWriter Fproxy.GoProtocol Fproxy.Protocol Fproxy.Runs
  Fproxy.TcpFraming
open Fproxy.Server (ListenerId ObjId HandleEnv Obs sendOnPath)

/-! ### The handlers of the Go server -/

/-- The Go server, and the `responseSeq` of its sessions. -/
structure Answering where
  srv : State
  responseSeq : ObjId → UInt32

/-- The path a packet came in on. -/
def pathOf : Server.Source → ClientPath
  | .udp l addr => .udp addr l
  | .tcp c => .tcp c

/-- The decoder of the handler for a packet from a source. -/
def decode : Server.Source → List UInt8 → Except ProtocolError Packet
  | .udp _ _ => decodeUDP
  | .tcp _ => decodeTCP

theorem decode_eq (source : Server.Source) (data : List UInt8) :
    decode source data = decodePacket data := by
  cases source with
  | udp l addr => exact decodeUDP_eq data
  | tcp c => exact decodeTCP_eq data

/-- `getOrCreateSession`, its read-locked check included. -/
def getOrCreateSession (s : State) (sessionId : UInt64) (now : ℕ) (connected : Bool) :
    State × Option ObjId :=
  match s.sessions sessionId with
  | some o => (s, some o)
  | none => createSession s sessionId now connected

/-- `handleUDPPacket` and `handleTCPPacket`. -/
def handlePacket (s : State) (source : Server.Source) (data : List UInt8) (env : HandleEnv) :
    State × List Obs :=
  match decode source data with
  | .error _ => (s, [])
  | .ok (sessionId, seq, payload) =>
      match getOrCreateSession s sessionId env.now env.connected with
      | (s, none) => (s, [])
      | (s, some o) =>
          (admitPacket s (pathOf source) sessionId seq o env.now,
            if ((touch s o env.now).heap o).dedupWindow.isDuplicate seq |>.1 then
              [.checked o seq payload true]
            else [.checked o seq payload false, .forwarded o sessionId seq payload env.sendOk])

/-- A packet that the window has seen changes nothing but the activity of its session. -/
theorem admitPacket_of_duplicate {s : State} {path : ClientPath} {sid : UInt64} {seq : UInt32}
    {o : ObjId} {now : ℕ} (h : (((touch s o now).heap o).dedupWindow.isDuplicate seq).1 = true) :
    admitPacket s path sid seq o now = touch s o now := by
  unfold admitPacket
  dsimp only
  split
  · rfl
  · next hd =>
      rw [hd] at h
      exact absurd h (by simp)

theorem admitPacket_of_new {s : State} {path : ClientPath} {sid : UInt64} {seq : UInt32}
    {o : ObjId} {now : ℕ} (h : (((touch s o now).heap o).dedupWindow.isDuplicate seq).1 = false) :
    admitPacket s path sid seq o now =
      addPath { touch s o now with
        heap := Function.update (touch s o now).heap o
          { (touch s o now).heap o with
            dedupWindow := (((touch s o now).heap o).dedupWindow.isDuplicate seq).2 } }
        sid path := by
  unfold admitPacket
  dsimp only
  split
  · next hd =>
      rw [hd] at h
      exact absurd h (by simp)
  · next hd => rw [hd]

/-- The handling of a packet sends nothing to a client. -/
theorem handlePacket_sends (s : State) (source : Server.Source) (data : List UInt8)
    (env : HandleEnv) : ∀ obs ∈ (handlePacket s source data env).2,
      (∃ o seq payload dup, obs = .checked o seq payload dup) ∨
        ∃ o sid seq payload ok, obs = .forwarded o sid seq payload ok := by
  intro obs hobs
  unfold handlePacket at hobs
  split at hobs
  · exact absurd hobs List.not_mem_nil
  · split at hobs
    · exact absurd hobs List.not_mem_nil
    · dsimp only at hobs
      split at hobs
      · exact .inl ⟨_, _, _, _, List.mem_singleton.mp hobs⟩
      · rcases List.mem_cons.mp hobs with rfl | hobs
        · exact .inl ⟨_, _, _, _, rfl⟩
        · exact .inr ⟨_, _, _, _, _, List.mem_singleton.mp hobs⟩

/-- What a response puts on a path. -/
def respondOnPath (sessionId : UInt64) (seq : UInt32) (payload : List UInt8) : ClientPath → Obs
  | .udp addr l => .sentUdp l addr (encodeUDP sessionId seq payload)
  | .tcp c => .sentTcp c (makeFrame (encodeTCP sessionId seq payload))

/-- `handleTargetResponse` with a datagram for `sessionId` in hand. -/
def respond (s : Answering) (sessionId : UInt64) (payload : List UInt8) (now : ℕ)
    (sendOk : ClientPath → Bool) : Answering × List Obs :=
  match s.srv.sessions sessionId with
  | none => (s, [])
  | some o =>
      ({ srv := touch s.srv o now
         responseSeq := Function.update s.responseSeq o (s.responseSeq o + 1) },
        ((s.srv.clientPaths sessionId).filter sendOk).map
          (respondOnPath sessionId (s.responseSeq o) payload))

/-! ### Calls -/

/-- A call of a handler. -/
inductive Call where
  | packet (source : Server.Source) (data : List UInt8) (env : HandleEnv)
  /-- A datagram is read from the target socket of an object; `sendOk` tells on which paths the
  response can be sent. -/
  | response (o : ObjId) (payload : List UInt8) (now : ℕ) (sendOk : Server.ClientPath → Bool)
  | connEnds (c : ConnId)
  | sweep (now : ℕ)

/-- The connections that have ended. -/
abbrev Ended := ConnId → Bool

/-- The path is not of a connection that has ended. -/
def alive (ended : Ended) : Server.ClientPath → Bool
  | .udp _ _ => true
  | .tcp c _ => !ended c

/-- A source that can still send. -/
def canSend (ended : Ended) : Server.Source → Bool
  | .udp _ _ => true
  | .tcp c => !ended c

/-- The path as the Rust server stores it. -/
def ClientPath.rust : ClientPath → Server.ClientPath
  | .udp addr l => .udp addr l
  | .tcp c => .tcp c c

/-- The calls of the handlers of the Rust server. -/
def rustCalls (cfg : Server.ServerConfig) : Machine (Server × Ended) Call Obs where
  init := (Server.new cfg, fun _ => false)
  step s call :=
    match call with
    | .packet source data env =>
        if canSend s.2 source then
          some (((s.1.handleFrom source data env).1, s.2), (s.1.handleFrom source data env).2)
        else none
    | .response o payload now sendOk =>
        if o < s.1.next ∧ (s.1.heap o).cancelled = false then
          let r := s.1.sendResponseToAllPaths (s.1.heap o).sessionId payload now sendOk
          some ((r.1, s.2), r.2)
        else none
    | .connEnds c =>
        if s.2 c then none else some ((s.1.cleanupTcpConn c, Function.update s.2 c true), [])
    | .sweep now => some ((s.1.cleanupExpiredSessions now, s.2), [])

/-- The calls of the handlers of the Go server.  What it writes to a connection that has ended
fails, since the connection is closed. -/
def goCalls (cfg : ServerConfig) : Machine (Answering × Ended) Call Obs where
  init := (⟨new cfg, fun _ => 0⟩, fun _ => false)
  step s call :=
    match call with
    | .packet source data env =>
        if canSend s.2 source then
          let r := handlePacket s.1.srv source data env
          some (({ s.1 with srv := r.1 }, s.2), r.2)
        else none
    | .response o payload now sendOk =>
        if o < s.1.srv.nextTarget ∧ (s.1.srv.heap o).cancelled = false then
          let r := respond s.1 (s.1.srv.heap o).sessionId payload now
            fun p => sendOk p.rust && alive s.2 p.rust
          some ((r.1, s.2), r.2)
        else none
    | .connEnds c =>
        if s.2 c then none
        else some (({ s.1 with srv := cleanupTcpConn s.1.srv c }, Function.update s.2 c true), [])
    | .sweep now =>
        some (({ s.1 with srv := cleanupExpiredSessions s.1.srv now }, s.2), [])

/-- The observation is not of a frame on a connection that has ended. -/
def heard (ended : Ended) : Obs → Bool
  | .sentTcp c _ => !ended c
  | _ => true

/-- A server less what it sends on connections that have ended. -/
def onLiveConns {σ : Type*} (M : Machine (σ × Ended) Call Obs) : Machine (σ × Ended) Call Obs :=
  M.observe fun s _ _ obs => obs.filter (heard s.2)

/-! ### The relation -/

/-- The same session on both sides. -/
structure SameSession (g : TargetSession) (seq : UInt32) (t : Server.TargetSession) : Prop where
  sessionId : g.sessionId = t.sessionId
  window : Same g.dedupWindow t.dedupWindow
  wf : Wf t.dedupWindow
  size : t.dedupWindow.size < 2 ^ 63
  responseSeq : seq = t.responseSeq
  lastActivity : g.lastActivity = t.lastActivity
  cancelled : g.cancelled = t.cancelled

/-- The paths of a session on the Rust side. -/
def rustPaths (s : Server) (sid : UInt64) : List Server.ClientPath := (s.clientPaths sid).getD []

/-- The two servers hold the same sessions and, but for ended connections, the same paths. -/
structure Agree (g : Answering × Ended) (s : Server × Ended) : Prop where
  ended : g.2 = s.2
  timeout : g.1.srv.cfg.sessionTimeout = s.1.cfg.sessionTimeout
  window : g.1.srv.cfg.dedupWindow = Int64.ofNat s.1.cfg.dedupWindow
  size : s.1.cfg.dedupWindow < 2 ^ 63
  next : g.1.srv.nextTarget = s.1.next
  sessions : g.1.srv.sessions = s.1.sessions
  heap : ∀ o, SameSession (g.1.srv.heap o) (g.1.responseSeq o) (s.1.heap o)
  fresh : ∀ o, s.1.next ≤ o → g.1.responseSeq o = 0
  stored : ∀ sid o, s.1.sessions sid = some o → o < s.1.next
  paths : ∀ sid, ((g.1.srv.clientPaths sid).map ClientPath.rust).filter (alive s.2) =
    (rustPaths s.1 sid).filter (alive s.2)
  writers : ∀ sid c w, .tcp c w ∈ rustPaths s.1 sid → w = c

/-! ### Lists of paths -/

section Lists

variable {ended : Ended}

/-- The path of a listener is alive: its address is the same with or without dead paths. -/
theorem filter_updateUdpPath (addr : SocketAddr) (l : ListenerId) (ps : List Server.ClientPath) :
    (Server.updateUdpPath addr l ps).filter (alive ended) =
      Server.updateUdpPath addr l (ps.filter (alive ended)) := by
  induction ps with
  | nil => rfl
  | cons p ps ih =>
      cases p with
      | udp a l' =>
          have hp : ∀ a : SocketAddr, alive ended (.udp a l') = true := fun _ => rfl
          rw [List.filter_cons_of_pos (hp a), Server.updateUdpPath, Server.updateUdpPath]
          split
          · split
            · rw [List.filter_cons_of_pos (hp addr)]
            · rw [List.filter_cons_of_pos (hp a)]
          · rw [List.filter_cons_of_pos (hp a), ih]
      | tcp c w =>
          rw [Server.updateUdpPath]
          by_cases hc : alive ended (.tcp c w) = true
          · rw [List.filter_cons_of_pos hc, List.filter_cons_of_pos hc, Server.updateUdpPath, ih]
          · rw [List.filter_cons_of_neg hc, List.filter_cons_of_neg hc, ih]

/-- The loop of the Go server over the paths is the loop of the Rust server. -/
theorem map_updateUdpPath (addr : SocketAddr) (l : ListenerId) (ps : List ClientPath) :
    (updateUdpPath addr l ps).map ClientPath.rust =
      Server.updateUdpPath addr l (ps.map ClientPath.rust) := by
  induction ps with
  | nil => rfl
  | cons p ps ih =>
      rw [updateUdpPath]
      cases p with
      | udp a l' =>
          by_cases hl : l' = l
          · subst hl
            by_cases ha : a = addr <;>
              simp [ClientPath.isUdp, ClientPath.rust, Server.updateUdpPath, ha]
          · simp [ClientPath.isUdp, ClientPath.rust, Server.updateUdpPath, hl, ih]
      | tcp c => simp [ClientPath.isUdp, ClientPath.rust, Server.updateUdpPath, ih]

theorem mem_updateUdpPath_tcp {addr : SocketAddr} {l : ListenerId} {c w : ConnId}
    {ps : List Server.ClientPath} (h : .tcp c w ∈ Server.updateUdpPath addr l ps) :
    .tcp c w ∈ ps := by
  induction ps with
  | nil => exact absurd h (by simp [Server.updateUdpPath])
  | cons p ps ih =>
      cases p with
      | udp a l' =>
          rw [Server.updateUdpPath] at h
          split at h
          · split at h <;>
            · rcases List.mem_cons.mp h with he | hm
              · exact absurd he (by simp)
              · exact List.mem_cons_of_mem _ hm
          · rcases List.mem_cons.mp h with he | hm
            · exact absurd he (by simp)
            · exact List.mem_cons_of_mem _ (ih hm)
      | tcp c' w' =>
          rw [Server.updateUdpPath] at h
          rcases List.mem_cons.mp h with he | hm
          · exact he ▸ List.mem_cons_self
          · exact List.mem_cons_of_mem _ (ih hm)

/-- On a list whose connections are their own writers, the Rust server looks for the path
itself. -/
theorem updateTcpPath_eq {c : ConnId} {ps : List Server.ClientPath}
    (hw : ∀ c' w, .tcp c' w ∈ ps → w = c') :
    Server.updateTcpPath c c ps = if .tcp c c ∈ ps then ps else ps ++ [.tcp c c] := by
  unfold Server.updateTcpPath
  split
  · next h =>
      obtain ⟨p, hm, hp⟩ := List.any_eq_true.mp h
      cases p with
      | udp a l => exact absurd hp (by simp)
      | tcp c' w =>
          obtain rfl := hw c' w hm
          have hc : w = c := by simpa using hp
          rw [hc] at hm
          rw [if_pos hm]
  · next h =>
      rw [if_neg]
      intro hm
      exact h (List.any_eq_true.mpr ⟨_, hm, by simp⟩)

/-- The path of a connection that has not ended is added alike, with or without dead paths. -/
theorem filter_addTcp {c : ConnId} (hc : ended c = false) (ps : List Server.ClientPath) :
    (if .tcp c c ∈ ps then ps else ps ++ [.tcp c c]).filter (alive ended) =
      if .tcp c c ∈ ps.filter (alive ended) then ps.filter (alive ended)
      else ps.filter (alive ended) ++ [.tcp c c] := by
  have halive : alive ended (.tcp c c) = true := by simp [alive, hc]
  have hiff : .tcp c c ∈ ps.filter (alive ended) ↔ .tcp c c ∈ ps := by
    rw [List.mem_filter]
    exact and_iff_left halive
  by_cases hm : .tcp c c ∈ ps
  · rw [if_pos hm, if_pos (hiff.mpr hm)]
  · rw [if_neg hm, if_neg (mt hiff.mp hm), List.filter_append, List.filter_cons_of_pos halive,
      List.filter_nil]

theorem rust_injective {p q : ClientPath} (h : p.rust = q.rust) : p = q := by
  cases p <;> cases q <;> simp_all [ClientPath.rust]

theorem map_addTcp (c : ConnId) (ps : List ClientPath) :
    (if .tcp c ∈ ps then ps else ps ++ [.tcp c]).map ClientPath.rust =
      if .tcp c c ∈ ps.map ClientPath.rust then ps.map ClientPath.rust
      else ps.map ClientPath.rust ++ [.tcp c c] := by
  have hiff : Server.ClientPath.tcp c c ∈ ps.map ClientPath.rust ↔ .tcp c ∈ ps := by
    rw [List.mem_map]
    constructor
    · rintro ⟨p, hm, hp⟩
      have hpc : p = .tcp c := rust_injective (q := .tcp c) hp
      exact hpc ▸ hm
    · intro hm
      exact ⟨_, hm, rfl⟩
  by_cases hm : .tcp c ∈ ps
  · rw [if_pos hm, if_pos (hiff.mpr hm)]
  · rw [if_neg hm, if_neg (mt hiff.mp hm), List.map_append]
    rfl

/-- Removing the path of a connection that has ended removes no path that is alive. -/
theorem filter_erase {c : ConnId} (hc : ended c = true) (ps : List ClientPath) :
    ((ps.erase (.tcp c)).map ClientPath.rust).filter (alive ended) =
      (ps.map ClientPath.rust).filter (alive ended) := by
  have hdead : ¬ alive ended (ClientPath.rust (.tcp c)) = true := by
    simp [ClientPath.rust, alive, hc]
  induction ps with
  | nil => rfl
  | cons p ps ih =>
      by_cases hp : p = .tcp c
      · subst hp
        rw [List.erase_cons_head, List.map_cons, List.filter_cons_of_neg hdead]
      · have hne : ¬ (p == .tcp c) = true := by simpa using hp
        rw [List.erase_cons_tail hne, List.map_cons, List.map_cons]
        by_cases ha : alive ended p.rust = true
        · rw [List.filter_cons_of_pos ha, List.filter_cons_of_pos ha, ih]
        · rw [List.filter_cons_of_neg ha, List.filter_cons_of_neg ha, ih]

theorem filter_isTcp {c : ConnId} (hc : ended c = true) (ps : List Server.ClientPath) :
    (ps.filter fun p => !p.isTcp c).filter (alive ended) = ps.filter (alive ended) := by
  rw [List.filter_filter]
  refine List.filter_congr fun p _ => ?_
  cases p with
  | udp a l => rfl
  | tcp c' w =>
      by_cases he : c' = c
      · simp [alive, he, hc]
      · simp [alive, Server.ClientPath.isTcp, he]

/-- More connections have ended. -/
theorem filter_alive_update {c : ConnId} {ps qs : List Server.ClientPath}
    (h : ps.filter (alive ended) = qs.filter (alive ended)) :
    ps.filter (alive (Function.update ended c true)) =
      qs.filter (alive (Function.update ended c true)) := by
  have hsub : ∀ ps : List Server.ClientPath, ps.filter (alive (Function.update ended c true)) =
      (ps.filter (alive ended)).filter (alive (Function.update ended c true)) := by
    intro ps
    rw [List.filter_filter]
    refine List.filter_congr fun p _ => ?_
    cases p with
    | udp a l => rfl
    | tcp c' w =>
        by_cases he : c' = c
        · simp [alive, he]
        · simp [alive, Function.update_of_ne he]
  rw [hsub, h, ← hsub]

end Lists

/-! ### The step lemma -/

namespace Agree

variable {g : Answering} {s : Server} {ended : Ended}

theorem expired_eq (h : Agree (g, ended) (s, ended)) (now : ℕ) :
    expired g.srv now = s.expired now := by
  funext sid
  have hsess : g.srv.sessions sid = s.sessions sid := congrFun h.sessions sid
  have ht : g.srv.cfg.sessionTimeout = s.cfg.sessionTimeout := h.timeout
  unfold expired Server.expired
  rw [hsess]
  cases s.sessions sid with
  | none => rfl
  | some o =>
      have hlast : (g.srv.heap o).lastActivity = (s.heap o).lastActivity := (h.heap o).lastActivity
      simp only [ht, hlast]

/-- The update of an activity timestamp. -/
theorem touch (h : Agree (g, ended) (s, ended)) (o : ObjId) (now : ℕ) :
    Agree ({ g with srv := GoServer.touch g.srv o now }, ended) (s.touch o now, ended) := by
  refine ⟨rfl, h.timeout, h.window, h.size, h.next, h.sessions, fun o' => ?_, h.fresh, h.stored,
    h.paths, h.writers⟩
  have ho := h.heap o'
  by_cases he : o' = o
  · subst he
    simp only [GoServer.touch, Server.touch, Function.update_self]
    exact ⟨ho.sessionId, ho.window, ho.wf, ho.size, ho.responseSeq, rfl, ho.cancelled⟩
  · simp only [GoServer.touch, Server.touch, Function.update_of_ne he]
    exact ho

/-- The lookup or the creation of a session. -/
theorem getOrCreateSession (h : Agree (g, ended) (s, ended)) (sid : UInt64) (now : ℕ)
    (connected : Bool) :
    (GoServer.getOrCreateSession g.srv sid now connected).2 =
        (s.getOrCreateSession sid now connected).2.map Prod.fst ∧
      Agree ({ g with srv := (GoServer.getOrCreateSession g.srv sid now connected).1 }, ended)
        ((s.getOrCreateSession sid now connected).1, ended) := by
  have hsess : g.srv.sessions sid = s.sessions sid := congrFun h.sessions sid
  have hnext : g.srv.nextTarget = s.next := h.next
  unfold GoServer.getOrCreateSession Server.getOrCreateSession
  cases hs : s.sessions sid with
  | some o =>
      rw [hsess, hs]
      exact ⟨rfl, h⟩
  | none =>
      rw [hsess, hs]
      simp only [createSession, Server.createSession, hsess, hs]
      cases connected with
      | false => exact ⟨rfl, h⟩
      | true =>
          simp only [if_true, hnext]
          refine ⟨rfl, rfl, h.timeout, h.window, h.size, rfl, ?_, fun o => ?_, fun o ho => ?_,
            fun sid' o ho => ?_, h.paths, h.writers⟩
          · show Function.update g.srv.sessions _ _ = Function.update s.sessions _ _
            rw [h.sessions]
          · by_cases he : o = s.next
            · subst he
              simp only [State.setGoroutine, Function.update_self]
              have hwin : (TargetSession.new g.srv.cfg sid now).dedupWindow =
                  .new (Int64.ofNat s.cfg.dedupWindow) := congrArg GoDedupWindow.new h.window
              refine ⟨rfl, ?_, wf_new s.cfg.dedupWindow_pos, h.size, h.fresh _ (le_refl _), rfl, rfl⟩
              rw [hwin]
              exact same_new _
            · simp only [State.setGoroutine, Function.update_of_ne he]
              exact h.heap o
          · exact h.fresh o (Nat.le_of_succ_le ho)
          · by_cases he : sid' = sid
            · subst he
              simp only [Function.update_self, Option.some.injEq] at ho
              exact ho ▸ Nat.lt_succ_self _
            · simp only [Function.update_of_ne he] at ho
              exact Nat.lt_succ_of_lt (h.stored sid' o ho)

/-- A verdict of a window. -/
theorem isDuplicate (h : Agree (g, ended) (s, ended)) (o : ObjId) (seq : UInt32) :
    ((g.srv.heap o).dedupWindow.isDuplicate seq).1 = (s.checkDuplicate o seq).1 ∧
      Agree ({ g with srv := { g.srv with
          heap := Function.update g.srv.heap o
            { g.srv.heap o with
              dedupWindow := ((g.srv.heap o).dedupWindow.isDuplicate seq).2 } } }, ended)
        ((s.checkDuplicate o seq).2, ended) := by
  have ho := h.heap o
  obtain ⟨hans, hnext⟩ := ho.window.isDuplicate ho.wf ho.size seq
  refine ⟨hans, rfl, h.timeout, h.window, h.size, h.next, h.sessions, fun o' => ?_, h.fresh,
    h.stored, h.paths, h.writers⟩
  by_cases he : o' = o
  · subst he
    simp only [Server.checkDuplicate, Function.update_self]
    refine ⟨ho.sessionId, hnext, ho.wf.isDuplicate seq, ?_, ho.responseSeq, ho.lastActivity,
      ho.cancelled⟩
    rw [isDuplicate_size]
    exact ho.size
  · simp only [Server.checkDuplicate, Function.update_of_ne he]
    exact h.heap o'

/-- A path is added to the list of a session. -/
theorem addPath (h : Agree (g, ended) (s, ended)) {source : Server.Source}
    (hsource : canSend ended source = true) (sid : UInt64) :
    Agree ({ g with srv := GoServer.addPath g.srv sid (pathOf source) }, ended)
      (source.addPath s sid, ended) := by
  have hlists : ∀ {qs : List Server.ClientPath} {g' : List ClientPath} {sid' : UInt64},
      (g'.map ClientPath.rust).filter (alive ended) = qs.filter (alive ended) →
      ((Function.update g.srv.clientPaths sid g' sid').map ClientPath.rust).filter (alive ended) =
        ((Function.update s.clientPaths sid (some qs) sid').getD []).filter (alive ended) := by
    intro qs g' sid' he
    by_cases hs : sid' = sid
    · subst hs
      simpa using he
    · rw [Function.update_of_ne hs, Function.update_of_ne hs]
      exact h.paths sid'
  have hwriters : ∀ {qs : List Server.ClientPath}, (∀ c w, .tcp c w ∈ qs → w = c) →
      ∀ sid' c w, .tcp c w ∈ (Function.update s.clientPaths sid (some qs) sid').getD [] →
        w = c := by
    intro qs hq sid' c w hm
    by_cases hs : sid' = sid
    · subst hs
      exact hq c w (by simpa using hm)
    · exact h.writers sid' c w (by simpa [Function.update_of_ne hs, rustPaths] using hm)
  cases source with
  | udp l addr =>
      refine ⟨rfl, h.timeout, h.window, h.size, h.next, h.sessions, h.heap, h.fresh,
        h.stored, fun sid' => hlists ?_, hwriters fun c w hm => ?_⟩
      · rw [map_updateUdpPath, filter_updateUdpPath, h.paths sid, ← filter_updateUdpPath]
        rfl
      · exact h.writers sid c w (mem_updateUdpPath_tcp hm)
  | tcp c =>
      have hc : ended c = false := by simpa [canSend] using hsource
      have hown := updateTcpPath_eq (c := c) (h.writers sid)
      refine ⟨rfl, h.timeout, h.window, h.size, h.next, h.sessions, h.heap, h.fresh,
        h.stored, fun sid' => hlists ?_, hwriters fun c' w hm => ?_⟩
      · rw [map_addTcp, filter_addTcp hc, h.paths sid, ← filter_addTcp hc]
        exact (congrArg (List.filter (alive ended)) hown).symm
      · have hm : .tcp c' w ∈ (if .tcp c c ∈ rustPaths s sid then rustPaths s sid
            else rustPaths s sid ++ [.tcp c c]) := hown ▸ hm
        split at hm
        · exact h.writers sid c' w hm
        · rcases List.mem_append.mp hm with hm | hm
          · exact h.writers sid c' w hm
          · obtain ⟨rfl, rfl⟩ := Server.ClientPath.tcp.inj (List.mem_singleton.mp hm)
            rfl

/-- A packet. -/
theorem handlePacket (h : Agree (g, ended) (s, ended)) {source : Server.Source}
    (hsource : canSend ended source = true) (data : List UInt8) (env : HandleEnv) :
    (GoServer.handlePacket g.srv source data env).2 = (s.handleFrom source data env).2 ∧
      Agree ({ g with srv := (GoServer.handlePacket g.srv source data env).1 }, ended)
        ((s.handleFrom source data env).1, ended) := by
  rw [Server.handleFrom_eq]
  unfold GoServer.handlePacket Server.handlePacket
  rw [decode_eq]
  cases hdec : decodePacket data with
  | error e => exact ⟨rfl, h⟩
  | ok p =>
      obtain ⟨sid, seq, payload⟩ := p
      obtain ⟨hfound, hagree⟩ := h.getOrCreateSession sid env.now env.connected
      cases hgo : GoServer.getOrCreateSession g.srv sid env.now env.connected with
      | mk g₁ found =>
      cases hrust : s.getOrCreateSession sid env.now env.connected with
      | mk s₁ found' =>
      rw [hgo, hrust] at hfound hagree
      have hfound : found = found'.map Prod.fst := hfound
      cases found' with
      | none =>
          obtain rfl : found = none := hfound
          simp only [hgo, hrust]
          exact ⟨trivial, hagree⟩
      | some q =>
          obtain ⟨o, created⟩ := q
          obtain rfl : found = some o := hfound
          simp only [hgo, hrust]
          have htouched := hagree.touch o env.now
          obtain ⟨hdup, hchecked⟩ := htouched.isDuplicate o seq
          have hadd := hchecked.addPath hsource sid
          cases hr : (s₁.touch o env.now).checkDuplicate o seq with
          | mk dup s₂ =>
          simp only [hr] at hdup hchecked hadd
          cases dup with
          | true =>
              rw [admitPacket_of_duplicate hdup, hdup]
              refine ⟨rfl, ?_⟩
              -- a window that rejects stays as it is
              have hans : ((s₁.touch o env.now).checkDuplicate o seq).1 = true := by rw [hr]
              have hwin := isDuplicate_of_rejects ((isDuplicate_iff _ _).mp hans)
              have hsame : s₂ = s₁.touch o env.now := by
                have hs₂ : s₂ = ((s₁.touch o env.now).checkDuplicate o seq).2 := by rw [hr]
                rw [hs₂]
                simp only [Server.checkDuplicate, hwin]
                rw [Function.update_eq_self]
              rw [hsame]
              exact htouched
          | false =>
              rw [admitPacket_of_new hdup, hdup]
              exact ⟨rfl, hadd⟩

/-- The Go server sends a response where the Rust server does, on the connections that have not
ended. -/
theorem respond (h : Agree (g, ended) (s, ended)) (sid : UInt64) (payload : List UInt8) (now : ℕ)
    (sendOk : Server.ClientPath → Bool) :
    (GoServer.respond g sid payload now fun p => sendOk p.rust && alive ended p.rust).2 =
        (s.sendResponseToAllPaths sid payload now sendOk).2.filter (heard ended) ∧
      Agree ((GoServer.respond g sid payload now fun p => sendOk p.rust && alive ended p.rust).1,
          ended)
        ((s.sendResponseToAllPaths sid payload now sendOk).1, ended) := by
  have hsess : g.srv.sessions sid = s.sessions sid := congrFun h.sessions sid
  unfold GoServer.respond Server.sendResponseToAllPaths
  cases hs : s.sessions sid with
  | none =>
      rw [hsess, hs]
      exact ⟨rfl, h⟩
  | some o =>
      rw [hsess, hs]
      have hseq : g.responseSeq o = (s.heap o).responseSeq := (h.heap o).responseSeq
      have hsend : ∀ (sid : UInt64) (seq : UInt32) (p : ClientPath),
          respondOnPath sid seq payload p = sendOnPath sid seq payload p.rust := by
        intro sid seq p
        cases p with
        | udp addr l => exact congrArg (Obs.sentUdp l addr) (encodeUDP_eq _ _ _)
        | tcp c =>
            show Obs.sentTcp c _ = Obs.sentTcp c _
            rw [makeFrame_eq, encodeTCP_eq]
            rfl
      -- a connection on the lists is its own writer
      have hheard : ∀ (seq : UInt32), ∀ p ∈ rustPaths s sid,
          heard ended (sendOnPath sid seq payload p) = alive ended p := by
        intro seq p hm
        cases p with
        | udp addr l => rfl
        | tcp c w =>
            obtain rfl := h.writers sid c w hm
            rfl
      have hfilter : ((g.srv.clientPaths sid).filter
          fun p => sendOk p.rust && alive ended p.rust).map ClientPath.rust =
          (rustPaths s sid).filter fun p => alive ended p && sendOk p := by
        have hsplit : (rustPaths s sid).filter (fun p => alive ended p && sendOk p) =
            ((rustPaths s sid).filter (alive ended)).filter sendOk := by
          rw [List.filter_filter]
          exact List.filter_congr fun p _ => Bool.and_comm _ _
        rw [hsplit, ← h.paths sid, List.filter_filter, List.filter_map]
        rfl
      refine ⟨?_, ?_⟩
      · show ((g.srv.clientPaths sid).filter _).map _ =
          (((rustPaths s sid).filter sendOk).map _).filter _
        rw [List.filter_map, List.filter_filter]
        have hlive : ((rustPaths s sid).filter fun p =>
            (heard ended ∘ sendOnPath sid (s.heap o).responseSeq payload) p && sendOk p) =
            (rustPaths s sid).filter fun p => alive ended p && sendOk p :=
          List.filter_congr fun p hm => by rw [Function.comp_apply, hheard _ p hm]
        have hnumber : ((s.touch o now).takeResponseSeq o).1 = (s.heap o).responseSeq := by
          simp [Server.takeResponseSeq, Server.touch]
        rw [hnumber, hlive, ← hfilter, List.map_map]
        refine List.map_congr_left fun p _ => ?_
        rw [hsend, hseq]
        rfl
      · have htouched := h.touch o now
        refine ⟨rfl, h.timeout, h.window, h.size, h.next, h.sessions, fun o' => ?_, fun o' ho' => ?_,
          h.stored, h.paths, h.writers⟩
        · have ho := htouched.heap o'
          by_cases he : o' = o
          · subst he
            simp only [Server.takeResponseSeq, Function.update_self]
            refine ⟨ho.sessionId, ho.window, ho.wf, ho.size, ?_, ho.lastActivity, ho.cancelled⟩
            exact congrArg (· + 1) ho.responseSeq
          · simp only [Server.takeResponseSeq, Function.update_of_ne he]
            exact ho
        · have hstored := h.stored sid o hs
          have hne : o' ≠ o := fun he => absurd hstored (Nat.not_lt.mpr (he ▸ ho'))
          show Function.update g.responseSeq o _ o' = 0
          rw [Function.update_of_ne hne]
          exact h.fresh o' ho'

/-- A connection ends. -/
theorem cleanupTcpConn (h : Agree (g, ended) (s, ended)) (c : ConnId) :
    Agree ({ g with srv := GoServer.cleanupTcpConn g.srv c }, Function.update ended c true)
      (s.cleanupTcpConn c, Function.update ended c true) := by
  have hend : Function.update ended c true c = true := Function.update_self ..
  have hgo : ∀ sid, (((GoServer.cleanupTcpConn g.srv c).clientPaths sid).map
      ClientPath.rust).filter (alive (Function.update ended c true)) =
      ((g.srv.clientPaths sid).map ClientPath.rust).filter
        (alive (Function.update ended c true)) := by
    intro sid
    unfold GoServer.cleanupTcpConn
    cases g.srv.tcpConnToSession c with
    | none => rfl
    | some sid' =>
        show ((Function.update g.srv.clientPaths sid' _ sid).map ClientPath.rust).filter _ = _
        by_cases hs : sid = sid'
        · subst hs
          rw [Function.update_self, filter_erase hend]
        · rw [Function.update_of_ne hs]
  have hrust : ∀ sid, (rustPaths (s.cleanupTcpConn c) sid = rustPaths s sid ∨
      rustPaths (s.cleanupTcpConn c) sid = (rustPaths s sid).filter fun p => !p.isTcp c) := by
    intro sid
    unfold rustPaths Server.cleanupTcpConn Server.removeTcpPath Server.untrackTcpConn
    cases s.tcpConnToSession c with
    | none => exact .inl rfl
    | some sid' =>
        dsimp only
        cases hp : s.clientPaths sid' with
        | none => exact .inl rfl
        | some ps =>
            by_cases hs : sid = sid'
            · subst hs
              exact .inr (by simp [hp])
            · exact .inl (by simp [Function.update_of_ne hs])
  have hgosrv : GoServer.cleanupTcpConn g.srv c = { g.srv with
      clientPaths := (GoServer.cleanupTcpConn g.srv c).clientPaths
      tcpConnToSession := (GoServer.cleanupTcpConn g.srv c).tcpConnToSession
      closed := (GoServer.cleanupTcpConn g.srv c).closed } := by
    unfold GoServer.cleanupTcpConn
    split <;> rfl
  have hsrv : s.cleanupTcpConn c = { s with
      clientPaths := (s.cleanupTcpConn c).clientPaths
      tcpConnToSession := (s.cleanupTcpConn c).tcpConnToSession } := by
    unfold Server.cleanupTcpConn
    rw [Server.removeTcpPath_eq]
    rfl
  refine ⟨rfl, ?_, ?_, ?_, ?_, ?_, ?_, ?_, ?_, fun sid => ?_, fun sid c' w hm => ?_⟩
  · rw [hgosrv, hsrv]
    exact h.timeout
  · rw [hgosrv, hsrv]
    exact h.window
  · rw [hsrv]
    exact h.size
  · rw [hgosrv, hsrv]
    exact h.next
  · rw [hgosrv, hsrv]
    exact h.sessions
  · rw [hgosrv, hsrv]
    exact h.heap
  · rw [hsrv]
    exact h.fresh
  · rw [hsrv]
    exact h.stored
  · show (((GoServer.cleanupTcpConn g.srv c).clientPaths sid).map ClientPath.rust).filter _ = _
    rw [hgo]
    have halike := filter_alive_update (c := c) (h.paths sid)
    rcases hrust sid with he | he
    · rw [he]
      exact halike
    · rw [he, filter_isTcp hend]
      exact halike
  · rcases hrust sid with he | he
    · exact h.writers sid c' w (he ▸ hm)
    · have hm : Server.ClientPath.tcp c' w ∈ (rustPaths s sid).filter fun p => !p.isTcp c := he ▸ hm
      exact h.writers sid c' w (List.mem_of_mem_filter hm)

/-- A sweep. -/
theorem cleanupExpiredSessions (h : Agree (g, ended) (s, ended)) (now : ℕ) :
    Agree ({ g with srv := GoServer.cleanupExpiredSessions g.srv now }, ended)
      (s.cleanupExpiredSessions now, ended) := by
  have hexp := h.expired_eq now
  have hsess : g.srv.sessions = s.sessions := h.sessions
  have hpaths : ∀ sid, rustPaths (s.cleanupExpiredSessions now) sid =
      if s.expired now sid then [] else rustPaths s sid := by
    intro sid
    simp only [rustPaths, Server.cleanupExpiredSessions]
    split <;> rfl
  refine ⟨rfl, h.timeout, h.window, h.size, h.next, ?_, fun o => ?_, h.fresh, fun sid o ho => ?_,
    fun sid => ?_, fun sid c w hm => ?_⟩
  · simp only [GoServer.cleanupExpiredSessions, closeSessions, Server.cleanupExpiredSessions, hexp,
      hsess]
  · have ho := h.heap o
    have hiff : GoServer.stored g.srv (s.expired now) o = true ↔
        s.sessions (s.heap o).sessionId = some o ∧ s.expired now (s.heap o).sessionId = true := by
      have hid : (g.srv.heap o).sessionId = (s.heap o).sessionId := ho.sessionId
      simp only [GoServer.stored, hsess, hid, Bool.and_eq_true, decide_eq_true_eq]
    simp only [GoServer.cleanupExpiredSessions, closeSessions, Server.cleanupExpiredSessions, hexp]
    by_cases hst : GoServer.stored g.srv (s.expired now) o = true
    · rw [if_pos hst, if_pos (hiff.mp hst)]
      exact ⟨ho.sessionId, ho.window, ho.wf, ho.size, ho.responseSeq, ho.lastActivity, rfl⟩
    · rw [if_neg hst, if_neg (mt hiff.mpr hst)]
      exact ho
  · exact h.stored sid o (Server.sessions_of_cleanupExpiredSessions ho).2
  · rw [hpaths]
    simp only [GoServer.cleanupExpiredSessions, hexp]
    split
    · rfl
    · exact h.paths sid
  · rw [hpaths] at hm
    split at hm
    · exact absurd hm (by simp)
    · exact h.writers sid c w hm

end Agree

/-- What one server does in one call, the other does too, ended connections apart. -/
theorem agree_step {cfg : ServerConfig} {rustCfg : Server.ServerConfig} {g : Answering × Ended}
    {s : Server × Ended} (h : Agree g s) (call : Call) :
    (∃ g' s' obs, (goCalls cfg).step g call = some (g', obs) ∧
        (onLiveConns (rustCalls rustCfg)).step s call = some (s', obs) ∧ Agree g' s') ∨
      ((goCalls cfg).step g call = none ∧ (onLiveConns (rustCalls rustCfg)).step s call = none) := by
  obtain ⟨g, ended⟩ := g
  obtain ⟨s, ended'⟩ := s
  obtain rfl : ended = ended' := h.ended
  cases call with
  | packet source data env =>
      simp only [goCalls, onLiveConns, Machine.observe, rustCalls]
      cases hsource : canSend ended source with
      | false => exact .inr ⟨rfl, rfl⟩
      | true =>
          obtain ⟨hobs, hagree⟩ := h.handlePacket hsource data env
          have hheard : (handlePacket g.srv source data env).2.filter (heard ended) =
              (handlePacket g.srv source data env).2 := by
            refine List.filter_eq_self.mpr fun obs hm => ?_
            rcases handlePacket_sends g.srv source data env obs hm with
              ⟨o, seq, payload, dup, rfl⟩ | ⟨o, sid, seq, payload, ok, rfl⟩ <;> rfl
          refine .inl ⟨_, _, _, rfl, ?_, hagree⟩
          rw [← hobs]
          simp [hheard]
  | response o payload now sendOk =>
      simp only [goCalls, onLiveConns, Machine.observe, rustCalls]
      have ho := h.heap o
      have hguard : (o < g.srv.nextTarget ∧ (g.srv.heap o).cancelled = false) ↔
          (o < s.next ∧ (s.heap o).cancelled = false) := by
        have hnext : g.srv.nextTarget = s.next := h.next
        have hcancelled : (g.srv.heap o).cancelled = (s.heap o).cancelled := ho.cancelled
        rw [hnext, hcancelled]
      by_cases hg : o < s.next ∧ (s.heap o).cancelled = false
      · rw [if_pos hg, if_pos (hguard.mpr hg)]
        have hid : (g.srv.heap o).sessionId = (s.heap o).sessionId := ho.sessionId
        obtain ⟨hobs, hagree⟩ := h.respond (s.heap o).sessionId payload now sendOk
        rw [hid]
        exact .inl ⟨_, _, _, rfl, by rw [hobs]; rfl, hagree⟩
      · rw [if_neg hg, if_neg (mt hguard.mp hg)]
        exact .inr ⟨rfl, rfl⟩
  | connEnds c =>
      simp only [goCalls, onLiveConns, Machine.observe, rustCalls]
      by_cases hc : ended c = true
      · rw [if_pos hc, if_pos hc]
        exact .inr ⟨rfl, rfl⟩
      · rw [if_neg hc, if_neg hc]
        exact .inl ⟨_, _, _, rfl, rfl, h.cleanupTcpConn c⟩
  | sweep now => exact .inl ⟨_, _, _, rfl, rfl, h.cleanupExpiredSessions now⟩

/-- Both servers start alike. -/
theorem agree_init {cfg : ServerConfig} {rustCfg : Server.ServerConfig}
    (hwindow : cfg.dedupWindow = Int64.ofNat rustCfg.dedupWindow)
    (hsize : rustCfg.dedupWindow < 2 ^ 63)
    (htimeout : cfg.sessionTimeout = rustCfg.sessionTimeout) :
    Agree (goCalls cfg).init (rustCalls rustCfg).init := by
  refine ⟨rfl, htimeout, hwindow, hsize, rfl, rfl, fun o => ?_, fun _ _ => rfl,
    fun sid o ho => ?_, fun _ => rfl, fun sid c w hm => ?_⟩
  · refine ⟨rfl, ?_, wf_new rustCfg.dedupWindow_pos, hsize, rfl, rfl, rfl⟩
    show Same (.new cfg.dedupWindow) _
    rw [hwindow]
    exact same_new _
  · exact absurd ho (by simp [rustCalls, Server.new])
  · exact absurd hm (by simp [rustCalls, Server.new, rustPaths])

/-- A connection that has carried two sessions ends.  The path of the first is left on the lists of
both servers, and the Rust server still answers on it. -/
def hangUpOfTwoSessions : List Call :=
  [.packet (.tcp 0) (encodePacket 1 0 [1]) ⟨0, true, true⟩,
    .packet (.udp 0 demoAddr) (encodePacket 1 1 [2]) ⟨0, true, true⟩,
    .packet (.tcp 0) (encodePacket 2 0 [3]) ⟨0, true, true⟩,
    .connEnds 0, .response 0 [9] 2 fun _ => true]

/-- A connection that carries two sessions ends after one of them has expired.  The Go server still
has its path, and the Rust server does not: both answer on the other path alone. -/
def hangUpAfterSweep : List Call :=
  [.packet (.tcp 0) (encodePacket 1 0 [1]) ⟨0, true, true⟩,
    .packet (.tcp 0) (encodePacket 2 0 [2]) ⟨10, true, true⟩,
    .packet (.udp 0 demoAddr) (encodePacket 2 1 [3]) ⟨10, true, true⟩,
    .sweep 12, .connEnds 0, .response 1 [9] 12 fun _ => true]

example : ((goCalls ⟨4, 10⟩).exec hangUpAfterSweep).map (fun r =>
      (r.1.1.srv.clientPaths 2, r.2.drop 6)) =
    some ([.tcp 0, .udp demoAddr 0], [.sentUdp 0 demoAddr (encodePacket 2 0 [9])]) := by decide

example : ((rustCalls ⟨4, 10, by decide⟩).exec hangUpAfterSweep).map (fun r => r.2.drop 6) =
    some [.sentUdp 0 demoAddr (encodePacket 2 0 [9])] := by decide

end Fproxy.GoServer
