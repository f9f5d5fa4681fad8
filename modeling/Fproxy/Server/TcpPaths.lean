import Fproxy.Server.Machine

/-!
# The TCP paths in the lists

A connection is listed for a session by the handler of a packet that came in on it, and only while
the connection is open.

* `Lists`, `HasTcp` — the list of a session contains a path, or a path of a connection; one lemma
  for each section that changes the lists, and `Lists.of_act` for every move.
* `HandlersOpen` — a packet of a connection is in hand only while the connection is open.
-/

namespace Fproxy.Server

open Fproxy.Runs

/-! ### Listed connections -/

/-- The path list of a session contains a path. -/
def Lists (srv : Server) (sid : UInt64) (p : ClientPath) : Prop :=
  ∃ paths, srv.clientPaths sid = some paths ∧ p ∈ paths

/-- The path list of a session contains a path of this connection. -/
def HasTcp (srv : Server) (sid : UInt64) (c : ConnId) : Prop :=
  ∃ w, Lists srv sid (.tcp c w)

/-- What is in the list that `entry(session_id).or_default()` gives. -/
theorem lists_of_mem_getD {srv : Server} {sid : UInt64} {p : ClientPath}
    (h : p ∈ (srv.clientPaths sid).getD []) : Lists srv sid p := by
  cases hl : srv.clientPaths sid with
  | none =>
      rw [hl] at h
      exact absurd h List.not_mem_nil
  | some old =>
      rw [hl] at h
      exact ⟨old, hl, h⟩

theorem mem_of_mem_updateUdpPath {addr : SocketAddr} {l : ListenerId} {paths : List ClientPath}
    {c w : ConnId} (hp : .tcp c w ∈ updateUdpPath addr l paths) : .tcp c w ∈ paths := by
  induction paths with
  | nil => exact absurd (List.mem_singleton.mp hp) (by simp)
  | cons q qs ih =>
      cases q with
      | tcp c' w' =>
          simp only [updateUdpPath, List.mem_cons] at hp
          exact List.mem_cons.mpr (hp.imp_right ih)
      | udp a s =>
          simp only [updateUdpPath] at hp
          split at hp
          · rcases List.mem_cons.mp hp with he | hp
            · split at he <;> exact absurd he (by simp)
            · exact List.mem_cons_of_mem _ hp
          · rcases List.mem_cons.mp hp with he | hp
            · exact absurd he (by simp)
            · exact List.mem_cons_of_mem _ (ih hp)

theorem Lists.of_addUdpPath {srv : Server} {sid sid' : UInt64} {addr : SocketAddr}
    {l : ListenerId} {c w : ConnId} (h : Lists (srv.addUdpPath sid addr l) sid' (.tcp c w)) :
    Lists srv sid' (.tcp c w) := by
  obtain ⟨paths, hpaths, hp⟩ := h
  simp only [addUdpPath] at hpaths
  by_cases hs : sid' = sid
  · rw [hs, Function.update_self, Option.some.injEq] at hpaths
    rw [← hpaths] at hp
    exact hs ▸ lists_of_mem_getD (mem_of_mem_updateUdpPath hp)
  · rw [Function.update_of_ne hs] at hpaths
    exact ⟨paths, hpaths, hp⟩

theorem Lists.of_registerTcpPath {srv : Server} {sid sid' : UInt64} {c : ConnId}
    {p : ClientPath} (h : Lists (srv.registerTcpPath sid c c) sid' p) :
    Lists srv sid' p ∨ sid' = sid ∧ p = .tcp c c := by
  obtain ⟨paths, hpaths, hp⟩ := h
  simp only [registerTcpPath] at hpaths
  by_cases hs : sid' = sid
  · rw [hs, Function.update_self, Option.some.injEq] at hpaths
    rw [← hpaths] at hp
    unfold updateTcpPath at hp
    split at hp
    · exact Or.inl (hs ▸ lists_of_mem_getD hp)
    · rcases List.mem_append.mp hp with hp | hp
      · exact Or.inl (hs ▸ lists_of_mem_getD hp)
      · exact Or.inr ⟨hs, List.mem_singleton.mp hp⟩
  · rw [Function.update_of_ne hs] at hpaths
    exact Or.inl ⟨paths, hpaths, hp⟩

theorem removeTcpPath_clientPaths {srv : Server} {k : Option UInt64} {c : ConnId} {sid : UInt64} :
    (srv.removeTcpPath k c).clientPaths sid =
      if k = some sid then (srv.clientPaths sid).map (·.filter fun p => !p.isTcp c)
      else srv.clientPaths sid := by
  unfold removeTcpPath
  cases k with
  | none => simp
  | some sid₀ =>
      by_cases hs : sid₀ = sid
      · subst hs
        cases hl : srv.clientPaths sid₀ with
        | none => simp [hl]
        | some old => simp [hl]
      · cases hl : srv.clientPaths sid₀ with
        | none => simp [hs, hl]
        | some old =>
            have hne : sid ≠ sid₀ := fun h => hs h.symm
            simp [hs, hl, Function.update_of_ne hne]

/-- The clean-up removes the paths of the connection from the list of the tracked session only. -/
theorem lists_removeTcpPath_iff {srv : Server} {k : Option UInt64} {c : ConnId} {sid : UInt64}
    {p : ClientPath} :
    Lists (srv.removeTcpPath k c) sid p ↔ Lists srv sid p ∧ ¬ (k = some sid ∧ p.isTcp c = true) := by
  simp only [Lists, removeTcpPath_clientPaths]
  by_cases hk : k = some sid
  · simp only [hk, if_true, true_and, Option.map_eq_some_iff]
    constructor
    · rintro ⟨_, ⟨old, hold, rfl⟩, hp⟩
      obtain ⟨hp, hkeep⟩ := List.mem_filter.mp hp
      exact ⟨⟨old, hold, hp⟩, by simpa using hkeep⟩
    · rintro ⟨⟨old, hold, hp⟩, hne⟩
      exact ⟨_, ⟨old, hold, rfl⟩, List.mem_filter.mpr ⟨hp, by simpa using hne⟩⟩
  · simp [hk]

theorem hasTcp_removeTcpPath_iff {srv : Server} {k : Option UInt64} {c c' : ConnId}
    {sid : UInt64} :
    HasTcp (srv.removeTcpPath k c) sid c' ↔ HasTcp srv sid c' ∧ ¬ (k = some sid ∧ c' = c) := by
  simp only [HasTcp, lists_removeTcpPath_iff, ClientPath.isTcp, decide_eq_true_eq,
    exists_and_right]

theorem Lists.of_cleanupExpiredSessions {srv : Server} {now : ℕ} {sid : UInt64} {p : ClientPath}
    (h : Lists (srv.cleanupExpiredSessions now) sid p) : Lists srv sid p := by
  obtain ⟨paths, hpaths, hp⟩ := h
  simp only [cleanupExpiredSessions] at hpaths
  split at hpaths
  · exact absurd hpaths (by simp)
  · exact ⟨paths, hpaths, hp⟩

/-- What one move can add to the lists: only the second section of `add_tcp_path`. -/
theorem Lists.of_act {s s' : State} {e : Event} {obs : List Obs} (ha : Act s e s' obs)
    {sid : UInt64} {c w : ConnId} (h : Lists s'.srv sid (.tcp c w)) :
    Lists s.srv sid (.tcp c w) ∨ w = c ∧ ∃ t hd o, s.handlers t = some hd ∧ hd.pc = .register o ∧
      hd.source = .tcp c ∧ hd.sessionId = sid := by
  cases ha with
  | registerUdp _ _ _ => exact Or.inl h.of_addUdpPath
  | @registerTcp t hd o c' now b b' ht hpc hsrc =>
      rcases h.of_registerTcpPath with h | ⟨rfl, hp⟩
      · exact Or.inl h
      · obtain ⟨rfl, rfl⟩ := ClientPath.tcp.inj hp
        exact Or.inr ⟨rfl, t, hd, o, ht, hpc, hsrc, rfl⟩
  | removePath _ => exact Or.inl (lists_removeTcpPath_iff.mp h).1
  | sweep => exact Or.inl h.of_cleanupExpiredSessions
  | createNew _ _ hnone =>
      left
      simpa [State.setHandler, createSession, hnone, Lists] using h
  | _ => exact Or.inl h

/-! ### Which task handles what -/

/-- A packet is handled by the task it came in on, and a packet of a connection only while the
connection is open. -/
def HandlersOpen (s : State) : Prop :=
  ∀ t h, s.handlers t = some h →
    h.source.task = t ∧ ∀ c, h.source = .tcp c → s.conns c = .open

theorem HandlersOpen.setHandler {s : State} (hi : HandlersOpen s) {t : Task}
    {h' : Option Handler} {srv : Server}
    (hh : ∀ h, h' = some h → ∃ h₀, s.handlers t = some h₀ ∧ h.source = h₀.source) :
    HandlersOpen ({ s with srv := srv }.setHandler t h') := by
  intro t' h ht
  by_cases he : t' = t
  · have hset : h' = some h := by
      rw [he] at ht
      simpa [State.setHandler] using ht
    obtain ⟨h₀, h₀t, hsrc⟩ := hh h hset
    rw [hsrc, he]
    exact hi t h₀ h₀t
  · have hold : s.handlers t' = some h := by
      simpa [State.setHandler, Function.update_of_ne he] using ht
    exact hi t' h hold

/-- Changing the state of a connection that has no packet in hand. -/
theorem HandlersOpen.setConn {s : State} (hi : HandlersOpen s) {c : ConnId} {k : ConnState}
    {srv : Server} (hidle : s.conns c = .open → s.handlers (.conn c) = none) :
    HandlersOpen ({ s with srv := srv }.setConn c k) := by
  intro t h ht
  obtain ⟨htask, hopen⟩ := hi t h ht
  refine ⟨htask, fun c' hc' => ?_⟩
  by_cases he : c' = c
  · subst he
    have hbusy : s.handlers (.conn c') = some h := by
      have htc : t = .conn c' := by rw [← htask, hc']; rfl
      rw [← htc]
      exact ht
    rw [hidle (hopen c' hc')] at hbusy
    exact absurd hbusy (by simp)
  · show Function.update s.conns c k c' = .open
    rw [Function.update_of_ne he]
    exact hopen c' hc'

theorem handlersOpen_act {s s' : State} {e : Event} {obs : List Obs} (hi : HandlersOpen s)
    (ha : Act s e s' obs) : HandlersOpen s' := by
  cases ha with
  | @arrive source _ data sid seq payload hidle htcp hudp hdec =>
      intro t h ht
      by_cases he : t = source.task
      · have hset : some ⟨source, sid, seq, payload, .lookup⟩ = some h := by
          rw [he] at ht
          simpa [State.setHandler] using ht
        rw [← Option.some.inj hset]
        exact ⟨he.symm, fun c hc => (htcp c hc).1⟩
      · exact hi t h ((Function.update_of_ne he _ _).symm.trans ht)
  | accept hc => exact hi.setConn fun h => absurd (hc.symm.trans h) (by simp)
  | lookupHit ht _ _ => exact hi.setHandler fun _ hs => ⟨_, ht, by rw [← Option.some.inj hs]⟩
  | lookupMiss ht _ _ => exact hi.setHandler fun _ hs => ⟨_, ht, by rw [← Option.some.inj hs]⟩
  | createHit ht _ _ => exact hi.setHandler fun _ hs => ⟨_, ht, by rw [← Option.some.inj hs]⟩
  | createFail _ _ _ => exact hi.setHandler fun _ hs => absurd hs (by simp)
  | createNew ht _ _ => exact hi.setHandler fun _ hs => ⟨_, ht, by rw [← Option.some.inj hs]⟩
  | touch ht _ => exact hi.setHandler fun _ hs => ⟨_, ht, by rw [← Option.some.inj hs]⟩
  | checkDup _ _ _ => exact hi.setHandler fun _ hs => absurd hs (by simp)
  | checkNew ht _ _ _ => exact hi.setHandler fun _ hs => ⟨_, ht, by rw [← Option.some.inj hs]⟩
  | trackUdp ht _ _ => exact hi.setHandler fun _ hs => ⟨_, ht, by rw [← Option.some.inj hs]⟩
  | track ht _ _ => exact hi.setHandler fun _ hs => ⟨_, ht, by rw [← Option.some.inj hs]⟩
  | registerUdp ht _ _ => exact hi.setHandler fun _ hs => ⟨_, ht, by rw [← Option.some.inj hs]⟩
  | registerTcp ht _ _ => exact hi.setHandler fun _ hs => ⟨_, ht, by rw [← Option.some.inj hs]⟩
  | forward _ _ => exact hi.setHandler fun _ hs => absurd hs (by simp)
  | connEnds _ hidle => exact hi.setConn fun _ => hidle
  | untrack hc => exact hi.setConn fun h => absurd (hc.symm.trans h) (by simp)
  | removePath hc => exact hi.setConn fun h => absurd (hc.symm.trans h) (by simp)
  | _ => exact hi

theorem handlersOpen_exec {cfg : ServerConfig} {es : List Event} {s : State} {tr : List Obs}
    (hrun : (machine cfg).exec es = some (s, tr)) : HandlersOpen s :=
  Machine.invariant (I := fun s _ => HandlersOpen s) _
    (fun _ _ h => absurd h (by simp [machine]))
    (fun _ _ _ _ _ hi hs => handlersOpen_act hi (act_of_machine hs)) hrun

end Fproxy.Server
