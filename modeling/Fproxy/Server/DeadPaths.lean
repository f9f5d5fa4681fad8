import Fproxy.Server.Provenance

/-!
# TCP paths of closed connections

`cleanup_tcp_conn` looks up the one session `tcp_conn_to_session` names for the connection and
removes the connection from the path list of that session.  The server accepts any session id on
any connection, so a connection may be listed for several sessions.

* `arrived_of_hasTcp` — a connection is listed only for sessions whose packets it carried.
* `no_dead_paths_iff` — along a run no closed connection is ever listed if and only if at every
  clean-up the connection is listed at most for the session that was tracked for it.
* `closed_connection_stays_listed` — a connection that carried packets of two sessions.
-/

namespace Fproxy.Server

open Fproxy.Protocol Fproxy.Runs

/-- A connection is listed for a session only if it carried a packet of the session. -/
theorem arrived_of_hasTcp {cfg : ServerConfig} {es : List Event} {s : State} {tr : List Obs}
    (hrun : (machine cfg).exec es = some (s, tr)) {sid : UInt64} {c : ConnId}
    (h : HasTcp s.srv sid c) :
    ∃ seq payload, .tcpArrives c (encodePacket sid seq payload) ∈ es := by
  have hreq : Requests (fun source data => ∃ e ∈ es, e.packet = some (source, data)) s tr := by
    refine Machine.exec_induction (P := fun es s tr => Requests
      (fun source data => ∃ e ∈ es, e.packet = some (source, data)) s tr) _ ?_
      (fun es s tr e s' obs _ ih hs => ?_) es s tr hrun
    · exact ⟨fun _ _ h => absurd h (by simp [machine]),
        fun _ _ _ _ _ h => absurd h List.not_mem_nil,
        fun _ _ _ h => by
          obtain ⟨_, h, _⟩ := h
          exact absurd h (by simp [machine, new])⟩
    · refine (ih.mono fun source data h => ?_).act (act_of_machine hs) fun source data he =>
        ⟨e, List.mem_append_right _ List.mem_cons_self, he⟩
      obtain ⟨e', hm, he'⟩ := h
      exact ⟨e', List.mem_append_left _ hm, he'⟩
  obtain ⟨w, hlists⟩ := h
  obtain ⟨-, seq, payload, e, hm, he⟩ := hreq.listed sid c w hlists
  cases e with
  | tcpArrives c' data =>
      obtain ⟨hc, rfl⟩ := Prod.mk.inj (Option.some.inj he)
      rw [Source.tcp.inj hc] at hm
      exact ⟨seq, payload, hm⟩
  | udpArrives l addr data => exact absurd he (by simp [Event.packet])
  | _ => exact absurd he (by simp [Event.packet])

/-- No session lists a connection whose clean-up has run. -/
def NoDeadPath (s : State) : Prop :=
  ∀ c, s.conns c = .closed → ∀ sid, ¬ HasTcp s.srv sid c

/-- When `cleanup_tcp_conn` is about to search a list, the connection is listed for no session
but the tracked one. -/
def CleanupFindsAll (s : State) : Event → Prop
  | .cleanup c => ∀ k, s.conns c = .untracked k → ∀ sid, HasTcp s.srv sid c → k = some sid
  | _ => True

/-- How a connection becomes closed. -/
theorem closed_of_act {s s' : State} {e : Event} {obs : List Obs} (ha : Act s e s' obs)
    {c : ConnId} (h : s'.conns c = .closed) :
    s.conns c = .closed ∨ ∃ k, s.conns c = .untracked k ∧ e = .cleanup c ∧
      s'.srv = s.srv.removeTcpPath k c := by
  have hset : ∀ {c₀ : ConnId} {k : ConnState}, k ≠ .closed →
      Function.update s.conns c₀ k c = .closed → s.conns c = .closed := by
    intro c₀ k hk hu
    by_cases he : c = c₀
    · rw [he, Function.update_self] at hu
      exact absurd hu hk
    · rwa [Function.update_of_ne he] at hu
  cases ha with
  | accept _ => exact Or.inl (hset (by simp) h)
  | connEnds _ _ => exact Or.inl (hset (by simp) h)
  | untrack _ => exact Or.inl (hset (by simp) h)
  | @removePath c₀ k hk =>
      by_cases he : c = c₀
      · subst he
        exact Or.inr ⟨k, hk, rfl, rfl⟩
      · exact Or.inl ((Function.update_of_ne he _ _).symm.trans h)
  | _ => exact Or.inl h

theorem noDeadPath_act {s s' : State} {e : Event} {obs : List Obs} (hopen : HandlersOpen s)
    (hi : NoDeadPath s) (hc : CleanupFindsAll s e) (ha : Act s e s' obs) : NoDeadPath s' := by
  intro c hclosed sid hhas
  rcases closed_of_act ha hclosed with hold | ⟨k, hk, rfl, hsrv⟩
  · -- already closed: only its own task could list it again, and that task has ended
    obtain ⟨w, hlists⟩ := hhas
    rcases hlists.of_act ha with hprev | ⟨_, t, hd, _, ht, _, hsrc, _⟩
    · exact hi c hold sid ⟨w, hprev⟩
    · have h := (hopen t hd ht).2 c hsrc
      rw [hold] at h
      exact absurd h (by simp)
  · rw [hsrv, hasTcp_removeTcpPath_iff] at hhas
    exact hhas.2 ⟨hc k hk sid hhas.1, rfl⟩

/-- **Exactly when no path is dead.**  Along a run no session ever lists a connection whose
clean-up has run if and only if every clean-up finds the connection listed for no session other
than the one tracked for it. -/
theorem no_dead_paths_iff (cfg : ServerConfig) (es : List Event) {s : State} {tr : List Obs}
    (hrun : (machine cfg).exec es = some (s, tr)) :
    (machine cfg).Always (fun s _ => NoDeadPath s) es ↔
      (machine cfg).Each (fun s _ e => CleanupFindsAll s e) es := by
  constructor
  · intro hP
    refine Machine.each_of_always (fun es s tr e s' o _ hstep hs' => ?_) hrun hP
    cases e with
    | cleanup c =>
        intro k hk sid hhas
        by_contra hother
        -- the list of another session is not searched, so the connection stays in it
        have hs'' : s' = { s with srv := s.srv.removeTcpPath k c }.setConn c .closed := by
          simp only [machine, step, hk] at hstep
          exact (Prod.mk.inj (Option.some.inj hstep)).1.symm
        have hclosed : s'.conns c = .closed := by
          rw [hs'']
          exact Function.update_self _ _ _
        refine hs' c hclosed sid ?_
        rw [hs'']
        exact hasTcp_removeTcpPath_iff.mpr ⟨hhas, fun h => hother h.1⟩
    | _ => trivial
  · intro hC pre hpre s₀ tr₀ h₀
    have hboth : HandlersOpen s₀ ∧ NoDeadPath s₀ :=
      Machine.invariant_of_each (I := fun s _ => HandlersOpen s ∧ NoDeadPath s)
        ⟨fun _ _ h => absurd h (by simp [machine]), fun _ h => absurd h (by simp [machine])⟩
        (fun _ _ _ _ _ hi hc hs =>
          ⟨handlersOpen_act hi.1 (act_of_machine hs),
            noDeadPath_act hi.1 hi.2 hc (act_of_machine hs)⟩)
        (hC.of_isPrefix hpre) h₀
    exact hboth.2

/-- One packet of a session is handled on connection 0 from its arrival to the forwarding. -/
def handlePacketOf (sid : UInt64) : List Event :=
  .tcpArrives 0 (Protocol.encodeTcp sid 0 [1]) ::
    List.replicate 7 (.handler (.conn 0) 10 true true)

/-- Connection 0 carries packets of these sessions and closes. -/
def connectionOf (sids : List UInt64) : List Event :=
  .accept 0 :: sids.flatMap handlePacketOf ++ [Event.connEnds 0, Event.cleanup 0, Event.cleanup 0]

/-- The clean-up of a connection is about to search the list of session 7. -/
def searchesSeven (s : State) : Event → Bool
  | .cleanup c =>
      match s.conns c with
      | .untracked k => k == some 7
      | _ => true
  | _ => true

/-- A connection of one session leaves no path behind. -/
theorem no_dead_paths_of_one_session :
    (∃ s tr, (machine demoConfig).exec (connectionOf [7]) = some (s, tr) ∧
      s.conns 0 = .closed) ∧
    (machine demoConfig).Always (fun s _ => NoDeadPath s) (connectionOf [7]) := by
  have hview : ((machine demoConfig).exec (connectionOf [7])).map
      (fun r => r.1.conns 0) = some .closed := by decide
  obtain ⟨⟨s, tr⟩, hrun, hclosed⟩ := Option.map_eq_some_iff.mp hview
  have hsearch : (machine demoConfig).Each (fun s _ e => searchesSeven s e = true)
      (connectionOf [7]) := Machine.each_of_check (fun _ _ _ h => h) (by decide)
  refine ⟨⟨s, tr, hrun, hclosed⟩,
    (no_dead_paths_iff demoConfig (connectionOf [7]) hrun).mpr fun pre e hpre s₀ tr₀ h₀ => ?_⟩
  have hseven := hsearch pre e hpre s₀ tr₀ h₀
  cases e with
  | cleanup c =>
      intro k hk sid hhas
      obtain ⟨seq, payload, hm⟩ := arrived_of_hasTcp h₀ hhas
      have harr : encodePacket sid seq payload ∈ (connectionOf [7]).filterMap (fun
          | .tcpArrives _ data => some data
          | _ => none) :=
        List.mem_filterMap.mpr
          ⟨_, ((List.prefix_append pre _).trans hpre).subset hm, rfl⟩
      have hone : encodePacket sid seq payload = encodePacket 7 0 [1] := by
        simpa [connectionOf, handlePacketOf, encodeTcp] using harr
      have hsid := congrArg decodePacket hone
      rw [decodePacket_encodePacket, decodePacket_encodePacket] at hsid
      simp only [searchesSeven, hk, beq_iff_eq] at hseven
      rw [hseven, (Prod.mk.inj (Except.ok.inj hsid)).1]
  | _ => trivial

/-- A connection that carried packets of sessions 7 and 8 stays listed for session 7. -/
theorem closed_connection_stays_listed :
    ∃ s tr, (machine demoConfig).exec (connectionOf [7, 8]) = some (s, tr) ∧
      s.conns 0 = .closed ∧ HasTcp s.srv 7 0 := by
  have hview : ((machine demoConfig).exec (connectionOf [7, 8])).map
      (fun r => (r.1.conns 0, r.1.srv.clientPaths 7)) = some (.closed, some [.tcp 0 0]) := by
    decide
  obtain ⟨⟨s, tr⟩, hrun, hv⟩ := Option.map_eq_some_iff.mp hview
  obtain ⟨hclosed, hpaths⟩ := Prod.mk.inj hv
  exact ⟨s, tr, hrun, hclosed, 0, _, hpaths, List.mem_singleton_self _⟩

end Fproxy.Server
