import Fproxy.Client.ReaderCleanup
import Fproxy.Library.Clock

/-!
# Which TCP sessions the sweep takes for idle

The sweep tests `last_activity` of a TCP session, which `get_or_create_tcp_session` sets and
`handle_tcp_transport` refreshes before it sends.  `process_tcp_response` refreshes
`last_activity` of the source's UDP session only.

* `Activity` — what happens on connections; `activity` observes it in the runs of the client,
  under a clock.
* `Stamped` — `last_activity` is the time the connection was last opened or refreshed.
* `spares_iff` — no sweep takes away a TCP session in use, if and only if every TCP session in use
  was also refreshed in time.
-/

namespace Fproxy.Client

open Fproxy.Protocol Fproxy.Runs

/-- What happens on a TCP connection. -/
inductive Activity where
  /-- `get_or_create_tcp_session` opened it. -/
  | opened (c : ConnId)
  /-- `handle_tcp_transport` wrote its `last_activity`. -/
  | refreshed (c : ConnId)
  /-- A frame was written to it. -/
  | sent (c : ConnId)
  /-- A well-formed response frame for a live session was read from it. -/
  | received (c : ConnId)
  deriving DecidableEq

/-- The connection whose `last_activity` is written. -/
def Activity.stamped : Activity → Option ConnId
  | .opened c => some c
  | .refreshed c => some c
  | _ => none

/-- The connection that is in use. -/
def Activity.used : Activity → Option ConnId
  | .sent c => some c
  | .received c => some c
  | _ => none

/-- The connection whose `last_activity` the listener task is about to write. -/
def State.refreshing (s : State) : Option ConnId :=
  s.sending.bind fun h => match h.pc with
    | .tcpTouch _ _ c _ => some c
    | _ => none

/-- The data is a packet of the live session of the connection's source. -/
def liveFrame (s : Client) (c : ConnId) (data : List UInt8) : Bool :=
  match decodeTcp data with
  | .ok (sessionId, _, _) => s.sessionIdOf (s.readers c).source = some sessionId
  | .error _ => false

/-- What an event itself does to connections. -/
def State.activityOf (s : State) : Event → List Activity
  | .listener _ _ _ _ => (s.refreshing.map .refreshed).toList
  | .frameEnds c data => if liveFrame s.cl c data then [.received c] else []
  | _ => []

/-- What an observation says of connections. -/
def Obs.activity : Obs → Option Activity
  | .connected c _ _ => some (.opened c)
  | .sentTcp c _ => some (.sent c)
  | _ => none

/-- The client, observed through what happens on its connections. -/
def activity (cfg : ClientConfig) (counter : UInt64) : Machine State Event Activity :=
  (machine cfg counter).observe fun s e _ obs => s.activityOf e ++ obs.filterMap Obs.activity

/-- The clock reading in an event. -/
def Event.reads : Event → Option ℕ
  | .listener now _ _ _ => some now
  | .responder _ now _ => some now
  | .sweepUdp now => some now
  | _ => none

/-- The client under a clock. -/
def clockedActivity (cfg : ClientConfig) (counter : UInt64) :
    Machine (State × ℕ) (ℕ × Event) (ℕ × Activity) :=
  (activity cfg counter).clocked Event.reads

/-- The connection was in use at time `t`. -/
def UsedAt (tr : List (ℕ × Activity)) (c : ConnId) (t : ℕ) : Prop :=
  ∃ a, (t, a) ∈ tr ∧ a.used = some c

/-- The `last_activity` of the connection was written at time `t`. -/
def StampedAt (tr : List (ℕ × Activity)) (c : ConnId) (t : ℕ) : Prop :=
  ∃ a, (t, a) ∈ tr ∧ a.stamped = some c

/-- Between the two states no TCP session was removed or cancelled that was in use at a time the
reading `now` lies at most the session timeout after. -/
def SparesInUse (tr : List (ℕ × Activity)) (now : ℕ) (s s' : Client) : Prop :=
  ∀ c t, UsedAt tr c t → now ≤ t + s.cfg.sessionTimeout →
    (∀ key, s.tcpSessions key = some c → s'.tcpSessions key = some c) ∧
      (s'.tcpHeap c).cancelled = (s.tcpHeap c).cancelled

/-- Every stored TCP session that was in use at most the timeout before the reading was also opened
or refreshed at most the timeout before it. -/
def InUseRefreshed (tr : List (ℕ × Activity)) (now : ℕ) (s : Client) : Prop :=
  ∀ key ∈ s.keys, ∀ c ∈ s.tcpSessions key,
    ∀ x ∈ tr, x.2.used = some c → now ≤ x.1 + s.cfg.sessionTimeout →
      ∃ y ∈ tr, y.2.stamped = some c ∧ now ≤ y.1 + s.cfg.sessionTimeout

instance (tr : List (ℕ × Activity)) (now : ℕ) (s : Client) : Decidable (InUseRefreshed tr now s) := by
  unfold InUseRefreshed
  infer_instance

/-! ### What `last_activity` holds -/

theorem cleanupTcpSession_lastActivity (s : Client) (key : SessionKey) (c : ConnId) :
    ((s.cleanupTcpSession key).tcpHeap c).lastActivity = (s.tcpHeap c).lastActivity := by
  unfold cleanupTcpSession
  split
  · rfl
  · next c' _ => by_cases h : c = c' <;> simp [cancelTcp, h]

theorem cleanupExpiredTcp_lastActivity (s : Client) (now : ℕ) (c : ConnId) :
    ((s.cleanupExpiredTcp now).tcpHeap c).lastActivity = (s.tcpHeap c).lastActivity := by
  simp only [cleanupExpiredTcp]
  split <;> rfl

theorem touchTcp_lastActivity (s : Client) (c c' : ConnId) (now : ℕ) :
    ((s.touchTcp c now).tcpHeap c').lastActivity =
      if c' = c then now else (s.tcpHeap c').lastActivity := by
  by_cases h : c' = c <;> simp [touchTcp, h]

/-- What a move does to the timestamps: nothing, or one connection is opened or refreshed. -/
theorem stamps_of_act {s s' : State} {e : Event} {obs : List Obs} (ha : Act s e s' obs) :
    ((s.activityOf e ++ obs.filterMap Obs.activity).filterMap Activity.stamped = [] ∧
      s'.cl.nextConn = s.cl.nextConn ∧
      ∀ c, (s'.cl.tcpHeap c).lastActivity = (s.cl.tcpHeap c).lastActivity) ∨
    (∃ c now, e.reads = some now ∧
      (s.activityOf e ++ obs.filterMap Obs.activity).filterMap Activity.stamped = [c] ∧
      (s'.cl.nextConn = s.cl.nextConn ∨ c = s.cl.nextConn ∧ s'.cl.nextConn = c + 1) ∧
      ∀ c', (s'.cl.tcpHeap c').lastActivity =
        if c' = c then now else (s.cl.tcpHeap c').lastActivity) := by
  cases ha with
  | @tcpCreateNew h o seq server servers now random b' hs hpc hnone =>
      refine Or.inr ⟨s.cl.nextConn, now, rfl, ?_, Or.inr ⟨rfl, ?_⟩, fun c => ?_⟩
      · simp [State.activityOf, State.refreshing, hs, hpc, Obs.activity, Activity.stamped]
      · simp [createTcpSession, hnone]
      · by_cases hc : c = s.cl.nextConn <;> simp [createTcpSession, hnone, hc]
  | @tcpTouch h o seq c servers now random b b' hs hpc =>
      refine Or.inr ⟨c, now, rfl, ?_, Or.inl rfl, fun c' => touchTcp_lastActivity _ _ c' _⟩
      simp [State.activityOf, State.refreshing, hs, hpc, Activity.stamped]
  | createNew hs hpc hnone =>
      refine Or.inl ⟨?_, ?_, fun c => ?_⟩
      · simp [State.activityOf, State.refreshing, hs, hpc, Obs.activity]
      · simp [createUdpSession, hnone]
      · simp [createUdpSession, hnone]
  | udpSend hs hpc =>
      refine Or.inl ⟨?_, rfl, fun _ => rfl⟩
      split <;> simp [State.activityOf, State.refreshing, hs, hpc, Obs.activity]
  | tcpSend hs hpc _ =>
      refine Or.inl ⟨?_, rfl, fun _ => rfl⟩
      split <;> simp [State.activityOf, State.refreshing, hs, hpc, Obs.activity, Activity.stamped]
  | @frameUndecodable c data _ | @frameEnds c data _ _ _ _ _ _ =>
      refine Or.inl ⟨?_, rfl, fun _ => rfl⟩
      simp only [State.activityOf]
      split <;> rfl
  | cleanup _ =>
      refine Or.inl ⟨rfl, ?_, cleanupTcpSession_lastActivity _ _⟩
      exact cleanupTcpSession_nextConn _ _
  | sweepTcp _ => exact Or.inl ⟨rfl, rfl, cleanupExpiredTcp_lastActivity _ _⟩
  | lookupHit hs hpc _ | lookupMiss hs hpc _ | createHit hs hpc _ | number hs hpc | touch hs hpc
  | udpDone hs hpc | tcpDone hs hpc | tcpHit hs hpc _ | tcpMiss hs hpc _ | tcpCreateHit hs hpc _
  | tcpCreateFail hs hpc _ | tcpTooLarge hs hpc _ =>
      refine Or.inl ⟨?_, rfl, fun _ => rfl⟩
      simp [State.activityOf, State.refreshing, hs, hpc, Obs.activity]
  | _ => exact Or.inl ⟨rfl, rfl, fun _ => rfl⟩

theorem stampedAt_append {tr : List (ℕ × Activity)} {o : List Activity} {now t : ℕ} {c : ConnId} :
    StampedAt (tr ++ o.map (Prod.mk now)) c t ↔
      StampedAt tr c t ∨ t = now ∧ c ∈ o.filterMap Activity.stamped := by
  simp only [StampedAt, List.mem_append, or_and_right, exists_or, List.mem_map, List.mem_filterMap,
    Prod.mk.injEq]
  refine or_congr_right ⟨?_, ?_⟩
  · rintro ⟨a, ⟨a', ha', rfl, rfl⟩, hc⟩
    exact ⟨rfl, a', ha', hc⟩
  · rintro ⟨rfl, a, ha, hc⟩
    exact ⟨a, ⟨a, ha, rfl, rfl⟩, hc⟩

/-- `last_activity` of a connection is the last time it was opened or refreshed. -/
structure Stamped (s : Client) (tr : List (ℕ × Activity)) : Prop where
  last : ∀ c, c < s.nextConn → StampedAt tr c (s.tcpHeap c).lastActivity
  latest : ∀ c t, c < s.nextConn → StampedAt tr c t → t ≤ (s.tcpHeap c).lastActivity

/-- The step lemma: time has come to `now`, and no stamp is later. -/
theorem Stamped.act {s s' : State} {e : Event} {obs : List Obs} {tr : List (ℕ × Activity)} {now : ℕ}
    (hi : Stamped s.cl tr) (ha : Act s e s' obs) (hnow : e.reads.getD now = now)
    (hpast : ∀ x ∈ tr, x.1 ≤ now) :
    Stamped s'.cl
      (tr ++ (s.activityOf e ++ obs.filterMap Obs.activity).map (Prod.mk now)) := by
  rcases stamps_of_act ha with ⟨hnone, hnext, hlast⟩ | ⟨c₀, t₀, hreads, hone, hnext, hlast⟩
  · have hsame : ∀ c t, StampedAt
        (tr ++ (s.activityOf e ++ obs.filterMap Obs.activity).map (Prod.mk now)) c t ↔
          StampedAt tr c t := fun c t => by
      rw [stampedAt_append, hnone]
      exact or_iff_left fun h => absurd h.2 List.not_mem_nil
    refine ⟨fun c hc => ?_, fun c t hc ht => ?_⟩
    · rw [hlast, hsame]
      exact hi.last c (hnext ▸ hc)
    · rw [hlast]
      exact hi.latest c t (hnext ▸ hc) ((hsame c t).mp ht)
  · obtain rfl : t₀ = now := by
      rw [hreads] at hnow
      exact hnow
    have hstamp : ∀ c t, StampedAt
        (tr ++ (s.activityOf e ++ obs.filterMap Obs.activity).map (Prod.mk t₀)) c t ↔
          StampedAt tr c t ∨ t = t₀ ∧ c = c₀ := fun c t => by
      rw [stampedAt_append, hone, List.mem_singleton]
    have hold : ∀ c, c < s'.cl.nextConn → c ≠ c₀ → c < s.cl.nextConn := by
      intro c hc hne
      rcases hnext with hnext | ⟨rfl, hnext⟩
      · exact hnext ▸ hc
      · rw [hnext] at hc
        exact lt_of_le_of_ne (Nat.lt_succ_iff.mp hc) hne
    refine ⟨fun c hc => ?_, fun c t hc ht => ?_⟩
    · rw [hlast, hstamp]
      by_cases he : c = c₀
      · rw [if_pos he]
        exact Or.inr ⟨rfl, he⟩
      · rw [if_neg he]
        exact Or.inl (hi.last c (hold c hc he))
    · rw [hlast]
      rcases (hstamp c t).mp ht with ht | ⟨rfl, rfl⟩
      · by_cases he : c = c₀
        · rw [if_pos he]
          obtain ⟨a, hm, -⟩ := ht
          exact hpast _ hm
        · rw [if_neg he]
          exact hi.latest c t (hold c hc he) ht
      · rw [if_pos rfl]

section Runs

variable {cfg : ClientConfig} {counter : UInt64}

/-- A step of the client under the clock is a step of the client. -/
theorem act_of_clocked {s s' : State × ℕ} {e : ℕ × Event} {o : List (ℕ × Activity)}
    (h : (clockedActivity cfg counter).step s e = some (s', o)) :
    s.2 ≤ e.1 ∧ e.2.reads.getD e.1 = e.1 ∧ s'.2 = e.1 ∧ ∃ obs, Act s.1 e.2 s'.1 obs ∧
      o = (s.1.activityOf e.2 ++ obs.filterMap Obs.activity).map (Prod.mk e.1) := by
  obtain ⟨⟨hle, hreads⟩, o', hstep, ht, rfl⟩ := Machine.clocked_step.mp h
  obtain ⟨obs, hs, rfl⟩ := Machine.observe_step.mp hstep
  exact ⟨hle, hreads, ht, obs, act_of_machine hs, rfl⟩

/-- The run lemma. -/
theorem stamped_exec {es : List (ℕ × Event)} {s : State × ℕ} {tr : List (ℕ × Activity)}
    (h : (clockedActivity cfg counter).exec es = some (s, tr)) : Stamped s.1.cl tr := by
  refine (clockedActivity cfg counter).exec_induction (P := fun _ s tr => Stamped s.1.cl tr)
    ⟨fun _ hc => absurd hc (Nat.not_lt_zero _), fun _ _ hc => absurd hc (Nat.not_lt_zero _)⟩
    (fun es s tr e s' o hrun hi hs => ?_) es s tr h
  obtain ⟨hle, hreads, -, obs, ha, rfl⟩ := act_of_clocked hs
  exact hi.act ha hreads fun x hx => (Machine.stamp_le hrun x hx).trans hle

theorem keyed_clocked {es : List (ℕ × Event)} {s : State × ℕ} {tr : List (ℕ × Activity)}
    (h : (clockedActivity cfg counter).exec es = some (s, tr)) : Keyed s.1.cl := by
  obtain ⟨_, hrun⟩ := Machine.exec_of_observe (Machine.clocked_exec h)
  exact keyed_exec hrun

end Runs

/-! ### The sweep -/

theorem expiredTcp_iff {s : Client} {now : ℕ} {key : SessionKey} {c : ConnId}
    (h : s.tcpSessions key = some c) :
    s.expiredTcp now key = false ↔ now ≤ (s.tcpHeap c).lastActivity + s.cfg.sessionTimeout := by
  simp only [expiredTcp, h, decide_eq_false_iff_not]
  omega

/-- One sweep. -/
theorem spares_sweep_iff {s : Client} {tr : List (ℕ × Activity)} (hk : Keyed s)
    (hi : Stamped s tr) (now : ℕ) :
    SparesInUse tr now s (s.cleanupExpiredTcp now) ↔ InUseRefreshed tr now s := by
  constructor
  · intro hspare key hm c hkey x hx hused hrecent
    have hkept := (hspare c x.1 ⟨x.2, hx, hused⟩ hrecent).1 key hkey
    have hlive : s.expiredTcp now key = false := by
      by_contra hexp
      have hgone : key ∈ s.keys.filter (s.expiredTcp now) :=
        List.mem_filter.mpr ⟨hm, by simpa using hexp⟩
      simp only [cleanupExpiredTcp, if_pos hgone] at hkept
      exact absurd hkept (by simp)
    obtain ⟨a, ha, hstamp⟩ := hi.last c (hk.stored key c hkey).1
    exact ⟨_, ha, hstamp, (expiredTcp_iff hkey).mp hlive⟩
  · intro hfresh c t hused hrecent
    have hlive : ∀ key, s.tcpSessions key = some c → key ∉ s.keys.filter (s.expiredTcp now) := by
      intro key hkey hm
      obtain ⟨a, ha, hu⟩ := hused
      obtain ⟨y, hy, hstamp, hle⟩ := hfresh key (hk.keys key c hkey) c hkey (t, a) ha hu hrecent
      have hlast := hi.latest c y.1 (hk.stored key c hkey).1 ⟨y.2, hy, hstamp⟩
      have hnot : s.expiredTcp now key = false := (expiredTcp_iff hkey).mpr (by omega)
      exact absurd (List.mem_filter.mp hm).2 (by simp [hnot])
    refine ⟨fun key hkey => ?_, ?_⟩
    · simp only [cleanupExpiredTcp, if_neg (hlive key hkey)]
      exact hkey
    · have hnot : some c ∉ (s.keys.filter (s.expiredTcp now)).map s.tcpSessions := by
        intro hm
        obtain ⟨key, hm, hkey⟩ := List.mem_map.mp hm
        exact hlive key hkey hm
      simp only [cleanupExpiredTcp, if_neg hnot]

/-- No sweep of the run removes or cancels a TCP session that was in use at most the timeout before
the sweep's clock reading. -/
def SweepsSpareInUse (cfg : ClientConfig) (counter : UInt64) (es : List (ℕ × Event)) : Prop :=
  ∀ pre t now s tr s' o, pre ++ [(t, .sweepTcp)] <+: es →
    (clockedActivity cfg counter).exec pre = some (s, tr) → s.1.sweeping = some now →
    (clockedActivity cfg counter).step s (t, .sweepTcp) = some (s', o) →
    SparesInUse tr now s.1.cl s'.1.cl

/-- A sweep finds every TCP session in use opened or refreshed in time. -/
def RefreshedInTime (s : State × ℕ) (tr : List (ℕ × Activity)) (e : ℕ × Event) : Prop :=
  e.2 = .sweepTcp → ∀ now ∈ s.1.sweeping, InUseRefreshed tr now s.1.cl

instance (s : State × ℕ) (tr : List (ℕ × Activity)) (e : ℕ × Event) :
    Decidable (RefreshedInTime s tr e) := by
  unfold RefreshedInTime
  infer_instance

theorem sweep_step {cfg : ClientConfig} {counter : UInt64} {s s' : State × ℕ} {t now : ℕ}
    {o : List (ℕ × Activity)} (hnow : s.1.sweeping = some now)
    (h : (clockedActivity cfg counter).step s (t, .sweepTcp) = some (s', o)) :
    s'.1.cl = s.1.cl.cleanupExpiredTcp now := by
  obtain ⟨-, -, -, obs, ha, -⟩ := act_of_clocked h
  generalize s'.1 = s₁ at ha
  cases ha with
  | sweepTcp hs => rw [Option.some.inj (hnow.symm.trans hs)]

/-- **When TCP sessions in use survive.**  In every run of sends, response frames and sweeps under
a clock, for all TCP sessions: no sweep takes away a session that was in use at a time its clock
reading lies at most the session timeout after, if and only if every sweep finds each such session
also opened, or refreshed for a send, at such a time. -/
theorem spares_iff (cfg : ClientConfig) (counter : UInt64) (es : List (ℕ × Event))
    {s : State × ℕ} {tr : List (ℕ × Activity)}
    (hrun : (clockedActivity cfg counter).exec es = some (s, tr)) :
    SweepsSpareInUse cfg counter es ↔ (clockedActivity cfg counter).Each RefreshedInTime es := by
  constructor
  · intro hspare pre e hpre s₀ tr₀ h₀ he now hnow
    obtain ⟨t, e⟩ := e
    obtain rfl : e = .sweepTcp := he
    obtain ⟨s₁, o, hs, -⟩ := Machine.step_of_isPrefix hpre hrun h₀
    have hsweep := hspare pre t now s₀ tr₀ s₁ o hpre h₀ hnow hs
    rw [sweep_step hnow hs] at hsweep
    exact (spares_sweep_iff (keyed_clocked h₀) (stamped_exec h₀) now).mp hsweep
  · intro hfresh pre t now s₀ tr₀ s' o hpre h₀ hnow hs
    rw [sweep_step hnow hs]
    exact (spares_sweep_iff (keyed_clocked h₀) (stamped_exec h₀) now).mpr
      (hfresh pre _ hpre s₀ tr₀ h₀ rfl now hnow)

/-- A datagram is sent at time 10; at time 50 its response comes back over TCP and is forwarded;
a sweep begins at time 75. -/
def oneWay : List (ℕ × Event) :=
  (sendDatagram demoAddr 10 11).map (Prod.mk 10) ++
    ([(50, .frameBegins 0), (50, .frameEnds 0 (encodeTcp 1 0 [2])),
      (50, .responder (.tcp 0) 50 true), (50, .responder (.tcp 0) 50 true),
      (50, .responder (.tcp 0) 50 true), (50, .responder (.tcp 0) 50 true),
      (75, .sweepUdp 75)] : List (ℕ × Event))

/-- **A connection that only receives expires.**  The sweep at time 75 cancels the connection from
which a response was read at time 50; the timeout is 60. -/
theorem receiving_session_expires :
    ¬ SweepsSpareInUse demoConfig 0 (oneWay ++ [(75, .sweepTcp)]) := by
  intro hspare
  have hview : ((clockedActivity demoConfig 0).exec oneWay).map
      (fun r => (r.1.1.sweeping, r.1.1.cl.tcpSessions (demoAddr, "127.0.0.1:2"),
        decide ((50, .received 0) ∈ r.2), r.1.1.cl.cfg.sessionTimeout,
        ((clockedActivity demoConfig 0).step r.1 (75, .sweepTcp)).map fun q =>
          q.1.1.cl.tcpSessions (demoAddr, "127.0.0.1:2"))) =
      some (some 75, some 0, true, 60, some none) := by decide
  obtain ⟨⟨s, tr⟩, hrun, hv⟩ := Option.map_eq_some_iff.mp hview
  simp only [Prod.mk.injEq, decide_eq_true_eq] at hv
  obtain ⟨hnow, hstored, hread, htimeout, hstep⟩ := hv
  obtain ⟨⟨s', o⟩, hstep, hgone⟩ := Option.map_eq_some_iff.mp hstep
  have hkept := (hspare oneWay 75 75 s tr s' o (List.prefix_refl _) hrun hnow hstep 0 50
    ⟨_, hread, rfl⟩ (by rw [htimeout]; decide)).1 _ hstored
  exact absurd (hgone.symm.trans hkept) (by simp)

/-- The source also sends at time 40. -/
def twoWay : List (ℕ × Event) :=
  (sendDatagram demoAddr 10 11).map (Prod.mk 10) ++ (sendDatagram demoAddr 40 9).map (Prod.mk 40) ++
    ([(50, .frameBegins 0), (50, .frameEnds 0 (encodeTcp 1 0 [2])), (75, .sweepUdp 75),
      (75, .sweepTcp)] : List (ℕ × Event))

/-- A connection that was used in both directions survives the same sweep. -/
theorem two_way_session_survives :
    SweepsSpareInUse demoConfig 0 twoWay ∧
      ∃ s tr, (clockedActivity demoConfig 0).exec twoWay = some (s, tr) ∧
        s.1.cl.tcpSessions (demoAddr, "127.0.0.1:2") = some 0 := by
  have hview : ((clockedActivity demoConfig 0).exec twoWay).map
      (fun r => r.1.1.cl.tcpSessions (demoAddr, "127.0.0.1:2")) = some (some 0) := by decide
  obtain ⟨⟨s, tr⟩, hrun, hstored⟩ := Option.map_eq_some_iff.mp hview
  refine ⟨(spares_iff demoConfig 0 twoWay hrun).mpr ?_, s, tr, hrun, hstored⟩
  have hcheck : ∀ s tr e, decide (RefreshedInTime s tr e) = true → RefreshedInTime s tr e :=
    fun _ _ _ h => of_decide_eq_true h
  exact Machine.each_of_check_trace hcheck (by decide)

end Fproxy.Client
