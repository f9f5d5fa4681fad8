import Fproxy.GoClient.Objects

/-!
# No connection of the Go client leaks

A TCP connection is stored under a key until a sweep, the end of its goroutine or the end of
another goroutine with the same key removes it.  Whoever removes it also closes it.

* `TCPSession.shut` — cancelled and closed.
* `Connections` — the invariant: a connection is stored and has its goroutine, or is shut, or is
  being shut; `connections_exec` — it holds after every run.
* `no_connection_leaks` — the result, and what is left when the goroutines have ended.
-/

namespace Fproxy.GoClient

open Fproxy.Runs
open Fproxy.Client (SessionKey Obs)

/-- The session was cancelled and its connection closed. -/
def TCPSession.shut (x : TCPSession) : Bool := x.cancelled && x.connClosed

namespace Client

@[simp] theorem shut_touchTcp (s : Client) (c c' : ConnId) (now : ℕ) :
    ((s.touchTcp c now).tcpHeap c').shut = (s.tcpHeap c').shut := by
  by_cases h : c' = c
  · subst h
    simp [touchTcp, TCPSession.shut]
  · simp [touchTcp, Function.update_of_ne h]

@[simp] theorem shut_touchStored (s : Client) (key : SessionKey) (now : ℕ) (c : ConnId) :
    ((s.touchStored key now).tcpHeap c).shut = (s.tcpHeap c).shut := by
  unfold touchStored
  split
  · rfl
  · exact shut_touchTcp _ _ _ _

theorem touchStored_tables (s : Client) (key : SessionKey) (now : ℕ) :
    (s.touchStored key now).cfg = s.cfg ∧ (s.touchStored key now).nextConn = s.nextConn ∧
      (s.touchStored key now).keys = s.keys ∧
      (s.touchStored key now).tcpSessions = s.tcpSessions := by
  unfold touchStored
  split <;> exact ⟨rfl, rfl, rfl, rfl⟩

theorem expireTcp_cfg (s : Client) (now : ℕ) (key : SessionKey) :
    (s.expireTcp now key).cfg = s.cfg ∧ (s.expireTcp now key).nextConn = s.nextConn := by
  unfold expireTcp
  split
  · exact ⟨rfl, rfl⟩
  · split <;> exact ⟨rfl, rfl⟩

theorem shut_closeTcp (s : Client) (c c' : ConnId) :
    ((s.closeTcp c).tcpHeap c').shut = (decide (c' = c) || (s.tcpHeap c').shut) := by
  by_cases h : c' = c
  · subst h
    simp [closeTcp, TCPSession.shut]
  · simp [closeTcp, h]

theorem shut_closeAllTcp {s : Client} {c : ConnId} (h : (s.tcpHeap c).shut = true) :
    (s.closeAllTcp.tcpHeap c).shut = true := by
  simp only [closeAllTcp]
  split
  · rfl
  · exact h

end Client

/-- The tables, the connections and their goroutines. -/
structure Connections (s : State) : Prop where
  spawned : ∀ c, (s.readers c).pc = .idle ↔ s.cl.nextConn ≤ c
  stored : ∀ key c, s.cl.tcpSessions key = some c →
    c < s.cl.nextConn ∧ (s.readers c).key = key ∧ (s.readers c).pc.past = false
  listed : ∀ key c, s.cl.tcpSessions key = some c → key ∈ s.cl.keys
  accounted : ∀ c < s.cl.nextConn, s.cl.tcpSessions (s.readers c).key = some c ∨
    (s.cl.tcpHeap c).shut = true ∨ ∃ c₀, (s.readers c₀).pc = .closing (some c)

namespace Connections

variable {s s' : State}

/-- Frame rule: moves that store, remove and shut nothing. -/
theorem frame (hi : Connections s) (hnext : s'.cl.nextConn = s.cl.nextConn)
    (hkeys : s'.cl.keys = s.cl.keys) (htcp : s'.cl.tcpSessions = s.cl.tcpSessions)
    (hshut : ∀ c, (s'.cl.tcpHeap c).shut = (s.cl.tcpHeap c).shut)
    (hread : SameReaders s.readers s'.readers) : Connections s' := by
  refine ⟨fun c => ?_, fun key c h => ?_, fun key c h => ?_, fun c h => ?_⟩
  · rw [hread.idle, hi.spawned, hnext]
  · rw [hnext, hread.key, hread.past]
    exact hi.stored key c (htcp ▸ h)
  · rw [hkeys]
    exact hi.listed key c (htcp ▸ h)
  · rw [htcp, hshut, hread.key]
    refine (hi.accounted c (hnext ▸ h)).imp_right (Or.imp_right fun h => ?_)
    obtain ⟨c₀, hc₀⟩ := h
    exact ⟨c₀, hread.closing c₀ c hc₀⟩

/-- A connection is opened, stored, and given a goroutine. -/
theorem create (hi : Connections s) {h : Fproxy.Client.Sending} {key : SessionKey} {now : ℕ}
    (hnone : s.cl.tcpSessions key = none) :
    Connections { s with
      cl := (s.cl.createTcpSession key now true).1
      sending := some h
      readers := Function.update s.readers s.cl.nextConn ⟨key, .check⟩ } := by
  simp only [Client.createTcpSession, hnone, if_true]
  have hold : ∀ {c : ConnId}, c < s.cl.nextConn → c ≠ s.cl.nextConn :=
    fun h => Nat.ne_of_lt h
  refine ⟨fun c => ?_, fun key' c hc => ?_, fun key' c hc => ?_, fun c hc => ?_⟩
  · by_cases he : c = s.cl.nextConn
    · simp [he]
    · simp only [Function.update_of_ne he, hi.spawned]
      exact ⟨fun h => Nat.lt_of_le_of_ne h (Ne.symm he), Nat.le_of_succ_le⟩
  · by_cases hk : key' = key
    · simp only [hk, Function.update_self, Option.some.injEq] at hc
      simp [← hc, hk, ReaderPc.past]
    · simp only [Function.update_of_ne hk] at hc
      obtain ⟨hlt, hkey, hpast⟩ := hi.stored key' c hc
      simp only [Function.update_of_ne (hold hlt)]
      exact ⟨Nat.lt_succ_of_lt hlt, hkey, hpast⟩
  · by_cases hk : key' = key
    · rw [hk]
      exact List.mem_append_right _ (List.mem_singleton_self _)
    · simp only [Function.update_of_ne hk] at hc
      exact List.mem_append_left _ (hi.listed key' c hc)
  · by_cases he : c = s.cl.nextConn
    · left
      simp [he]
    · have hlt : c < s.cl.nextConn := Nat.lt_of_le_of_ne (Nat.le_of_lt_succ hc) he
      simp only [Function.update_of_ne he]
      rcases hi.accounted c hlt with hs | hs | ⟨c₀, hs⟩
      · left
        -- the key was free, so the connection is stored under another one
        have hk : (s.readers c).key ≠ key := by
          intro hk
          rw [hk, hnone] at hs
          exact absurd hs (by simp)
        rw [Function.update_of_ne hk]
        exact hs
      · exact Or.inr (Or.inl hs)
      · refine Or.inr (Or.inr ⟨c₀, ?_⟩)
        have hc₀ : c₀ ≠ s.cl.nextConn := by
          rintro rfl
          have hidle := (hi.spawned s.cl.nextConn).mpr (le_refl _)
          rw [hidle] at hs
          exact absurd hs (by simp)
        rw [Function.update_of_ne hc₀]
        exact hs

/-- A goroutine at its end deletes what is stored under its key. -/
theorem remove (hi : Connections s) {c : ConnId} (hpc : (s.readers c).pc = .cleanup) :
    Connections ({ s with cl := (s.cl.removeTcp (s.readers c).key).2 }.setReader c
      (.closing (s.cl.removeTcp (s.readers c).key).1)) := by
  have hstays : ∀ {key : SessionKey} {c' : ConnId},
      (s.cl.removeTcp (s.readers c).key).2.tcpSessions key = some c' →
        key ≠ (s.readers c).key ∧ s.cl.tcpSessions key = some c' := by
    intro key c' h
    by_cases hk : key = (s.readers c).key
    · simp [Client.removeTcp, hk] at h
    · exact ⟨hk, by simpa [Client.removeTcp, Function.update_of_ne hk] using h⟩
  refine ⟨fun c' => ?_, fun key c' h => ?_, fun key c' h => ?_, fun c' hc' => ?_⟩
  · rw [setReader_pc]
    split
    · next he =>
        have hspawn := hi.spawned c
        rw [hpc] at hspawn
        rw [he]
        exact iff_of_false (by simp) fun hle => absurd (hspawn.mpr hle) (by simp)
    · exact hi.spawned c'
  · obtain ⟨hk, hold⟩ := hstays h
    obtain ⟨hlt, hkey, hpast⟩ := hi.stored key c' hold
    rw [setReader_key, setReader_pc, if_neg]
    · exact ⟨hlt, hkey, hpast⟩
    · rintro rfl
      exact hk hkey.symm
  · obtain ⟨hk, hold⟩ := hstays h
    exact List.mem_filter.mpr ⟨hi.listed key c' hold, by simpa using hk⟩
  · rw [setReader_key]
    rcases hi.accounted c' hc' with hs | hs | ⟨c₀, hs⟩
    · by_cases hk : (s.readers c').key = (s.readers c).key
      · refine Or.inr (Or.inr ⟨c, ?_⟩)
        rw [setReader_pc, if_pos rfl, ← hs, hk]
        rfl
      · left
        show Function.update s.cl.tcpSessions _ none _ = _
        rw [Function.update_of_ne hk]
        exact hs
    · exact Or.inr (Or.inl hs)
    · refine Or.inr (Or.inr ⟨c₀, ?_⟩)
      rw [setReader_pc, if_neg]
      · exact hs
      · rintro rfl
        exact absurd (hpc.symm.trans hs) (by simp)

/-- A goroutine closes what it has deleted. -/
theorem close (hi : Connections s) {c c₁ : ConnId} (hpc : (s.readers c).pc = .closing (some c₁)) :
    Connections ({ s with cl := s.cl.closeTcp c₁ }.setReader c .done) := by
  refine ⟨fun c' => ?_, fun key c' h => ?_, fun key c' h => hi.listed key c' h, fun c' hc' => ?_⟩
  · rw [setReader_pc]
    split
    · next he =>
        have hspawn := hi.spawned c
        rw [hpc] at hspawn
        rw [he]
        exact iff_of_false (by simp) fun hle => absurd (hspawn.mpr hle) (by simp)
    · exact hi.spawned c'
  · obtain ⟨hlt, hkey, hpast⟩ := hi.stored key c' h
    rw [setReader_key, setReader_pc, if_neg]
    · exact ⟨hlt, hkey, hpast⟩
    · rintro rfl
      rw [hpc] at hpast
      exact absurd hpast (by simp [ReaderPc.past])
  · have hshut : (({ s with cl := s.cl.closeTcp c₁ }.setReader c .done).cl.tcpHeap c').shut =
        (decide (c' = c₁) || (s.cl.tcpHeap c').shut) := s.cl.shut_closeTcp c₁ c'
    rw [setReader_key, hshut]
    rcases hi.accounted c' hc' with hs | hs | ⟨c₀, hs⟩
    · exact Or.inl hs
    · exact Or.inr (Or.inl (by simp [hs]))
    · by_cases he : c₀ = c
      · rw [he, hpc] at hs
        simp only [ReaderPc.closing.injEq, Option.some.injEq] at hs
        exact Or.inr (Or.inl (by simp [hs]))
      · refine Or.inr (Or.inr ⟨c₀, ?_⟩)
        rw [setReader_pc, if_neg he]
        exact hs

/-- One turn of the sweep: an expired session is closed and removed. -/
theorem expire (hi : Connections s) (now : ℕ) (key : SessionKey) {sw : SweepPc} :
    Connections { s with cl := s.cl.expireTcp now key, sweep := sw } := by
  unfold Client.expireTcp
  split
  · exact ⟨hi.spawned, hi.stored, hi.listed, hi.accounted⟩
  next c hc =>
  split
  · refine ⟨hi.spawned, fun key' c' h => ?_, fun key' c' h => ?_, fun c' hc' => ?_⟩
    · refine hi.stored key' c' ?_
      by_cases hk : key' = key
      · simp [Client.removeTcp, hk] at h
      · simpa [Client.removeTcp, Client.closeTcp, Function.update_of_ne hk] using h
    · by_cases hk : key' = key
      · simp [Client.removeTcp, hk] at h
      · have hold : s.cl.tcpSessions key' = some c' := by
          simpa [Client.removeTcp, Client.closeTcp, Function.update_of_ne hk] using h
        exact List.mem_filter.mpr ⟨hi.listed key' c' hold, by simpa using hk⟩
    · have hshut : ((((s.cl.closeTcp c).removeTcp key).2).tcpHeap c').shut =
          (decide (c' = c) || (s.cl.tcpHeap c').shut) := s.cl.shut_closeTcp c c'
      rcases hi.accounted c' hc' with hs | hs | hs
      · by_cases hk : (s.readers c').key = key
        · rw [hk, hc, Option.some.injEq] at hs
          exact Or.inr (Or.inl (hshut.trans (by simp [hs])))
        · left
          show Function.update s.cl.tcpSessions key none _ = _
          rw [Function.update_of_ne hk]
          exact hs
      · exact Or.inr (Or.inl (hshut.trans (by simp [hs])))
      · exact Or.inr (Or.inr hs)
  · exact ⟨hi.spawned, hi.stored, hi.listed, hi.accounted⟩

/-- `Stop` closes what is stored. -/
theorem closeAll (hi : Connections s) {pc : StopPc} :
    Connections { s with cl := s.cl.closeAllTcp, stop := pc } := by
  refine ⟨hi.spawned, hi.stored, hi.listed, fun c hc => ?_⟩
  exact (hi.accounted c hc).imp_right (Or.imp_left s.cl.shut_closeAllTcp)

/-- The step lemma. -/
theorem act {e : Event} {obs : List Obs} (hi : Connections s) (ha : Act s e s' obs) :
    Connections s' := by
  have hsame := SameReaders.refl s.readers
  cases ha with
  | loop hcl _ _ hread =>
      exact hi.frame (by rw [hcl]) (by rw [hcl]) (by rw [hcl]) (fun _ => by rw [hcl]) hread
  | arrive _ _ _ hcl _ _ hread =>
      exact hi.frame (by rw [hcl]) (by rw [hcl]) (by rw [hcl]) (fun _ => by rw [hcl]) hread
  | @createNew h now random b b' _ hnone =>
      refine hi.frame ?_ ?_ ?_ (fun c => ?_) hsame <;>
        simp only [Client.createUdpSession, hnone]
  | tcpCreateNew _ _ hnone => exact hi.create hnone
  | tcpTouch _ _ => exact hi.frame rfl rfl rfl (fun _ => s.cl.shut_touchTcp _ _ _) hsame
  | responseTouchTcp _ _ =>
      obtain ⟨-, hnext, hkeys, htcp⟩ := s.cl.touchStored_tables _ _
      exact hi.frame hnext hkeys htcp (fun _ => s.cl.shut_touchStored _ _ _) hsame
  | remove hpc _ => exact hi.remove hpc
  | close hpc => exact hi.close hpc
  | @expireUdp now source todo _ _ =>
      have heq := expireUdp_eq s.cl now source
      exact hi.frame (by rw [heq]) (by rw [heq]) (by rw [heq]) (fun _ => by rw [heq]) hsame
  | expireTcp _ _ => exact hi.expire _ _
  | closeAll _ _ => exact hi.closeAll
  | _ => exact hi.frame rfl rfl rfl (fun _ => rfl) hsame

/-- The session of a connection is cancelled and closed. -/
theorem of_shut {x : TCPSession} (h : x.shut = true) : x.cancelled = true ∧ x.connClosed = true := by
  simpa [TCPSession.shut] using h

/-- What is left when the goroutines of the connections have ended. -/
theorem all_closed (hi : Connections s) (hdone : ∀ c < s.cl.nextConn, (s.readers c).pc = .done) :
    (∀ key, s.cl.tcpSessions key = none) ∧
      ∀ c < s.cl.nextConn,
        (s.cl.tcpHeap c).cancelled = true ∧ (s.cl.tcpHeap c).connClosed = true := by
  refine ⟨fun key => ?_, fun c hc => ?_⟩
  · cases hs : s.cl.tcpSessions key with
    | none => rfl
    | some c =>
        obtain ⟨hlt, -, hpast⟩ := hi.stored key c hs
        rw [hdone c hlt] at hpast
        exact absurd hpast (by simp [ReaderPc.past])
  · rcases hi.accounted c hc with hs | hs | ⟨c₀, hs⟩
    · obtain ⟨-, -, hpast⟩ := hi.stored _ c hs
      rw [hdone c hc] at hpast
      exact absurd hpast (by simp [ReaderPc.past])
    · exact of_shut hs
    · by_cases hlt : c₀ < s.cl.nextConn
      · rw [hdone c₀ hlt] at hs
        exact absurd hs (by simp)
      · rw [(hi.spawned c₀).mpr (Nat.le_of_not_lt hlt)] at hs
        exact absurd hs (by simp)

end Connections

/-- The run lemma. -/
theorem connections_exec {cfg : ClientConfig} {counter : UInt64} {es : List Event} {s : State}
    {tr : List Obs} (hrun : (machine cfg counter).exec es = some (s, tr)) : Connections s :=
  Machine.invariant (I := fun s _ => Connections s) _
    ⟨fun _ => iff_of_true rfl (Nat.zero_le _), fun _ _ h => absurd h (by simp [machine, new]),
      fun _ _ h => absurd h (by simp [machine, new]),
      fun _ h => absurd h (Nat.not_lt_zero _)⟩
    (fun _ _ _ _ _ hi hs => hi.act (act_of_machine hs)) hrun

/-- **No connection leaks.**  In every state that the Go client can reach, each connection it ever
opened is stored under its own key, with its goroutine still to do its clean-up, or has been
cancelled and closed, or has been taken out by a goroutine whose next step is to close it.  When the
goroutines of the connections have ended, nothing is stored and every connection is cancelled and
closed. -/
theorem no_connection_leaks (cfg : ClientConfig) (counter : UInt64) (es : List Event) {s : State}
    {tr : List Obs} (hrun : (machine cfg counter).exec es = some (s, tr)) :
    (∀ c < s.cl.nextConn,
      (s.cl.tcpSessions (s.readers c).key = some c ∧ (s.readers c).pc.past = false) ∨
      ((s.cl.tcpHeap c).cancelled = true ∧ (s.cl.tcpHeap c).connClosed = true) ∨
      ∃ c₀, (s.readers c₀).pc = .closing (some c)) ∧
    ((∀ c < s.cl.nextConn, (s.readers c).pc = .done) →
      (∀ key, s.cl.tcpSessions key = none) ∧
      ∀ c < s.cl.nextConn,
        (s.cl.tcpHeap c).cancelled = true ∧ (s.cl.tcpHeap c).connClosed = true) := by
  have hi := connections_exec hrun
  refine ⟨fun c hc => ?_, hi.all_closed⟩
  rcases hi.accounted c hc with hs | hs | hs
  · exact Or.inl ⟨hs, (hi.stored _ c hs).2.2⟩
  · exact Or.inr (Or.inl (Connections.of_shut hs))
  · exact Or.inr (Or.inr hs)

/-- The session of a connection expires, the source sends again, and the goroutine of the first
connection then deletes and closes the session of the second. -/
def lateCleanup : List Event :=
  sendDatagram demoAddr 10 11 ++ ([.tick 75, .sweepSource demoAddr, .sweepOn, .sweepOn,
    .sweepKey (demoAddr, "127.0.0.1:2"), .sweepOn] : List Event) ++ sendDatagram demoAddr 80 11 ++
    ([.readerSelect 0, .cleanup 0, .cleanup 0, .readerSelect 1, .cleanup 1,
      .cleanup 1] : List Event)

/-- Both connections end up closed, and nothing is stored. -/
theorem no_connection_leaks_late_cleanup :
    ∃ s tr, (machine demoConfig 0).exec lateCleanup = some (s, tr) ∧ s.cl.nextConn = 2 ∧
      (∀ key, s.cl.tcpSessions key = none) ∧ ∀ c < s.cl.nextConn,
        (s.cl.tcpHeap c).cancelled = true ∧ (s.cl.tcpHeap c).connClosed = true := by
  have hview : ((machine demoConfig 0).exec lateCleanup).map
      (fun r => (r.1.cl.nextConn, (r.1.readers 0).pc, (r.1.readers 1).pc)) =
        some (2, .done, .done) := by decide
  obtain ⟨⟨s, tr⟩, hrun, hv⟩ := Option.map_eq_some_iff.mp hview
  simp only [Prod.mk.injEq] at hv
  obtain ⟨hnext, h0, h1⟩ := hv
  refine ⟨s, tr, hrun, hnext, (no_connection_leaks demoConfig 0 lateCleanup hrun).2 fun c hc => ?_⟩
  rw [hnext] at hc
  match c, hc with
  | 0, _ => exact h0
  | 1, _ => exact h1

end Fproxy.GoClient
