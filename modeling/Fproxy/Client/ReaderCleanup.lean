import Fproxy.Client.Machine

/-!
# What the end of a reader tears down

A TCP session leaves `tcp_sessions` when it expires, but its reader may be inside a frame and go on
for a while.  When the reader then breaks off, `cleanup_tcp_session` removes whatever session is
stored under its key by now.

* `TearsDownOwn` — a clean-up removes and cancels no session but the one of its own connection.
* `Keyed` — the invariant: the sessions in the table are exactly those that were not cancelled.
* `tears_down_own_iff` — every clean-up of a run tears down its own connection only, if and only if
  no clean-up is run by the reader of a cancelled session whose key is in use again.
* `late_reader_kills_successor` — a reader that ends after its session was replaced.
-/

namespace Fproxy.Client

open Fproxy.Runs

/-- No session but that of this connection was removed or cancelled. -/
structure TearsDownOwn (s s' : Client) (c : ConnId) : Prop where
  removed : ∀ key c', s.tcpSessions key = some c' → c' ≠ c → s'.tcpSessions key = some c'
  cancelled : ∀ c', c' ≠ c → (s'.tcpHeap c').cancelled = (s.tcpHeap c').cancelled

/-- Every `cleanup_tcp_session` call that a reader makes along the run tears down the reader's own
connection only. -/
def ReadersTearDownOwn (cfg : ClientConfig) (counter : UInt64) (es : List Event) : Prop :=
  ∀ pre c s tr s' obs, pre ++ [.cleanup c] <+: es →
    (machine cfg counter).exec pre = some (s, tr) →
    (machine cfg counter).step s (.cleanup c) = some (s', obs) → TearsDownOwn s.cl s'.cl c

/-- The reader that calls `cleanup_tcp_session` belongs to a session that was not cancelled, or to
one whose key is free. -/
def KeyNotReused (s : State) : Event → Prop
  | .cleanup c => (s.cl.tcpHeap c).cancelled = false ∨
      s.cl.tcpSessions (s.cl.readers c).key = none
  | _ => True

/-- The table of the TCP sessions, the keys of their readers, and the cancellations agree. -/
structure Keyed (s : Client) : Prop where
  keys : ∀ key c, s.tcpSessions key = some c → key ∈ s.keys
  stored : ∀ key c, s.tcpSessions key = some c →
    c < s.nextConn ∧ (s.readers c).key = key ∧ (s.tcpHeap c).cancelled = false
  listed : ∀ c, c < s.nextConn → (s.tcpHeap c).cancelled = false →
    s.tcpSessions (s.readers c).key = some c
  started : ∀ c, (s.readers c).pc ≠ .idle → c < s.nextConn

namespace Keyed

variable {s s' : Client}

/-- Frame rule: a move of the readers, or of the activity timestamps. -/
theorem frame (hi : Keyed s) (hkeys : s'.keys = s.keys) (htcp : s'.tcpSessions = s.tcpSessions)
    (hnext : s'.nextConn = s.nextConn) (hkey : ∀ c, (s'.readers c).key = (s.readers c).key)
    (hcancel : ∀ c, (s'.tcpHeap c).cancelled = (s.tcpHeap c).cancelled)
    (hpc : ∀ c, (s'.readers c).pc ≠ .idle → (s.readers c).pc ≠ .idle) : Keyed s' := by
  refine ⟨fun key c h => ?_, fun key c h => ?_, fun c hlt hc => ?_, fun c hc => ?_⟩
  · rw [htcp] at h
    exact hkeys ▸ hi.keys key c h
  · rw [htcp] at h
    rw [hnext, hkey, hcancel]
    exact hi.stored key c h
  · rw [hnext] at hlt
    rw [hcancel] at hc
    rw [htcp, hkey]
    exact hi.listed c hlt hc
  · rw [hnext]
    exact hi.started c (hpc c hc)

/-- A reader moves on. -/
theorem setReader (hi : Keyed s) {c : ConnId} {pc : ReaderPc} (hc : (s.readers c).pc ≠ .idle) :
    Keyed (s.setReader c pc) := by
  refine hi.frame rfl rfl rfl (fun c' => ?_) (fun _ => rfl) (fun c' hc' => ?_) <;>
    by_cases h : c' = c
  · simp [Client.setReader, h]
  · simp [Client.setReader, h]
  · rw [h]
    exact hc
  · simpa [Client.setReader, Function.update_of_ne h] using hc'

/-- A new connection. -/
theorem create (hi : Keyed s) {source : SocketAddr} {server : String} {now : ℕ}
    (hnone : s.tcpSessions (source, server) = none) :
    Keyed (s.createTcpSession source server now true).1 := by
  simp only [createTcpSession, hnone, if_true]
  have hne : ∀ {c}, c < s.nextConn → c ≠ s.nextConn := fun h => Nat.ne_of_lt h
  refine ⟨fun key c h => ?_, fun key c h => ?_, fun c hlt hc => ?_, fun c hc => ?_⟩
  · by_cases hkey : key = (source, server)
    · rw [hkey]
      exact List.mem_append_right _ (List.mem_singleton.mpr rfl)
    · simp only [Function.update_of_ne hkey] at h
      exact List.mem_append_left _ (hi.keys key c h)
  · by_cases hkey : key = (source, server)
    · simp only [hkey, Function.update_self, Option.some.injEq] at h
      simp [← h, hkey]
    · simp only [Function.update_of_ne hkey] at h
      obtain ⟨hlt, hk, hcan⟩ := hi.stored key c h
      simp only [Function.update_of_ne (hne hlt)]
      exact ⟨Nat.lt_succ_of_lt hlt, hk, hcan⟩
  · by_cases hc' : c = s.nextConn
    · simp [hc']
    · simp only [Function.update_of_ne hc'] at hc ⊢
      have hold := hi.listed c (Nat.lt_of_le_of_ne (Nat.le_of_lt_succ hlt) hc') hc
      have hkey : (s.readers c).key ≠ (source, server) := fun he =>
        absurd (hnone.symm.trans (he ▸ hold)) (by simp)
      rw [Function.update_of_ne hkey]
      exact hold
  · by_cases hc' : c = s.nextConn
    · rw [hc']
      exact Nat.lt_succ_self _
    · simp only [Function.update_of_ne hc'] at hc
      exact Nat.lt_succ_of_lt (hi.started c hc)

/-- A clean-up removes and cancels the session under a key. -/
theorem cleanup (hi : Keyed s) (key : SessionKey) : Keyed (s.cleanupTcpSession key) := by
  unfold cleanupTcpSession
  cases hs : s.tcpSessions key with
  | none => exact hi
  | some c₀ =>
      have hother : ∀ {c}, c ≠ c₀ → Function.update s.tcpHeap c₀
          { s.tcpHeap c₀ with cancelled := true } c = s.tcpHeap c :=
        fun h => Function.update_of_ne h _ _
      refine ⟨fun key' c h => ?_, fun key' c h => ?_, fun c hlt hc => ?_, hi.started⟩
      · by_cases hkey : key' = key
        · simp [hkey] at h
        · simp only [Function.update_of_ne hkey] at h
          exact List.mem_filter.mpr ⟨hi.keys key' c h, by simpa using hkey⟩
      · by_cases hkey : key' = key
        · simp [hkey] at h
        · simp only [Function.update_of_ne hkey] at h
          obtain ⟨hlt, hk, hcan⟩ := hi.stored key' c h
          -- one connection is stored under one key
          have hc : c ≠ c₀ := fun he => hkey (hk.symm.trans (he ▸ (hi.stored key c₀ hs).2.1))
          refine ⟨hlt, hk, ?_⟩
          simp only [cancelTcp, hother hc]
          exact hcan
      · have hc' : c ≠ c₀ := by
          rintro rfl
          simp [cancelTcp] at hc
        simp only [cancelTcp, hother hc'] at hc
        have hold := hi.listed c hlt hc
        have hkey : (s.readers c).key ≠ key := by
          intro he
          rw [he, hs] at hold
          exact hc' (Option.some.inj hold).symm
        simp only [cancelTcp, Function.update_of_ne hkey]
        exact hold

/-- The sweep removes and cancels the expired sessions. -/
theorem sweep (hi : Keyed s) (now : ℕ) : Keyed (s.cleanupExpiredTcp now) := by
  simp only [cleanupExpiredTcp]
  have hkept : ∀ {key c}, (if key ∈ s.keys.filter (s.expiredTcp now) then none
      else s.tcpSessions key) = some c →
        key ∉ s.keys.filter (s.expiredTcp now) ∧ s.tcpSessions key = some c := by
    intro key c h
    split at h
    · exact absurd h (by simp)
    · next hkey => exact ⟨hkey, h⟩
  have hmem : ∀ {c}, some c ∈ (s.keys.filter (s.expiredTcp now)).map s.tcpSessions ↔
      ∃ key ∈ s.keys.filter (s.expiredTcp now), s.tcpSessions key = some c := List.mem_map
  refine ⟨fun key c h => ?_, fun key c h => ?_, fun c hlt hc => ?_, hi.started⟩
  · obtain ⟨hkey, hold⟩ := hkept h
    exact List.mem_filter.mpr ⟨hi.keys key c hold, decide_eq_true hkey⟩
  · obtain ⟨hkey, hold⟩ := hkept h
    obtain ⟨hlt, hk, hcan⟩ := hi.stored key c hold
    refine ⟨hlt, hk, ?_⟩
    dsimp only
    rw [if_neg]
    · exact hcan
    · rw [hmem]
      rintro ⟨key', hkey', hs⟩
      rw [(hi.stored key' c hs).2.1.symm.trans hk] at hkey'
      exact hkey hkey'
  · dsimp only at hc ⊢
    split at hc
    · exact absurd hc (by simp)
    · next hnot =>
        have hold := hi.listed c hlt hc
        rw [hmem] at hnot
        rw [if_neg fun hkey => hnot ⟨_, hkey, hold⟩]
        exact hold

/-- The step lemma. -/
theorem act {s s' : State} {e : Event} {obs : List Obs} (hi : Keyed s.cl)
    (ha : Act s e s' obs) : Keyed s'.cl := by
  cases ha with
  | @createNew h now random _ _ _ _ hnone =>
      refine hi.frame ?_ ?_ ?_ (fun c => ?_) (fun c => ?_) (fun c => ?_) <;>
        simp [createUdpSession, hnone]
  | tcpCreateNew _ _ hnone => exact hi.create hnone
  | @tcpTouch h o seq c servers now random b b' _ _ =>
      refine hi.frame rfl rfl rfl (fun _ => rfl) (fun c' => ?_) (fun _ h => h)
      by_cases h : c' = c <;> simp [touchTcp, h]
  | frameBegins hpc _ => exact hi.setReader (by simp [hpc])
  | frameUndecodable hpc => exact hi.setReader (by simp [hpc])
  | frameEnds hpc _ _ => exact hi.setReader (by simp [hpc])
  | readerFails hpc _ => exact hi.setReader (by rcases hpc with hpc | hpc <;> simp [hpc])
  | readerCancelled hpc _ _ => exact hi.setReader (by simp [hpc])
  | @cleanup c hpc => exact (hi.cleanup _).setReader (by simp [hpc])
  | sweepTcp _ => exact hi.sweep _
  | _ =>
      exact hi.frame rfl rfl rfl (fun _ => rfl) (fun _ => rfl) (fun _ h => h)

end Keyed

/-- The run lemma. -/
theorem keyed_exec {cfg : ClientConfig} {counter : UInt64} {es : List Event} {s : State}
    {tr : List Obs} (hrun : (machine cfg counter).exec es = some (s, tr)) : Keyed s.cl :=
  Machine.invariant (I := fun s _ => Keyed s.cl) _
    ⟨fun _ _ h => absurd h (by simp [machine, new]), fun _ _ h => absurd h (by simp [machine, new]),
      fun _ h => absurd h (Nat.not_lt_zero _), fun _ h => absurd rfl h⟩
    (fun _ _ _ _ _ hi hs => hi.act (act_of_machine hs)) hrun

/-- The clean-up of a connection takes its own session down only, exactly if that session was not
cancelled or its key is free. -/
theorem Keyed.tearsDownOwn_iff {s : Client} (hi : Keyed s) {c : ConnId}
    (hpc : (s.readers c).pc = .ended) :
    TearsDownOwn s ((s.cleanupTcpSession (s.readers c).key).setReader c .done) c ↔
      (s.tcpHeap c).cancelled = false ∨ s.tcpSessions (s.readers c).key = none := by
  have hlt : c < s.nextConn := hi.started c (by simp [hpc])
  constructor
  · intro h
    by_contra hnot
    obtain ⟨hcan, hused⟩ := not_or.mp hnot
    obtain ⟨c', hc'⟩ := Option.ne_none_iff_exists'.mp hused
    -- the session under the key is not the cancelled one
    have hne : c' ≠ c := fun he => hcan (he ▸ (hi.stored _ c' hc').2.2)
    have hgone := h.removed _ c' hc' hne
    simp [Client.setReader, cleanupTcpSession, hc'] at hgone
  · intro h
    have hown : ∀ c', s.tcpSessions (s.readers c).key = some c' → c' = c := by
      intro c' hc'
      rcases h with hlive | hfree
      · exact Option.some.inj (hc'.symm.trans (hi.listed c hlt hlive))
      · exact absurd (hfree.symm.trans hc') (by simp)
    unfold cleanupTcpSession
    cases hs : s.tcpSessions (s.readers c).key with
    | none => exact ⟨fun _ _ h _ => h, fun _ _ => rfl⟩
    | some c₀ =>
        obtain rfl := hown c₀ hs
        refine ⟨fun key c' hc' hne => ?_, fun c' hne => ?_⟩
        · have hkey : key ≠ (s.readers c₀).key := by
            rintro rfl
            exact hne (hown c' hc')
          simpa [Client.setReader, cancelTcp, Function.update_of_ne hkey] using hc'
        · simp [Client.setReader, cancelTcp, Function.update_of_ne hne]

/-- A `cleanup_tcp_session` call is made by a reader that has broken off. -/
theorem cleanup_step {cfg : ClientConfig} {counter : UInt64} {c : ConnId} {s s' : State}
    {obs : List Obs} (h : (machine cfg counter).step s (.cleanup c) = some (s', obs)) :
    (s.cl.readers c).pc = .ended ∧
      s'.cl = (s.cl.cleanupTcpSession (s.cl.readers c).key).setReader c .done := by
  cases act_of_machine h with
  | cleanup hpc => exact ⟨hpc, rfl⟩

/-- **Exactly when readers tear down their own connections only.**  In a run, with any number of
connections for a key one after the other, every `cleanup_tcp_session` call of a reader removes and
cancels no session but the one of its own connection, if and only if no such call is made by the
reader of a cancelled session while another session is stored under its key. -/
theorem tears_down_own_iff (cfg : ClientConfig) (counter : UInt64) (es : List Event) {s : State}
    {tr : List Obs} (hrun : (machine cfg counter).exec es = some (s, tr)) :
    ReadersTearDownOwn cfg counter es ↔
      (machine cfg counter).Each (fun s _ e => KeyNotReused s e) es := by
  constructor
  · intro hown pre e hpre s₀ tr₀ h₀
    cases e with
    | cleanup c =>
        obtain ⟨s₁, obs, hs, -⟩ := Machine.step_of_isPrefix hpre hrun h₀
        obtain ⟨hpc, hcl⟩ := cleanup_step hs
        have hdown := hown pre c s₀ tr₀ s₁ obs hpre h₀ hs
        rw [hcl] at hdown
        exact ((keyed_exec h₀).tearsDownOwn_iff hpc).mp hdown
    | _ => trivial
  · intro hfree pre c s₀ tr₀ s' obs hpre h₀ hs
    obtain ⟨hpc, hcl⟩ := cleanup_step hs
    rw [hcl]
    exact ((keyed_exec h₀).tearsDownOwn_iff hpc).mpr (hfree pre _ hpre s₀ tr₀ h₀)

/-- A check of `KeyNotReused`. -/
def keyNotReused (s : State) : Event → Bool
  | .cleanup c => !(s.cl.tcpHeap c).cancelled || (s.cl.tcpSessions (s.cl.readers c).key).isNone
  | _ => true

theorem keyNotReused_of_check {s : State} {e : Event} (h : keyNotReused s e = true) :
    KeyNotReused s e := by
  cases e with
  | cleanup c => simpa [keyNotReused, KeyNotReused] using h
  | _ => trivial

/-- A connection is opened for a datagram, and its server closes it. -/
def promptEnd : List Event :=
  sendDatagram demoAddr 10 11 ++ [Event.readerFails 0, Event.cleanup 0]

/-- A reader that ends while its session is stored takes that session down. -/
theorem tears_down_own_prompt_end :
    (∃ s tr, (machine demoConfig 0).exec promptEnd = some (s, tr) ∧
      s.cl.tcpSessions (demoAddr, "127.0.0.1:2") = none) ∧
    ReadersTearDownOwn demoConfig 0 promptEnd := by
  have hview : ((machine demoConfig 0).exec promptEnd).map
      (fun r => r.1.cl.tcpSessions (demoAddr, "127.0.0.1:2")) = some none := by decide
  obtain ⟨⟨s, tr⟩, hrun, hv⟩ := Option.map_eq_some_iff.mp hview
  exact ⟨⟨s, tr, hrun, hv⟩, (tears_down_own_iff demoConfig 0 promptEnd hrun).mpr
    (Machine.each_of_check (fun _ _ _ => keyNotReused_of_check) (by decide))⟩

/-- The reader of connection 0 is inside a frame when its session expires.  The source sends again
and gets connection 1.  Then the end of stream reaches the reader. -/
def lateEnd : List Event :=
  sendDatagram demoAddr 10 11 ++ [Event.frameBegins 0, Event.sweepUdp 75, Event.sweepTcp] ++
    sendDatagram demoAddr 76 11 ++ [Event.readerFails 0]

/-- Connection 1 is removed and cancelled. -/
theorem late_reader_kills_successor :
    ¬ ReadersTearDownOwn demoConfig 0 (lateEnd ++ [.cleanup 0]) := by
  intro hown
  have hview : ((machine demoConfig 0).exec lateEnd).map
      (fun r => (r.1.cl.tcpSessions (demoAddr, "127.0.0.1:2"),
        (step r.1 (.cleanup 0)).map fun q =>
          q.1.cl.tcpSessions (demoAddr, "127.0.0.1:2"))) = some (some 1, some none) := by decide
  obtain ⟨⟨s, tr⟩, hrun, hv⟩ := Option.map_eq_some_iff.mp hview
  obtain ⟨hstored, hstep⟩ := Prod.mk.inj hv
  obtain ⟨⟨s', obs⟩, hstep, hgone⟩ := Option.map_eq_some_iff.mp hstep
  have hdown := hown lateEnd 0 s tr s' obs (List.prefix_refl _) hrun hstep
  have hkept := hdown.removed _ 1 hstored (by decide)
  exact absurd (hgone.symm.trans hkept) (by simp)

end Fproxy.Client
