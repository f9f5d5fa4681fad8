import Fproxy.Client.Accounting
import Fproxy.Client.Sending
import Fproxy.Client.SessionIds

/-!
# The two maps of the UDP sessions

`udp_sessions` takes a source to its session and `udp_session_addrs` a session id to its source.
As long as no id is given out twice, the second is the inverse of the first, so that over UDP a
response finds exactly the live session with its id.

* `Mapped` — the two maps agree; `Mapped.create`, `Mapped.sweep` — what changes them keeps that.
* `session_tables_inverse` — along every run that assigns fewer than `2^64` ids, no id is zero or
  assigned twice, and the maps are inverse to each other.
-/

namespace Fproxy.Client

open Fproxy.Config Fproxy.Protocol Fproxy.DedupWindow Fproxy.Runs

/-- The tables of the UDP sessions are the same, and the sessions in them have the same ids. -/
structure SameTables (s s' : Client) : Prop where
  sources : s'.sources = s.sources
  udpSessions : s'.udpSessions = s.udpSessions
  udpSessionAddrs : s'.udpSessionAddrs = s.udpSessionAddrs
  sessionId : ∀ o, (s'.heap o).sessionId = (s.heap o).sessionId

namespace SameTables

variable {s s' s'' : Client}

theorem refl (s : Client) : SameTables s s := ⟨rfl, rfl, rfl, fun _ => rfl⟩

theorem trans (h : SameTables s s') (h' : SameTables s' s'') : SameTables s s'' where
  sources := h'.sources.trans h.sources
  udpSessions := h'.udpSessions.trans h.udpSessions
  udpSessionAddrs := h'.udpSessionAddrs.trans h.udpSessionAddrs
  sessionId := fun o => (h'.sessionId o).trans (h.sessionId o)

theorem live_iff (h : SameTables s s') {sid : UInt64} {source : SocketAddr} {o : SessionObj} :
    Live s' sid source o ↔ Live s sid source o := by
  rw [Live, Live, h.udpSessions, h.sessionId]

end SameTables

theorem setReader_sameTables (s : Client) (c : ConnId) (pc : ReaderPc) :
    SameTables s (s.setReader c pc) := ⟨rfl, rfl, rfl, fun _ => rfl⟩

theorem cleanupTcpSession_sameTables (s : Client) (key : SessionKey) :
    SameTables s (s.cleanupTcpSession key) := by
  unfold cleanupTcpSession
  split
  · exact SameTables.refl s
  · exact ⟨rfl, rfl, rfl, fun _ => rfl⟩

/-- The reverse map leads from the id of every live session to its source, and from no other
id. -/
structure Mapped (s : Client) : Prop where
  listed : ∀ source o, s.udpSessions source = some o → source ∈ s.sources
  agree : ∀ sid source, s.udpSessionAddrs sid = some source ↔ ∃ o, Live s sid source o

/-- The live sessions after a creation: the new one, and those that were there. -/
theorem Live.of_create {s : Client} {source : SocketAddr} {random : UInt32} {now : ℕ}
    (hnone : s.udpSessions source = none)
    (halloc : ∀ a o, s.udpSessions a = some o → o ≠ s.next) {sid : UInt64} {a : SocketAddr}
    {o : SessionObj} (h : Live (s.createUdpSession source random now).1 sid a o) :
    (a = source ∧ o = s.next ∧ sid = allocateSessionId s.sessionIdCounter) ∨ Live s sid a o := by
  simp only [Live, createUdpSession, hnone] at h
  obtain ⟨ho, hid⟩ := h
  by_cases ha : a = source
  · rw [ha, Function.update_self] at ho
    obtain rfl := Option.some.inj ho
    rw [Function.update_self] at hid
    exact Or.inl ⟨ha, rfl, hid.symm⟩
  · rw [Function.update_of_ne ha] at ho
    rw [Function.update_of_ne (halloc a o ho)] at hid
    exact Or.inr ⟨ho, hid⟩

namespace Mapped

variable {s s' : Client}

theorem same (hi : Mapped s) (h : SameTables s s') : Mapped s' where
  listed := by
    rw [h.udpSessions, h.sources]
    exact hi.listed
  agree := fun sid source => by
    rw [h.udpSessionAddrs, hi.agree]
    exact exists_congr fun o => h.live_iff.symm

/-- A new session, with an id that no live session has. -/
theorem create (hi : Mapped s) {source : SocketAddr} {random : UInt32} {now : ℕ}
    (hnone : s.udpSessions source = none)
    (halloc : ∀ a o, s.udpSessions a = some o → o ≠ s.next)
    (hfresh : ∀ a o, ¬ Live s (allocateSessionId s.sessionIdCounter) a o) :
    Mapped (s.createUdpSession source random now).1 := by
  simp only [createUdpSession, hnone]
  refine ⟨fun a o h => ?_, fun sid a => ?_⟩
  · by_cases he : a = source
    · rw [he]
      exact List.mem_append_right _ (List.mem_singleton.mpr rfl)
    · simp only [Function.update_of_ne he] at h
      exact List.mem_append_left _ (hi.listed a o h)
  -- the entries of the other sources stand as they stood
  have hother : ∀ {a : SocketAddr}, a ≠ source → ∀ sid, (∃ o, Live s sid a o) ↔
      ∃ o, Function.update s.udpSessions source (some s.next) a = some o ∧
        (Function.update s.heap s.next (.new (allocateSessionId s.sessionIdCounter)
          (initialSeq random) now) o).sessionId = sid := by
    intro a ha sid
    refine exists_congr fun o => ?_
    rw [Live, Function.update_of_ne ha]
    refine and_congr_right fun h => ?_
    rw [Function.update_of_ne (halloc a o h)]
  by_cases hsid : sid = allocateSessionId s.sessionIdCounter
  · rw [hsid]
    simp only [Live, Function.update_self, Option.some.injEq]
    constructor
    · rintro rfl
      exact ⟨s.next, by simp [UdpSession.new]⟩
    · rintro ⟨o, h⟩
      by_contra hne
      obtain ⟨o', ho'⟩ := (hother (fun he => hne he.symm) _).mpr ⟨o, h⟩
      exact hfresh a o' ho'
  · simp only [Live, Function.update_of_ne hsid]
    by_cases ha : a = source
    · subst ha
      have hold : s.udpSessionAddrs sid ≠ some a := by
        intro h
        obtain ⟨o, ho, _⟩ := (hi.agree sid a).mp h
        exact absurd (hnone.symm.trans ho) (by simp)
      refine ⟨fun h => absurd h hold, ?_⟩
      rintro ⟨o, ho, hid⟩
      rw [Function.update_self] at ho
      rw [← Option.some.inj ho, Function.update_self] at hid
      exact absurd hid.symm hsid
    · rw [hi.agree]
      exact hother ha sid

/-- The expiry sweep. -/
theorem sweep (hi : Mapped s) (now : ℕ) : Mapped (s.cleanupExpiredUdp now) := by
  have hexpired : ∀ {a : SocketAddr} {o : SessionObj}, s.udpSessions a = some o →
      (a ∈ s.sources.filter (s.expired now) ↔ s.expired now a = true) :=
    fun h => by simp [hi.listed _ _ h]
  have hids : ∀ {sid : UInt64} {a : SocketAddr} {o : SessionObj}, Live s sid a o →
      (sid ∈ (s.sources.filter (s.expired now)).filterMap s.sessionIdOf ↔
        a ∈ s.sources.filter (s.expired now)) := by
    intro sid a o ho
    rw [List.mem_filterMap]
    constructor
    · rintro ⟨a', ha', hid⟩
      obtain ⟨o', ho', he⟩ := Option.map_eq_some_iff.mp hid
      -- one id leads to one source
      have h₁ := (hi.agree sid a).mpr ⟨o, ho⟩
      have h₂ := (hi.agree sid a').mpr ⟨o', ho', he⟩
      rw [h₁, Option.some.injEq] at h₂
      rw [h₂]
      exact ha'
    · intro ha
      exact ⟨a, ha, by simp [sessionIdOf, ho.1, ho.2]⟩
  refine ⟨fun a o h => ?_, fun sid a => ?_⟩
  · have hold := udpSessions_of_cleanupExpiredUdp h
    refine List.mem_filter.mpr ⟨hi.listed a o hold, ?_⟩
    simp only [cleanupExpiredUdp] at h
    split at h
    · exact absurd h (by simp)
    · next hnot =>
        rw [hexpired hold] at hnot
        simp [hnot]
  · simp only [cleanupExpiredUdp, Live]
    constructor
    · intro h
      split at h
      · exact absurd h (by simp)
      · next hnot =>
          obtain ⟨o, ho⟩ := (hi.agree sid a).mp h
          rw [hids ho] at hnot
          exact ⟨o, by rw [if_neg hnot]; exact ho.1, ho.2⟩
    · rintro ⟨o, h, hid⟩
      split at h
      · exact absurd h (by simp)
      · next hnot =>
          have ho : Live s sid a o := ⟨h, hid⟩
          rw [← hids ho] at hnot
          rw [if_neg hnot]
          exact (hi.agree sid a).mpr ⟨o, ho⟩

/-- One source at most has the session with an id. -/
theorem source_unique (hi : Mapped s) {sid : UInt64} {a a' : SocketAddr} {o o' : SessionObj}
    (h : Live s sid a o) (h' : Live s sid a' o') : a = a' :=
  Option.some.inj (((hi.agree sid a).mpr ⟨o, h⟩).symm.trans ((hi.agree sid a').mpr ⟨o', h'⟩))

end Mapped

theorem Live.of_sweep {s : Client} {now : ℕ} {sid : UInt64} {source : SocketAddr}
    {o : SessionObj} (h : Live (s.cleanupExpiredUdp now) sid source o) : Live s sid source o :=
  ⟨udpSessions_of_cleanupExpiredUdp h.1, h.2⟩

/-! ### Along a run -/

/-- The step lemma. -/
theorem Mapped.act {s s' : State} {tr obs : List Obs} {e : Event} (hi : Mapped s.cl)
    (hobj : Objects s tr) (ha : Act s e s' obs) (hnodup : (createdIds (tr ++ obs)).Nodup) :
    Mapped s'.cl := by
  cases ha with
  | @createNew h now random b b' _ _ hnone =>
      refine hi.create hnone (fun a o ho => Nat.ne_of_lt (hobj.sessions a o ho).1)
        fun a o hl => ?_
      -- the id of a live session was assigned before
      have hold := (hobj.sessions a o hl.1).2
      rw [hl.2] at hold
      rw [createdIds_append, List.nodup_append] at hnodup
      exact hnodup.2.2 _ (mem_createdIds hold) _ (by simp [createdIds]) rfl
  | number _ _ => exact hi.same ⟨rfl, rfl, rfl, fun _ => takeSeq_sessionId _ _ _⟩
  | touch _ _ => exact hi.same ⟨rfl, rfl, rfl, fun _ => touch_sessionId _ _ _ _⟩
  | tcpCreateNew _ _ hnone =>
      refine hi.same ⟨?_, ?_, ?_, fun _ => ?_⟩ <;> simp [createTcpSession, hnone]
  | checkDup _ _ _ => exact hi.same ⟨rfl, rfl, rfl, fun _ => checkResponse_sessionId _ _ _ _⟩
  | checkNew _ _ _ => exact hi.same ⟨rfl, rfl, rfl, fun _ => checkResponse_sessionId _ _ _ _⟩
  | responseTouch _ _ => exact hi.same ⟨rfl, rfl, rfl, fun _ => touch_sessionId _ _ _ _⟩
  | cleanup _ =>
      exact hi.same ((cleanupTcpSession_sameTables _ _).trans (setReader_sameTables _ _ _))
  | sweepUdp _ => exact hi.sweep _
  | _ => exact hi.same ⟨rfl, rfl, rfl, fun _ => rfl⟩

theorem mapped_exec {cfg : ClientConfig} {counter : UInt64} {es : List Event} {s : State}
    {tr : List Obs} (hrun : (machine cfg counter).exec es = some (s, tr))
    (hlen : (createdIds tr).length < 2 ^ 64) : Mapped s.cl := by
  refine Machine.exec_induction (P := fun _ s tr => (createdIds tr).length < 2 ^ 64 → Mapped s.cl)
    _ (fun _ => ⟨fun _ _ h => absurd h (by simp [machine, new]), fun sid a => ?_⟩)
    (fun es s tr e s' obs hexec ih hs hlen => ?_) es s tr hrun hlen
  · simp [machine, new, Live]
  · have hpre : (createdIds tr).length < 2 ^ 64 := by
      rw [createdIds_append, List.length_append] at hlen
      omega
    have hnext : (machine cfg counter).exec (es ++ [e]) = some (s', tr ++ obs) :=
      (machine cfg counter).exec_snoc.mpr ⟨s, tr, obs, hexec, hs, rfl⟩
    exact (ih hpre).act (objects_exec hexec) (act_of_machine hs) (createdIds_nodup hnext hlen)

/-- **The session tables are inverse to each other, and ids are unique.**  In every run of the
client, from any start of the counter and with any datagrams, sweeps and clock readings, that
assigns at most `2^64 - 1` ids: every id ever assigned is non-zero, none is assigned twice, and the
reverse map takes an id to an address exactly when that address has a session with the id. -/
theorem session_tables_inverse (cfg : ClientConfig) (counter : UInt64) (es : List Event)
    {s : State} {tr : List Obs} (hrun : (machine cfg counter).exec es = some (s, tr))
    (hlen : (createdIds tr).length ≤ 2 ^ 64 - 1) :
    (∀ sid ∈ createdIds tr, sid ≠ 0) ∧ (createdIds tr).Nodup ∧
      ∀ sid source, s.cl.udpSessionAddrs sid = some source ↔
        ∃ o, s.cl.udpSessions source = some o ∧ (s.cl.heap o).sessionId = sid := by
  have hlen : (createdIds tr).length < 2 ^ 64 := by omega
  obtain ⟨draws, hdrawn⟩ := drawn_exec hrun hlen
  refine ⟨fun sid hm hzero => ?_, createdIds_nodup hrun hlen, (mapped_exec hrun hlen).agree⟩
  exact hdrawn.nonzero (hzero ▸ hm)

/-- Two sources, the second of which gets its id after the counter has wrapped around; then the
session of the first expires. -/
def wrapAround : List Event :=
  sendDatagram demoAddr 10 11 ++ sendDatagram { demoAddr with port := 6000 } 20 11 ++
    [Event.sweepUdp 75]

/-- The ids are the highest one and, zero being skipped, one. -/
theorem session_tables_inverse_wrap_around :
    ∃ s tr, (machine demoConfig 18446744073709551614).exec wrapAround = some (s, tr) ∧
      createdIds tr = [18446744073709551615, 1] ∧
      s.cl.udpSessionAddrs 18446744073709551615 = none ∧
      (∀ sid ∈ createdIds tr, sid ≠ 0) ∧ (createdIds tr).Nodup ∧
      ∀ sid source, s.cl.udpSessionAddrs sid = some source ↔
        ∃ o, s.cl.udpSessions source = some o ∧ (s.cl.heap o).sessionId = sid := by
  have hview : ((machine demoConfig 18446744073709551614).exec wrapAround).map
      (fun r => (createdIds r.2, r.1.cl.udpSessionAddrs 18446744073709551615)) =
        some ([18446744073709551615, 1], none) := by decide
  obtain ⟨⟨s, tr⟩, hrun, hv⟩ := Option.map_eq_some_iff.mp hview
  obtain ⟨hids, haddr⟩ := Prod.mk.inj hv
  have hids : createdIds tr = [18446744073709551615, 1] := hids
  have hlen : (createdIds tr).length ≤ 2 ^ 64 - 1 := by simp [hids]
  exact ⟨s, tr, hrun, hids, haddr, session_tables_inverse demoConfig _ wrapAround hrun hlen⟩

end Fproxy.Client
