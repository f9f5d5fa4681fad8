import Fproxy.GoClient.Objects

/-!
# The two maps of the UDP sessions, in the Go client

A response is looked up twice: its id in `udpSessionAddrs`, and then in a loop over `udpSessions`,
in whatever order the map is iterated, for a session with the id.  As long as no id is given out
twice the two lookups agree, also in the middle of a sweep.

* `Mapped` — the maps are inverse to each other; `Mapped.create`, `Mapped.expire` — what changes
  them keeps that.
* `Mapped.findSession_eq` — the loop finds the session of the source the reverse map leads to.
* `tables_and_lookups_agree` — along every run that assigns fewer than `2^64` ids.
-/

namespace Fproxy.GoClient

open Fproxy.Runs
open Fproxy.Client (SessionObj Obs Drawn drawn_start allocateSessionId createdIds
  createdIds_append mem_createdIds)

/-- The object is the stored session of the source, and has this id. -/
def Live (cl : Client) (sid : UInt64) (source : SocketAddr) (o : SessionObj) : Prop :=
  cl.udpSessions source = some o ∧ (cl.heap o).sessionId = sid

/-- The reverse map leads from the id of every stored session to its source, and from no other
id. -/
structure Mapped (cl : Client) : Prop where
  listed : ∀ source o, cl.udpSessions source = some o → source ∈ cl.sources
  agree : ∀ sid source, cl.udpSessionAddrs sid = some source ↔ ∃ o, Live cl sid source o

namespace Mapped

variable {cl cl' : Client}

/-- One source at most has the session with an id. -/
theorem source_unique (hi : Mapped cl) {sid : UInt64} {a a' : SocketAddr} {o o' : SessionObj}
    (h : Live cl sid a o) (h' : Live cl sid a' o') : a = a' :=
  Option.some.inj (((hi.agree sid a).mpr ⟨o, h⟩).symm.trans ((hi.agree sid a').mpr ⟨o', h'⟩))

/-- Sections that leave the tables and the ids alone. -/
theorem same (hi : Mapped cl) (hsources : cl'.sources = cl.sources)
    (hsess : cl'.udpSessions = cl.udpSessions) (haddrs : cl'.udpSessionAddrs = cl.udpSessionAddrs)
    (hid : ∀ o, (cl'.heap o).sessionId = (cl.heap o).sessionId) : Mapped cl' := by
  have hlive : ∀ sid a o, Live cl' sid a o ↔ Live cl sid a o := by
    intro sid a o
    rw [Live, Live, hsess, hid]
  refine ⟨fun a o h => ?_, fun sid a => ?_⟩
  · rw [hsources]
    exact hi.listed a o (hsess ▸ h)
  · rw [haddrs, hi.agree]
    exact exists_congr fun o => (hlive sid a o).symm

/-- A field of one object is written, other than its id. -/
theorem write (hi : Mapped cl) {o : SessionObj} {x : UDPSession}
    (hid : x.sessionId = (cl.heap o).sessionId) :
    Mapped { cl with heap := Function.update cl.heap o x } := by
  refine hi.same rfl rfl rfl fun o' => ?_
  by_cases he : o' = o
  · rw [he]
    simpa using hid
  · simp [Function.update_of_ne he]

theorem sameUdp (hi : Mapped cl) (h : SameUdp cl cl') : Mapped cl' :=
  hi.same h.sources h.udpSessions h.udpSessionAddrs fun o => by rw [h.heap]

/-- A new session, with an id that no stored session has. -/
theorem create (hi : Mapped cl) {source : SocketAddr} {random : UInt32} {now : ℕ}
    (hnone : cl.udpSessions source = none)
    (halloc : ∀ a o, cl.udpSessions a = some o → o ≠ cl.next)
    (hfresh : ∀ a o, ¬ Live cl (allocateSessionId cl.sessionIdCounter) a o) :
    Mapped (cl.createUdpSession source random now).1 := by
  simp only [Client.createUdpSession, hnone]
  -- the sessions of the other sources stand as they stood
  have hother : ∀ {a : SocketAddr}, a ≠ source → ∀ sid o,
      Live { cl with
        heap := Function.update cl.heap cl.next
          (.new (allocateSessionId cl.sessionIdCounter) (Client.initialSeq random) now)
        udpSessions := Function.update cl.udpSessions source (some cl.next) } sid a o ↔
      Live cl sid a o := by
    intro a ha sid o
    simp only [Live, Function.update_of_ne ha]
    refine and_congr_right fun h => ?_
    rw [Function.update_of_ne (halloc a o h)]
  refine ⟨fun a o h => ?_, fun sid a => ?_⟩
  · by_cases ha : a = source
    · rw [ha]
      exact List.mem_append_right _ (List.mem_singleton_self _)
    · simp only [Function.update_of_ne ha] at h
      exact List.mem_append_left _ (hi.listed a o h)
  by_cases hsid : sid = allocateSessionId cl.sessionIdCounter
  · rw [hsid]
    simp only [Function.update_self, Option.some.injEq]
    constructor
    · intro ha
      exact ⟨cl.next, by simp [Live, ha, UDPSession.new]⟩
    · rintro ⟨o, h⟩
      by_contra hne
      exact hfresh a o ((hother (fun he => hne he.symm) _ o).mp h)
  · simp only [Function.update_of_ne hsid]
    by_cases ha : a = source
    · subst ha
      constructor
      · intro h
        obtain ⟨o, ho, -⟩ := (hi.agree sid a).mp h
        exact absurd (hnone.symm.trans ho) (by simp)
      · rintro ⟨o, ho, hid⟩
        simp only [Function.update_self, Option.some.injEq] at ho
        subst ho
        simp only [Function.update_self] at hid
        exact absurd hid.symm hsid
    · rw [hi.agree]
      exact exists_congr fun o => (hother ha sid o).symm

/-- One turn of the sweep. -/
theorem expire (hi : Mapped cl) (now : ℕ) (source : SocketAddr) :
    Mapped (cl.expireUdp now source) := by
  unfold Client.expireUdp
  split
  · exact hi
  next o hs =>
  split
  · refine ⟨fun a o' h => ?_, fun sid a => ?_⟩
    · by_cases ha : a = source
      · simp [ha] at h
      · simp only [Function.update_of_ne ha] at h
        exact List.mem_filter.mpr ⟨hi.listed a o' h, by simpa using ha⟩
    · have hgone : Live cl (cl.heap o).sessionId source o := ⟨hs, rfl⟩
      by_cases ha : a = source
      · subst ha
        constructor
        · intro h
          -- the only id that leads to the source is the one that is deleted
          by_cases hsid : sid = (cl.heap o).sessionId
          · simp [hsid] at h
          · simp only [Function.update_of_ne hsid] at h
            obtain ⟨o', ho', hid⟩ := (hi.agree sid a).mp h
            rw [hs, Option.some.injEq] at ho'
            exact absurd hid.symm (ho' ▸ hsid)
        · rintro ⟨o', ho', -⟩
          simp at ho'
      · by_cases hsid : sid = (cl.heap o).sessionId
        · subst hsid
          simp only [Live, Function.update_self, Function.update_of_ne ha]
          refine ⟨fun h => absurd h (by simp), ?_⟩
          rintro ⟨o', h⟩
          exact absurd (hi.source_unique h hgone) ha
        · simp only [Live, Function.update_of_ne hsid, Function.update_of_ne ha]
          exact hi.agree sid a
  · exact hi

end Mapped

/-! ### The loop over the sessions -/

/-- The loop finds something if some source it visits has a session with the id. -/
theorem findSession_ne_none {cl : Client} {sid : UInt64} {order : List SocketAddr}
    {source : SocketAddr} {o : SessionObj} (hm : source ∈ order) (hl : Live cl sid source o) :
    cl.findSession sid order ≠ none := by
  induction order with
  | nil => exact absurd hm List.not_mem_nil
  | cons a order ih =>
      rw [Client.findSession]
      rcases List.mem_cons.mp hm with rfl | hm
      · simp [hl.1, hl.2]
      · split
        · exact ih hm
        · split
          · simp
          · exact ih hm

/-- **The order of the iteration does not matter.**  The loop finds the session of the source that
the reverse map leads to. -/
theorem Mapped.findSession_eq {cl : Client} (hi : Mapped cl) {order : List SocketAddr}
    (hp : order.Perm cl.sources) (sid : UInt64) :
    cl.findSession sid order = (cl.udpSessionAddrs sid).bind cl.udpSessions := by
  cases ha : cl.udpSessionAddrs sid with
  | none =>
      cases hf : cl.findSession sid order with
      | none => rfl
      | some o =>
          obtain ⟨source, -, hl⟩ := findSession_eq_some hf
          have hsome := (hi.agree sid source).mpr ⟨o, hl⟩
          exact absurd (ha.symm.trans hsome) (by simp)
  | some source =>
      obtain ⟨o, hl⟩ := (hi.agree sid source).mp ha
      have hm : source ∈ order := hp.symm.subset (hi.listed source o hl.1)
      obtain ⟨o', hf⟩ := Option.ne_none_iff_exists'.mp (findSession_ne_none hm hl)
      obtain ⟨source', -, hl'⟩ := findSession_eq_some hf
      have hsource := hi.source_unique hl' hl
      show cl.findSession sid order = cl.udpSessions source
      rw [hf, ← hsource]
      exact hl'.1.symm

/-! ### Along a run -/

/-- The ids drawn after a step. -/
theorem drawn_act {start : UInt64} {s s' : State} {tr obs : List Obs} {e : Event} {draws : ℕ}
    (hi : Drawn start s.cl.sessionIdCounter (createdIds tr) draws) (ha : Act s e s' obs)
    (hlen : (createdIds (tr ++ obs)).length < 2 ^ 64) :
    ∃ draws', Drawn start s'.cl.sessionIdCounter (createdIds (tr ++ obs)) draws' := by
  cases sessionMove_of_act ha with
  | quiet hc _ _ _ _ _ hids _ =>
      refine ⟨draws, ?_⟩
      rwa [hc, createdIds_append, hids, List.append_nil]
  | @created source random now hnone hcl hobs =>
      have hcounter : s'.cl.sessionIdCounter = allocateSessionId s.cl.sessionIdCounter := by
        rw [hcl]
        simp only [Client.createUdpSession, hnone]
      rw [createdIds_append, hobs] at hlen ⊢
      rw [hcounter]
      exact hi.allocate (by simpa [createdIds] using hlen)
  | @checked t r source o dup _ _ _ hcl hobs =>
      refine ⟨draws, ?_⟩
      have hids : createdIds obs = [] := by
        rw [hobs]
        rfl
      rw [hcl, createdIds_append, hids, List.append_nil]
      exact hi

/-- The invariant of every run that creates fewer than `2^64` sessions. -/
theorem drawn_exec {cfg : ClientConfig} {counter : UInt64} {es : List Event} {s : State}
    {tr : List Obs} (hrun : (machine cfg counter).exec es = some (s, tr))
    (hlen : (createdIds tr).length < 2 ^ 64) :
    ∃ draws, Drawn counter s.cl.sessionIdCounter (createdIds tr) draws := by
  revert hlen
  refine Machine.invariant
    (I := fun s tr => (createdIds tr).length < 2 ^ 64 →
      ∃ draws, Drawn counter s.cl.sessionIdCounter (createdIds tr) draws) _
    (fun _ => ⟨0, drawn_start counter⟩) (fun s tr e s' obs hi hs hlen => ?_) hrun
  have hpre : (createdIds tr).length < 2 ^ 64 := by
    rw [createdIds_append, List.length_append] at hlen
    omega
  obtain ⟨draws, hd⟩ := hi hpre
  exact drawn_act hd (act_of_machine hs) hlen

/-- No id is assigned twice. -/
theorem nodup_exec {cfg : ClientConfig} {counter : UInt64} {es : List Event} {s : State}
    {tr : List Obs} (hrun : (machine cfg counter).exec es = some (s, tr))
    (hlen : (createdIds tr).length < 2 ^ 64) : (createdIds tr).Nodup := by
  obtain ⟨draws, hd⟩ := drawn_exec hrun hlen
  exact hd.nodup

/-- The step lemma. -/
theorem Mapped.act {s s' : State} {tr obs : List Obs} {e : Event} (hi : Mapped s.cl)
    (hobj : Objects s tr) (ha : Act s e s' obs) (hnodup : (createdIds (tr ++ obs)).Nodup) :
    Mapped s'.cl := by
  cases ha with
  | loop hcl _ _ _ => exact hcl ▸ hi
  | arrive _ _ _ hcl _ _ _ => exact hcl ▸ hi
  | @createNew h now random b b' _ hnone =>
      refine hi.create hnone (fun a o ho => Nat.ne_of_lt (hobj.sessions a o ho).1)
        fun a o hl => ?_
      -- the id of a stored session was assigned before
      have hold := (hobj.sessions a o hl.1).2
      rw [hl.2] at hold
      rw [createdIds_append, List.nodup_append] at hnodup
      exact hnodup.2.2 _ (mem_createdIds hold) _ (by simp [createdIds]) rfl
  | number _ _ => exact hi.write rfl
  | touch _ _ => exact hi.write rfl
  | tcpCreateNew _ _ _ => exact hi.sameUdp (.createTcpSession _ _ _ _)
  | tcpTouch _ _ => exact hi.sameUdp ⟨rfl, rfl, rfl, rfl, rfl, rfl⟩
  | checkDup _ _ _ => exact hi.write rfl
  | checkNew _ _ _ => exact hi.write rfl
  | responseTouch _ _ => exact hi.write rfl
  | responseTouchTcp _ _ => exact hi.sameUdp (.touchStored _ _ _)
  | remove _ _ => exact hi.sameUdp ⟨rfl, rfl, rfl, rfl, rfl, rfl⟩
  | close _ => exact hi.sameUdp ⟨rfl, rfl, rfl, rfl, rfl, rfl⟩
  | expireUdp _ _ => exact hi.expire _ _
  | expireTcp _ _ => exact hi.sameUdp (.expireTcp _ _ _)
  | closeAll _ _ => exact hi.sameUdp ⟨rfl, rfl, rfl, rfl, rfl, rfl⟩
  | _ => exact hi

/-- The run lemma. -/
theorem mapped_exec {cfg : ClientConfig} {counter : UInt64} {es : List Event} {s : State}
    {tr : List Obs} (hrun : (machine cfg counter).exec es = some (s, tr))
    (hlen : (createdIds tr).length < 2 ^ 64) : Mapped s.cl := by
  refine Machine.exec_induction (P := fun _ s tr => (createdIds tr).length < 2 ^ 64 → Mapped s.cl)
    _ (fun _ => ⟨fun _ _ h => absurd h (by simp [machine, new]), fun sid a => ?_⟩)
    (fun es s tr e s' obs hexec ih hs hlen => ?_) es s tr hrun hlen
  · simp [machine, new, Live]
  · have hpre : (createdIds tr).length < 2 ^ 64 := by
      rw [createdIds_append, List.length_append] at hlen
      omega
    have hnext : (machine cfg counter).exec (es ++ [e]) = some (s', tr ++ obs) :=
      (machine cfg counter).exec_snoc.mpr ⟨s, tr, obs, hexec, hs, rfl⟩
    exact (ih hpre).act (objects_exec hexec) (act_of_machine hs) (nodup_exec hnext hlen)

/-- **The tables and the lookups agree.**  In every run of the Go client, from any start of the
counter, that assigns at most `2^64 - 1` ids, and in every state of it, those in the middle of a
sweep included: every id is non-zero and assigned once, the reverse map takes an id to a source
exactly when a session with the id is stored for that source, and the loop over the sessions finds
for every id, whatever the order of the iteration, the session stored for the source that the
reverse map leads to. -/
theorem tables_and_lookups_agree (cfg : ClientConfig) (counter : UInt64) (es : List Event)
    {s : State} {tr : List Obs} (hrun : (machine cfg counter).exec es = some (s, tr))
    (hlen : (createdIds tr).length ≤ 2 ^ 64 - 1) :
    (∀ sid ∈ createdIds tr, sid ≠ 0) ∧ (createdIds tr).Nodup ∧
      (∀ sid source, s.cl.udpSessionAddrs sid = some source ↔
        ∃ o, s.cl.udpSessions source = some o ∧ (s.cl.heap o).sessionId = sid) ∧
      ∀ order, order.Perm s.cl.sources → ∀ sid,
        s.cl.findSession sid order = (s.cl.udpSessionAddrs sid).bind s.cl.udpSessions := by
  have hlen : (createdIds tr).length < 2 ^ 64 := by omega
  obtain ⟨draws, hdrawn⟩ := drawn_exec hrun hlen
  have hmapped := mapped_exec hrun hlen
  refine ⟨fun sid hm hzero => ?_, hdrawn.nodup, hmapped.agree,
    fun order hp sid => hmapped.findSession_eq hp sid⟩
  exact hdrawn.nonzero (hzero ▸ hm)

/-- Two sources, and a sweep that has removed the session of the first and not yet looked at that
of the second. -/
def midSweep : List Event :=
  sendDatagram demoAddr 10 11 ++ sendDatagram { demoAddr with port := 6000 } 20 11 ++
    [Event.tick 75, Event.sweepSource demoAddr]

/-- The second session is found, in the middle of the sweep. -/
theorem tables_and_lookups_agree_mid_sweep :
    ∃ s tr, (machine demoConfig 18446744073709551614).exec midSweep = some (s, tr) ∧
      s.sweep = .udp 75 [{ demoAddr with port := 6000 }] ∧
      createdIds tr = [18446744073709551615, 1] ∧
      s.cl.findSession 1 s.cl.sources = (s.cl.udpSessionAddrs 1).bind s.cl.udpSessions := by
  have hview : ((machine demoConfig 18446744073709551614).exec midSweep).map
      (fun r => (createdIds r.2, r.1.sweep)) =
        some ([18446744073709551615, 1], .udp 75 [{ demoAddr with port := 6000 }]) := by decide
  obtain ⟨⟨s, tr⟩, hrun, hv⟩ := Option.map_eq_some_iff.mp hview
  obtain ⟨hids, hsweep⟩ := Prod.mk.inj hv
  have hids : createdIds tr = [18446744073709551615, 1] := hids
  have hlen : (createdIds tr).length ≤ 2 ^ 64 - 1 := by simp [hids]
  have hagree := tables_and_lookups_agree demoConfig _ midSweep hrun hlen
  exact ⟨s, tr, hrun, hsweep, hids, hagree.2.2.2 _ (List.Perm.refl _) 1⟩

end Fproxy.GoClient
