import Fproxy.Server.Handlers
import Fproxy.Server.Objects

/-!
# Which paths a session answers on

A response goes out on the paths in `client_paths`.  A path is registered after the window has let
the packet through, so a copy that arrives second registers nothing: neither its connection, nor
the new address of a client behind the same listener.

* `PathsFor` — what a list should hold after packets from some sources: one entry for each
  listener with the address of its latest packet, and one for each connection.
* `Registered` — the invariant: the list is right for the sources of the packets that the window
  let through.
* `paths_for_all_iff` — it is right for all packets received if and only if the window discarded
  none that mattered.
* `second_copy_adds_no_path` — one packet over both transports.
-/

namespace Fproxy.Server

open Fproxy.Protocol Fproxy.Runs

/-! ### What a path list should hold -/

/-- The addresses a path list has for a listener. -/
def udpAddrs (l : ListenerId) (paths : List ClientPath) : List SocketAddr :=
  paths.filterMap fun
    | .udp addr s => if s = l then some addr else none
    | .tcp _ _ => none

/-- The source address of the latest packet on a listener. -/
def latestAddr (l : ListenerId) (sources : List Source) : Option SocketAddr :=
  (sources.filterMap fun
    | .udp l' addr => if l' = l then some addr else none
    | .tcp _ => none).getLast?

/-- Exactly one entry for each listener and each connection with a packet, none for the others; an
entry of a listener has the address of the latest packet there. -/
structure PathsFor (paths : List ClientPath) (sources : List Source) : Prop where
  udp : ∀ l, udpAddrs l paths = (latestAddr l sources).toList
  tcp : ∀ c, paths.filter (·.isTcp c) = if .tcp c ∈ sources then [.tcp c c] else []

theorem pathsFor_nil : PathsFor [] [] := ⟨fun _ => rfl, fun _ => rfl⟩

/-! ### The loops over a path list -/

/-- `add_udp_path` writes the address into the first entry of its listener, or adds one. -/
theorem udpAddrs_updateUdpPath (l l' : ListenerId) (addr : SocketAddr) (paths : List ClientPath) :
    udpAddrs l' (updateUdpPath addr l paths) =
      if l = l' then addr :: (udpAddrs l paths).tail else udpAddrs l' paths := by
  induction paths with
  | nil => by_cases h : l = l' <;> simp [updateUdpPath, udpAddrs, h]
  | cons p paths ih =>
      cases p with
      | tcp c w => simpa [updateUdpPath, udpAddrs] using ih
      | udp a s =>
          by_cases hs : s = l
          · subst hs
            by_cases ha : a = addr <;> by_cases h : s = l' <;>
              simp [updateUdpPath, udpAddrs, ha, h]
          · have hskip : updateUdpPath addr l (.udp a s :: paths) =
                .udp a s :: updateUdpPath addr l paths := by
              simp [updateUdpPath, hs]
            have hcons : ∀ (k : ListenerId) (ps : List ClientPath),
                udpAddrs k (.udp a s :: ps) = if s = k then a :: udpAddrs k ps else udpAddrs k ps := by
              intro k ps
              by_cases h : s = k <;> simp [udpAddrs, h]
            rw [hskip, hcons, hcons, hcons, if_neg hs, ih]
            by_cases h : l = l'
            · rw [if_pos h, if_pos h, if_neg (h ▸ hs)]
            · rw [if_neg h, if_neg h]

theorem filter_isTcp_updateUdpPath (l : ListenerId) (c : ConnId) (addr : SocketAddr)
    (paths : List ClientPath) :
    (updateUdpPath addr l paths).filter (·.isTcp c) = paths.filter (·.isTcp c) := by
  induction paths with
  | nil => simp [updateUdpPath, ClientPath.isTcp]
  | cons p paths ih =>
      cases p with
      | tcp c' w => simp [updateUdpPath, List.filter_cons, ih]
      | udp a s =>
          by_cases hs : s = l
          · by_cases ha : a = addr <;> simp [updateUdpPath, hs, ha, ClientPath.isTcp]
          · simpa [updateUdpPath, hs, ClientPath.isTcp] using ih

/-- A packet on a listener. -/
theorem PathsFor.addUdp {paths : List ClientPath} {sources : List Source}
    (h : PathsFor paths sources) (l : ListenerId) (addr : SocketAddr) :
    PathsFor (updateUdpPath addr l paths) (sources ++ [.udp l addr]) := by
  refine ⟨fun l' => ?_, fun c => ?_⟩
  · rw [udpAddrs_updateUdpPath]
    by_cases hl : l = l'
    · subst hl
      have htail : (udpAddrs l paths).tail = [] := by
        rw [h.udp l]
        cases latestAddr l sources <;> rfl
      rw [if_pos rfl, htail]
      simp [latestAddr]
    · rw [if_neg hl, h.udp l']
      simp [latestAddr, hl]
  · rw [filter_isTcp_updateUdpPath, h.tcp c]
    simp

/-- A packet on a connection. -/
theorem PathsFor.addTcp {paths : List ClientPath} {sources : List Source}
    (h : PathsFor paths sources) (c : ConnId) :
    PathsFor (updateTcpPath c c paths) (sources ++ [.tcp c]) := by
  -- the connection of an entry is its writer
  have hwriter : ∀ c' w, .tcp c' w ∈ paths → w = c' ∧ .tcp c' ∈ sources := by
    intro c' w hm
    have hf : .tcp c' w ∈ paths.filter (·.isTcp c') :=
      List.mem_filter.mpr ⟨hm, by simp [ClientPath.isTcp]⟩
    rw [h.tcp c'] at hf
    split at hf
    · next hs => exact ⟨(ClientPath.tcp.inj (List.mem_singleton.mp hf)).2, hs⟩
    · exact absurd hf List.not_mem_nil
  unfold updateTcpPath
  split
  · next hany =>
      have hin : .tcp c ∈ sources := by
        obtain ⟨p, hp, hc⟩ := List.any_eq_true.mp hany
        cases p with
        | udp a s => exact absurd hc Bool.false_ne_true
        | tcp c' w =>
            obtain ⟨rfl, hs⟩ := hwriter c' w hp
            have hcc : w = c := by simpa using hc
            exact hcc ▸ hs
      refine ⟨fun l => ?_, fun c' => ?_⟩
      · rw [h.udp l]
        simp [latestAddr]
      · rw [h.tcp c']
        by_cases hc : c' = c <;> simp [hc, hin]
  · next hany =>
      have hout : .tcp c ∉ sources := by
        intro hs
        have hf := h.tcp c
        rw [if_pos hs] at hf
        have hm : .tcp c c ∈ paths.filter (·.isTcp c) := by
          rw [hf]
          exact List.mem_singleton_self _
        exact hany (List.any_eq_true.mpr ⟨_, (List.mem_filter.mp hm).1, by simp⟩)
      refine ⟨fun l => ?_, fun c' => ?_⟩
      · have hu := h.udp l
        simp only [udpAddrs, latestAddr] at hu
        simp [udpAddrs, latestAddr, hu]
      · rw [List.filter_append, h.tcp c']
        by_cases hc : c' = c
        · subst hc
          simp [hout, ClientPath.isTcp]
        · have hc' : ¬ c = c' := fun he => hc he.symm
          simp [ClientPath.isTcp, hc, hc']

/-- A list is right for one list of sources, so it is right for another exactly when that one asks
for the same. -/
theorem PathsFor.iff {paths : List ClientPath} {sources sources' : List Source}
    (h : PathsFor paths sources) :
    PathsFor paths sources' ↔ (∀ l, latestAddr l sources' = latestAddr l sources) ∧
      ∀ c, .tcp c ∈ sources' ↔ .tcp c ∈ sources := by
  constructor
  · intro h'
    refine ⟨fun l => ?_, fun c => ?_⟩
    · have he := (h'.udp l).symm.trans (h.udp l)
      cases hs : latestAddr l sources <;> cases hs' : latestAddr l sources' <;> simp_all
    · have he := (h'.tcp c).symm.trans (h.tcp c)
      by_cases hs : .tcp c ∈ sources <;> by_cases hs' : .tcp c ∈ sources' <;> simp_all
  · rintro ⟨hu, ht⟩
    exact ⟨fun l => by rw [hu, h.udp l], fun c => by rw [h.tcp c]; simp only [ht c]⟩

/-! ### Sequences of packets -/

/-- A packet arriving, with what the environment decides while it is handled. -/
structure Arrival where
  source : Source
  data : List UInt8
  env : HandleEnv

/-- Handle packets one after the other. -/
def handleAll (s : Server) (arrivals : List Arrival) : Server :=
  arrivals.foldl (fun s a => (s.handleFrom a.source a.data a.env).1) s

/-- The packets of a session among the arrivals: where each came from, and its number. -/
def packetsOf (sid : UInt64) (arrivals : List Arrival) : List (Source × UInt32) :=
  arrivals.filterMap fun a =>
    match decodePacket a.data with
    | .ok (sid', seq, _) => if sid' = sid then some (a.source, seq) else none
    | .error _ => none

/-- The sources of the packets that a window lets through. -/
def freshSources (d : DedupWindow) : List (Source × UInt32) → List Source
  | [] => []
  | (source, seq) :: packets =>
      let r := d.isDuplicate seq
      if r.1 then freshSources r.2 packets else source :: freshSources r.2 packets

theorem mem_of_mem_freshSources {d : DedupWindow} {packets : List (Source × UInt32)}
    {source : Source} (h : source ∈ freshSources d packets) : source ∈ packets.map Prod.fst := by
  induction packets generalizing d with
  | nil => exact absurd h List.not_mem_nil
  | cons p packets ih =>
      simp only [freshSources] at h
      split at h
      · exact List.mem_cons_of_mem _ (ih h)
      · rcases List.mem_cons.mp h with rfl | h
        · exact List.mem_cons_self
        · exact List.mem_cons_of_mem _ (ih h)

/-- What the list of a session is right for, and where the window of the session stands. -/
structure Registered (sid : UInt64) (s : Server) (d : DedupWindow) (sources : List Source) :
    Prop where
  stored : ∀ sid' o, s.sessions sid' = some o → Owns s sid' o
  window : ∀ o, s.sessions sid = some o → (s.heap o).dedupWindow = d
  unborn : s.sessions sid = none → d = .new s.cfg.dedupWindow
  paths : PathsFor ((s.clientPaths sid).getD []) sources

namespace Registered

variable {sid sid' : UInt64} {s : Server} {d : DedupWindow} {sources : List Source}

/-- The lookup or creation of a session. -/
theorem getOrCreate (h : Registered sid s d sources) (sid' : UInt64) (now : ℕ) :
    ∃ s₁ o b, s.getOrCreateSession sid' now true = (s₁, some (o, b)) ∧
      Registered sid s₁ d sources ∧ s₁.sessions sid' = some o := by
  cases hs : s.sessions sid' with
  | some o => exact ⟨s, o, false, by simp [getOrCreateSession, hs], h, hs⟩
  | none =>
      refine ⟨(s.createSession sid' now true).1, s.next, true,
        by simp [getOrCreateSession, createSession, hs], ?_, by simp [createSession, hs]⟩
      simp only [createSession, hs, if_true]
      refine ⟨fun id o ho => ?_, fun o ho => ?_, fun ho => ?_, h.paths⟩ <;> dsimp only at ho ⊢
      · by_cases he : id = sid'
        · subst he
          rw [Function.update_self, Option.some.injEq] at ho
          subst ho
          exact ⟨Nat.lt_succ_self _, by simp [TargetSession.new]⟩
        · rw [Function.update_of_ne he] at ho
          have hold := h.stored id o ho
          refine ⟨Nat.lt_succ_of_lt hold.1, ?_⟩
          show (Function.update s.heap s.next _ o).sessionId = id
          rw [Function.update_of_ne (Nat.ne_of_lt hold.1)]
          exact hold.2
      · by_cases he : sid = sid'
        · subst he
          rw [Function.update_self, Option.some.injEq] at ho
          subst ho
          rw [Function.update_self, h.unborn hs]
          rfl
        · rw [Function.update_of_ne he] at ho
          rw [Function.update_of_ne (Nat.ne_of_lt (h.stored sid o ho).1)]
          exact h.window o ho
      · by_cases he : sid = sid'
        · subst he
          rw [Function.update_self] at ho
          exact absurd ho (by simp)
        · rw [Function.update_of_ne he] at ho
          exact h.unborn ho

/-- The write of `last_activity` and the call of `is_duplicate`, for a session stored under some
id: the window of `sid` moves only if it is the one asked. -/
theorem check (h : Registered sid s d sources) {o : ObjId} (ho : s.sessions sid' = some o)
    (now : ℕ) (seq : UInt32) :
    Registered sid ((s.touch o now).checkDuplicate o seq).2
        (if sid' = sid then (d.isDuplicate seq).2 else d) sources ∧
      (sid' = sid → ((s.touch o now).checkDuplicate o seq).1 = (d.isDuplicate seq).1) := by
  have hwin : ((s.touch o now).heap o).dedupWindow = (s.heap o).dedupWindow := by simp
  refine ⟨⟨fun id o' ho' => ⟨(h.stored id o' ho').1, ?_⟩, fun o' ho' => ?_, fun hnone => ?_,
    h.paths⟩, fun he => ?_⟩
  · rw [checkDuplicate_sessionId, touch_sessionId]
    exact (h.stored id o' ho').2
  · have ho' : s.sessions sid = some o' := ho'
    rw [checkDuplicate_dedupWindow, hwin, touch_dedupWindow]
    by_cases he : sid' = sid
    · obtain rfl : o = o' := Option.some.inj (ho.symm.trans (he ▸ ho'))
      rw [if_pos rfl, if_pos he, h.window o ho']
    · -- objects of different sessions are different
      have hne : o' ≠ o := by
        intro hoo
        refine he ?_
        rw [← (h.stored sid' o ho).2, ← hoo]
        exact (h.stored sid o' ho').2
      rw [if_neg hne, if_neg he]
      exact h.window o' ho'
  · have hnone : s.sessions sid = none := hnone
    have hne : sid' ≠ sid := by
      intro he
      rw [he, hnone] at ho
      exact absurd ho (by simp)
    rw [if_neg hne]
    exact h.unborn hnone
  · show (((s.touch o now).heap o).dedupWindow.isDuplicate seq).1 = (d.isDuplicate seq).1
    rw [hwin, h.window o (he ▸ ho)]

/-- The registration of a path. -/
theorem addPath (h : Registered sid s d sources) (source : Source) (sid' : UInt64) :
    Registered sid (source.addPath s sid') d
      (if sid' = sid then sources ++ [source] else sources) := by
  have hpaths : ∀ {paths : List ClientPath},
      (sid' = sid → PathsFor paths (sources ++ [source])) →
      PathsFor ((Function.update s.clientPaths sid' (some paths) sid).getD [])
        (if sid' = sid then sources ++ [source] else sources) := by
    intro paths hp
    by_cases he : sid' = sid
    · rw [if_pos he, he, Function.update_self]
      exact hp he
    · rw [if_neg he, Function.update_of_ne fun h => he h.symm]
      exact h.paths
  cases source with
  | udp l addr =>
      exact ⟨h.stored, h.window, h.unborn, hpaths fun he => by rw [he]; exact h.paths.addUdp l addr⟩
  | tcp c =>
      exact ⟨h.stored, h.window, h.unborn, hpaths fun he => by rw [he]; exact h.paths.addTcp c⟩

/-- One packet of any session. -/
theorem handleFrom (h : Registered sid s d sources) (source : Source) {data : List UInt8}
    {seq : UInt32} {payload : List UInt8} {env : HandleEnv} (hconn : env.connected = true)
    (hdec : decodePacket data = .ok (sid', seq, payload)) :
    Registered sid (s.handleFrom source data env).1
      (if sid' = sid then (d.isDuplicate seq).2 else d)
      (if sid' = sid ∧ (d.isDuplicate seq).1 = false then sources ++ [source] else sources) := by
  obtain ⟨s₁, o, b, hget, h₁, ho⟩ := h.getOrCreate sid' env.now
  obtain ⟨h₂, hverdict⟩ := h₁.check ho env.now seq
  rw [handleFrom_eq, handlePacket, hdec]
  simp only [hconn, hget]
  cases hd : (s₁.touch o env.now).checkDuplicate o seq with
  | mk dup s₂ =>
      rw [hd] at h₂ hverdict
      dsimp only at h₂ hverdict
      cases dup with
      | true =>
          have hnot : ¬ (sid' = sid ∧ (d.isDuplicate seq).1 = false) := fun he =>
            absurd ((hverdict he.1).trans he.2) (by simp)
          rw [if_neg hnot]
          exact h₂
      | false =>
          have hadd := h₂.addPath source sid'
          by_cases he : sid' = sid
          · have hfresh := (hverdict he).symm
            simpa only [he, hfresh, if_true, and_self] using hadd
          · simpa only [he, if_false, false_and] using hadd

/-- The run lemma: after any arrivals the list is right for the packets let through. -/
theorem handleAll (h : Registered sid s d sources) (arrivals : List Arrival)
    (hconn : ∀ a ∈ arrivals, a.env.connected = true) :
    ∃ d', Registered sid (s.handleAll arrivals) d'
      (sources ++ freshSources d (packetsOf sid arrivals)) := by
  induction arrivals generalizing s d sources with
  | nil => exact ⟨d, by simpa [packetsOf, freshSources, Server.handleAll] using h⟩
  | cons a arrivals ih =>
      have hrest : ∀ a' ∈ arrivals, a'.env.connected = true :=
        fun a' ha => hconn a' (List.mem_cons_of_mem _ ha)
      cases hdec : decodePacket a.data with
      | error e =>
          have hsame : (s.handleFrom a.source a.data a.env).1 = s := by
            rw [handleFrom_eq, handlePacket, hdec]
          obtain ⟨d', hd'⟩ := ih (s := (s.handleFrom a.source a.data a.env).1) (hsame.symm ▸ h) hrest
          exact ⟨d', by simpa [packetsOf, hdec, Server.handleAll] using hd'⟩
      | ok p =>
          obtain ⟨sid', seq, payload⟩ := p
          have hone := h.handleFrom a.source (hconn a List.mem_cons_self) hdec
          obtain ⟨d', hd'⟩ := ih hone hrest
          refine ⟨d', ?_⟩
          by_cases he : sid' = sid
          · cases hdup : (d.isDuplicate seq).1 <;>
              simpa [packetsOf, hdec, Server.handleAll, freshSources, he, hdup] using hd'
          · simpa [packetsOf, hdec, Server.handleAll, he] using hd'

end Registered

/-! ### When a session answers on all paths -/

/-- The window discarded no packet whose path matters: on every listener the latest packet has the
address of the latest one let through, and on every connection with a packet one was let
through. -/
def Covered (window : ℕ) (packets : List (Source × UInt32)) : Prop :=
  (∀ l, latestAddr l (packets.map Prod.fst) = latestAddr l (freshSources (.new window) packets)) ∧
    ∀ c, .tcp c ∈ packets.map Prod.fst → .tcp c ∈ freshSources (.new window) packets

/-- **When a session answers on all paths.**  Take any state of the server in which a session id
has no session and no paths, and any packets handled from there on, those of the id creating its
session.  Afterwards the paths of the session are one for each listener and each connection its
packets came in on, with the address of the latest packet, if and only if the window discarded no
packet whose path matters. -/
theorem paths_for_all_iff {cfg : ServerConfig} {es : List Event} {st : State} {tr : List Obs}
    (hrun : (machine cfg).exec es = some (st, tr)) {sid : UInt64}
    (hsession : st.srv.sessions sid = none) (hpaths : st.srv.clientPaths sid = none)
    (arrivals : List Arrival) (hconn : ∀ a ∈ arrivals, a.env.connected = true) :
    PathsFor (((st.srv.handleAll arrivals).clientPaths sid).getD [])
        ((packetsOf sid arrivals).map Prod.fst) ↔
      Covered cfg.dedupWindow (packetsOf sid arrivals) := by
  have hobj := objects_exec hrun
  have hstart : Registered sid st.srv (.new cfg.dedupWindow) [] :=
    ⟨hobj.sessions, fun o ho => absurd (hsession.symm.trans ho) (by simp),
      fun _ => by rw [hobj.cfg_eq], by rw [hpaths]; exact pathsFor_nil⟩
  obtain ⟨d, hreg⟩ := hstart.handleAll arrivals hconn
  rw [List.nil_append] at hreg
  rw [hreg.paths.iff, Covered]
  exact and_congr_right fun _ =>
    forall_congr' fun c => ⟨Iff.mp, fun h => ⟨h, mem_of_mem_freshSources⟩⟩

/-- Two packets of session 1, one over each transport. -/
def twoPackets : List Arrival :=
  [⟨.udp 0 demoAddr, encodeUdp 1 7 [1], ⟨10, true, true⟩⟩,
    ⟨.tcp 0, encodeTcp 1 8 [2], ⟨11, true, true⟩⟩]

/-- Each of them registers its path. -/
theorem paths_for_two_packets :
    PathsFor ((((new demoConfig).handleAll twoPackets).clientPaths 1).getD [])
      [.udp 0 demoAddr, .tcp 0] := by
  have hpackets : packetsOf 1 twoPackets = [(.udp 0 demoAddr, 7), (.tcp 0, 8)] := by decide
  have hfresh : freshSources (.new demoConfig.dedupWindow) (packetsOf 1 twoPackets) =
      (packetsOf 1 twoPackets).map Prod.fst := by decide
  have hall : PathsFor ((((new demoConfig).handleAll twoPackets).clientPaths 1).getD [])
      ((packetsOf 1 twoPackets).map Prod.fst) :=
    (paths_for_all_iff (machine demoConfig).exec_nil rfl rfl twoPackets (by decide)).mpr
      ⟨fun _ => by rw [hfresh], fun _ h => by rwa [hfresh]⟩
  rwa [hpackets] at hall

/-- A client that sends over both transports: two copies of one packet. -/
def twoCopies : List Arrival :=
  [⟨.udp 0 demoAddr, encodeUdp 1 7 [1], ⟨10, true, true⟩⟩,
    ⟨.tcp 0, encodeTcp 1 7 [1], ⟨11, true, true⟩⟩]

/-- The connection that brought the second copy is not among the paths. -/
theorem second_copy_adds_no_path :
    ¬ PathsFor ((((new demoConfig).handleAll twoCopies).clientPaths 1).getD [])
      ((packetsOf 1 twoCopies).map Prod.fst) := by
  intro h
  have htcp := h.tcp 0
  have hlist : (((new demoConfig).handleAll twoCopies).clientPaths 1).getD [] =
      [.udp demoAddr 0] := by decide
  have hsources : (packetsOf 1 twoCopies).map Prod.fst = [.udp 0 demoAddr, .tcp 0] := by decide
  rw [hlist, hsources] at htcp
  exact absurd htcp (by decide)

end Fproxy.Server
