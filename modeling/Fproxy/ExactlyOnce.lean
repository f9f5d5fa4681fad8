import Fproxy.Client.Numbering
import Fproxy.Server.Forwarding
import Fproxy.Server.Provenance

/-!
# Exactly once within the window

The composition of the client's counter, the packet format and the server's window.  A client
session numbers its datagrams; copies of the encoded packets reach one server session any number
of times, over any transports, in any order and with the handlers interleaved; the server forwards
them to the target.

* `delivered` — what the target of a session got; `receivedBy` — the numbers in the order in which
  the session received them, that is in which its window was asked about them.
* `InWindowAtFirst` — at its first arrival the number is in reach of the window.
* `Single` — the invariant: as long as a session does not expire, it has one object.
* `exactly_once_within_window` — the end-to-end statement.
-/

namespace Fproxy

open Fproxy.Runs Fproxy.Protocol Fproxy.DedupWindow

namespace Server

/-- The datagrams that reached the target of a session, with their numbers, oldest first. -/
def delivered (tr : List Obs) (sid : UInt64) : List (UInt32 × List UInt8) :=
  tr.filterMap fun
    | .forwarded _ sid' seq payload true => if sid' = sid then some (seq, payload) else none
    | _ => none

/-- The numbers a session has received, oldest first. -/
def receivedBy (s : State) (tr : List Obs) (sid : UInt64) : List UInt32 :=
  match s.srv.sessions sid with
  | none => []
  | some o => (checks tr o).map Prod.fst

theorem mem_delivered {tr : List Obs} {sid : UInt64} {x : UInt32 × List UInt8} :
    x ∈ delivered tr sid ↔ ∃ o, .forwarded o sid x.1 x.2 true ∈ tr := by
  simp only [delivered, List.mem_filterMap]
  constructor
  · rintro ⟨obs, hmem, hobs⟩
    split at hobs
    · split at hobs
      · next o sid' seq payload he =>
          rw [← Option.some.inj hobs, ← he]
          exact ⟨o, hmem⟩
      · exact absurd hobs (by simp)
    · exact absurd hobs (by simp)
  · rintro ⟨o, hmem⟩
    exact ⟨_, hmem, by simp⟩

/-- A packet held is held for the object in hand. -/
theorem obj_of_held {h : Handler} {o : ObjId} {seq : UInt32} (hh : h.held = some (o, seq)) :
    h.pc.obj = some o := by
  unfold Handler.held at hh
  cases hpc : h.pc with
  | track | register | forward =>
      simp only [hpc, Option.some.injEq, Prod.mk.injEq] at hh
      rw [HandlerPc.obj, hh.1]
  | _ => simp [hpc] at hh

/-! ### The verdicts of every window are fair -/

/-- The calls a move adds: none, or one with the verdict of the window. -/
theorem checks_act {s s' : State} {e : Event} {obs : List Obs} (ha : Act s e s' obs)
    (o : ObjId) : checks obs o = [] ∨
      ∃ seq, checks obs o = [(seq, !((s.srv.heap o).dedupWindow.isDuplicate seq).1)] := by
  have hone : ∀ {o' : ObjId} {h : Handler} {dup : Bool}, (s.srv.checkDuplicate o' h.seq).1 = dup →
      checks [.checked o' h.seq h.payload dup] o = [] ∨ ∃ seq,
        checks [.checked o' h.seq h.payload dup] o =
          [(seq, !((s.srv.heap o).dedupWindow.isDuplicate seq).1)] := by
    intro o' h dup hd
    by_cases he : o' = o
    · subst he
      have hverdict : ((s.srv.heap o').dedupWindow.isDuplicate h.seq).1 = dup := hd
      exact Or.inr ⟨h.seq, by simp [checks, hverdict]⟩
    · exact Or.inl (by simp [checks, he])
  cases ha with
  | checkDup _ _ hd => exact hone hd
  | checkNew _ _ hd _ => exact hone hd
  | @responseSend _ _ _ p _ _ b _ => exact Or.inl (by cases b <;> cases p <;> rfl)
  | _ => exact Or.inl rfl

theorem fair_exec {cfg : ServerConfig} {es : List Event} {s : State} {tr : List Obs}
    (hrun : (machine cfg).exec es = some (s, tr)) (o : ObjId) :
    Fair cfg.dedupWindow (checks tr o) := by
  refine Machine.exec_induction (P := fun _ _ tr => Fair cfg.dedupWindow (checks tr o)) _
    (fair_nil _) (fun _ s tr e s' obs hrun hf hs => ?_) es s tr hrun
  have hobj := objects_exec hrun
  rw [checks_append]
  rcases checks_act (act_of_machine hs) o with hnone | ⟨seq, hone⟩
  · rwa [hnone, List.append_nil]
  · rw [hone]
    have hstep := (hobj.tracks o).fair_isDuplicate (by rwa [hobj.size o]) seq
    rwa [hobj.size o] at hstep

/-! ### One object for a session that does not expire -/

/-- What is sent on the socket of an object carries the id of the object. -/
theorem forwarded_owns {cfg : ServerConfig} {es : List Event} {s : State} {tr : List Obs}
    (hrun : (machine cfg).exec es = some (s, tr)) {o : ObjId} {sid : UInt64} {seq : UInt32}
    {payload : List UInt8} {ok : Bool} (hm : .forwarded o sid seq payload ok ∈ tr) :
    Owns s.srv sid o := by
  revert hm
  refine Machine.exec_induction
    (P := fun _ s tr => .forwarded o sid seq payload ok ∈ tr → Owns s.srv sid o) _
    (fun h => absurd h List.not_mem_nil) (fun _ s tr e s' obs hrun hi hs hm => ?_) es s tr hrun
  have ha := act_of_machine hs
  rcases List.mem_append.mp hm with hm | hm
  · exact (hi hm).act ha
  · refine Owns.act ?_ ha
    obtain ⟨t, h, _, _, _, ht, hpc, rfl, _⟩ := ha.of_forwarded hm
    exact (objects_exec hrun).handlers t h o ht (by rw [hpc]; rfl)

/-- An object of a session after a move was one before, or has just been stored. -/
theorem owns_of_act {s s' : State} {e : Event} {obs : List Obs} {sid : UInt64} {o : ObjId}
    (ha : Act s e s' obs) (h : Owns s'.srv sid o) :
    Owns s.srv sid o ∨ s'.srv.sessions sid = some o := by
  have hsame : s'.srv.next = s.srv.next →
      (s'.srv.heap o).sessionId = (s.srv.heap o).sessionId → Owns s.srv sid o :=
    fun hn hid => ⟨hn ▸ h.1, hid.symm.trans h.2⟩
  cases ha with
  | createNew _ _ hnone =>
      simp only [Owns, State.setHandler, createSession, hnone, if_true] at h ⊢
      by_cases he : o = s.srv.next
      · right
        rw [he, Function.update_self] at h
        rw [← h.2, he]
        exact Function.update_self _ _ _
      · left
        rw [Function.update_of_ne he] at h
        exact ⟨Nat.lt_of_le_of_ne (Nat.le_of_lt_succ h.1) he, h.2⟩
  | touch _ _ => exact Or.inl (hsame rfl (touch_sessionId _ _ _ _))
  | checkDup _ _ _ => exact Or.inl (hsame rfl (checkDuplicate_sessionId _ _ _ _))
  | checkNew _ _ _ _ => exact Or.inl (hsame rfl (checkDuplicate_sessionId _ _ _ _))
  | removePath _ => exact Or.inl (hsame (by simp [State.setConn]) (by simp [State.setConn]))
  | responseTouch _ _ => exact Or.inl (hsame rfl (touch_sessionId _ _ _ _))
  | responseNumber _ _ => exact Or.inl (hsame rfl (takeResponseSeq_sessionId _ _ _))
  | sweep => exact Or.inl (hsame rfl (cleanupExpiredSessions_sessionId _ _ _))
  | _ => exact Or.inl (hsame rfl rfl)

/-- A session that does not expire stays stored. -/
theorem sessions_act {s s' : State} {e : Event} {obs : List Obs} {sid : UInt64} {o : ObjId}
    (ha : Act s e s' obs) (hkept : ∀ now, e = .sweep now → s.srv.expired now sid = false)
    (h : s.srv.sessions sid = some o) : s'.srv.sessions sid = some o := by
  cases ha with
  | @createNew t hd now b' _ _ hnone =>
      have hne : sid ≠ hd.sessionId := by
        intro he
        rw [he, hnone] at h
        exact absurd h (by simp)
      simp only [State.setHandler, createSession, hnone, if_true]
      rwa [Function.update_of_ne hne]
  | removePath _ => simpa [State.setConn] using h
  | @sweep now =>
      simp only [cleanupExpiredSessions, hkept now rfl]
      exact h
  | _ => exact h

end Server

/-! ### The schedules -/

section

open Fproxy.Server

/-- A step of a schedule that delivers copies of the packets of `datagrams` to the session `sid`:
other packets carry other ids, sends on the session's target socket succeed, and sweeps do not
expire the session. -/
structure Undisturbed (sid : UInt64) (datagrams : List (UInt32 × List UInt8)) (s : State)
    (_ : List Obs) (e : Event) : Prop where
  copies : ∀ source data seq payload, e.packet = some (source, data) →
    decodePacket data = .ok (sid, seq, payload) → (seq, payload) ∈ datagrams
  sent : ∀ t now b ok h, e = .handler t now b ok → s.handlers t = some h → h.sessionId = sid →
    ok = true
  kept : ∀ now, e = .sweep now → s.srv.expired now sid = false

/-- The number is received, and at its first arrival it is not below the first number received and
less than `w` behind the highest one received before. -/
def InWindowAtFirst (w : ℕ) (xs : List UInt32) (seq : UInt32) : Prop :=
  ∃ ys zs, xs = ys ++ seq :: zs ∧ seq ∉ ys ∧ (∀ y, ys.head? = some y → y.toNat ≤ seq.toNat) ∧
    ∀ y ∈ ys, y.toNat < seq.toNat + w

/-- What holds of the session along such a schedule. -/
structure Single (sid : UInt64) (datagrams : List (UInt32 × List UInt8)) (s : State)
    (tr : List Obs) : Prop where
  single : ∀ o, Owns s.srv sid o → s.srv.sessions sid = some o
  sent : ∀ o seq payload ok, .forwarded o sid seq payload ok ∈ tr → ok = true
  requests : Requests (fun _ data => ∀ seq payload,
    decodePacket data = .ok (sid, seq, payload) → (seq, payload) ∈ datagrams) s tr

variable {sid : UInt64} {datagrams : List (UInt32 × List UInt8)} {scfg : ServerConfig}
  {es : List Event} {s s' : State} {tr obs : List Obs}

/-- The step lemma. -/
theorem Single.act {e : Event} (hi : Single sid datagrams s tr)
    (hC : Undisturbed sid datagrams s tr e) (ha : Act s e s' obs) :
    Single sid datagrams s' (tr ++ obs) := by
  refine ⟨fun o ho => ?_, fun o seq payload ok hm => ?_,
    hi.requests.act ha fun source data he seq payload => hC.copies source data seq payload he⟩
  · rcases owns_of_act ha ho with hold | hnew
    · exact sessions_act ha hC.kept (hi.single o hold)
    · exact hnew
  · rcases List.mem_append.mp hm with hm | hm
    · exact hi.sent o seq payload ok hm
    · obtain ⟨t, h, now, b, he, ht, _, hsid, _⟩ := ha.of_forwarded hm
      exact hC.sent t now b ok h he ht hsid

/-- The run lemma. -/
theorem single_exec (hrun : (Server.machine scfg).exec es = some (s, tr))
    (heach : (Server.machine scfg).Each (Undisturbed sid datagrams) es) :
    Single sid datagrams s tr := by
  refine Machine.invariant_of_each ?_
    (fun _ _ _ _ _ hi hC hs => hi.act hC (act_of_machine hs)) heach hrun
  exact ⟨fun _ h => absurd h.1 (Nat.not_lt_zero _), fun _ _ _ _ h => absurd h List.not_mem_nil,
    fun _ _ h => absurd h (by simp [machine]), fun _ _ _ _ _ h => absurd h List.not_mem_nil,
    fun _ _ _ ⟨_, h, _⟩ => absurd h (by simp [machine, Server.new])⟩

namespace Single

/-- Only datagrams of the session reach its target. -/
theorem mem_of_delivered (hi : Single sid datagrams s tr) {x : UInt32 × List UInt8}
    (hx : x ∈ delivered tr sid) : x ∈ datagrams := by
  obtain ⟨o, hm⟩ := mem_delivered.mp hx
  obtain ⟨_, hp⟩ := hi.requests.forwarded o sid x.1 x.2 true hm
  exact hp x.1 x.2 (decodePacket_encodePacket sid x.1 x.2)

/-- What one object sent on its socket, seen from the session. -/
theorem delivered_sublist {o : ObjId} {tr : List Obs}
    (h : ∀ o' seq payload ok, .forwarded o' sid seq payload ok ∈ tr → o' = o) :
    ((delivered tr sid).map fun x => (o, x.1)).Sublist (forwards tr) := by
  induction tr with
  | nil => exact List.Sublist.slnil
  | cons x tr ih =>
      have hrest := ih fun o' seq payload ok hm => h o' seq payload ok (List.mem_cons_of_mem _ hm)
      cases x with
      | forwarded o' sid' seq payload ok =>
          by_cases he : sid' = sid ∧ ok = true
          · obtain ⟨rfl, rfl⟩ := he
            have ho := h o' seq payload true List.mem_cons_self
            simpa [delivered, forwards, ho] using hrest
          · have hskip : delivered (.forwarded o' sid' seq payload ok :: tr) sid =
                delivered tr sid := by
              refine List.filterMap_cons_none ?_
              cases ok with
              | false => rfl
              | true => exact if_neg fun hsid => he ⟨hsid, rfl⟩
            rw [hskip]
            exact hrest.trans (List.sublist_cons_self _ _)
      | _ => exact hrest

/-- No number reaches the target twice. -/
theorem delivered_nodup (hi : Single sid datagrams s tr)
    (hrun : (Server.machine scfg).exec es = some (s, tr)) :
    ((delivered tr sid).map Prod.fst).Nodup := by
  have hone : ∃ o, ∀ o' seq payload ok, .forwarded o' sid seq payload ok ∈ tr → o' = o := by
    cases hs : s.srv.sessions sid with
    | none =>
        refine ⟨0, fun o' seq payload ok hm => ?_⟩
        have ho := hi.single o' (forwarded_owns hrun hm)
        rw [hs] at ho
        exact absurd ho (by simp)
    | some o =>
        refine ⟨o, fun o' seq payload ok hm => ?_⟩
        have ho := hi.single o' (forwarded_owns hrun hm)
        rw [hs] at ho
        exact (Option.some.inj ho).symm
  obtain ⟨o, ho⟩ := hone
  have hnodup := (forwards_nodup hrun).sublist (delivered_sublist ho)
  rw [show (fun x : UInt32 × List UInt8 => (o, x.1)) = Prod.mk o ∘ Prod.fst from rfl,
    ← List.map_map] at hnodup
  exact hnodup.of_map

/-- A number in reach of the window at its first arrival reaches the target. -/
theorem delivered_of_inWindow (hi : Single sid datagrams s tr)
    (hrun : (Server.machine scfg).exec es = some (s, tr))
    (hdone : ∀ t h, s.handlers t = some h → h.sessionId ≠ sid) {seq : UInt32}
    (hwin : InWindowAtFirst scfg.dedupWindow (receivedBy s tr sid) seq) :
    ∃ payload, (seq, payload) ∈ delivered tr sid := by
  obtain ⟨ys, zs, hsplit, hnew, hfirst, hnear⟩ := hwin
  cases hs : s.srv.sessions sid with
  | none => simp [receivedBy, hs] at hsplit
  | some o =>
      have hobj := objects_exec hrun
      have hown : Owns s.srv sid o := hobj.sessions sid o hs
      simp only [receivedBy, hs] at hsplit
      obtain ⟨xs₁, xs₂, hchecks, rfl, hxs₂⟩ := List.map_eq_append_iff.mp hsplit
      obtain ⟨⟨seq', b⟩, xs₃, rfl, hseq, rfl⟩ := List.map_eq_cons_iff.mp hxs₂
      obtain rfl : seq' = seq := hseq
      -- the window let the first copy through
      have hpass : b = true := by
        refine fair_exec hrun o xs₁ seq' b xs₃ hchecks hnew (fun p hp => ?_) (fun p hp => ?_)
        · exact hfirst p.1 (by rw [List.head?_map, hp]; rfl)
        · exact hnear p.1 (List.mem_map_of_mem hp)
      subst hpass
      have hadm : (o, seq') ∈ admissions tr := by
        rw [mem_admissions_iff, hchecks]
        exact List.mem_append_right _ List.mem_cons_self
      -- no handler of the session is left to hold it
      have hfree : ∀ t, (ledger s tr).pending t ≠ some (o, seq') := by
        intro t ht
        obtain ⟨h, hh, hheld⟩ := Option.bind_eq_some_iff.mp ht
        have hid := (hobj.handlers t h o hh (obj_of_held hheld)).2
        exact hdone t h hh (hid.symm.trans hown.2)
      have hsent := (sound_exec hrun).delivered_of_admitted hadm hfree
      simp only [ledger, forwards, List.mem_filterMap] at hsent
      obtain ⟨x, hx, he⟩ := hsent
      split at he
      · next o' sid' seq payload ok =>
          obtain ⟨rfl, rfl⟩ := Prod.mk.inj (Option.some.inj he)
          obtain rfl : sid' = sid := (forwarded_owns hrun hx).2.symm.trans hown.2
          obtain rfl : ok = true := hi.sent o' seq payload ok hx
          exact ⟨payload, mem_delivered.mpr ⟨o', hx⟩⟩
      · exact absurd he (by simp)

end Single

/-- In a list without two entries of one key, a key has at most one entry. -/
theorem length_filter_key_le {κ β : Type*} [DecidableEq κ] {l : List (κ × β)}
    (h : (l.map Prod.fst).Nodup) (k : κ) : (l.filter (·.1 = k)).length ≤ 1 := by
  have hcount := List.nodup_iff_count_le_one.mp h k
  rwa [List.count_eq_countP, List.countP_map, List.countP_eq_length_filter] at hcount

/-- And an entry that is there is the one. -/
theorem filter_key_eq {κ β : Type*} [DecidableEq κ] {l : List (κ × β)}
    (h : (l.map Prod.fst).Nodup) {x : κ × β} (hx : x ∈ l) : l.filter (·.1 = x.1) = [x] := by
  have hmem : x ∈ l.filter (·.1 = x.1) := List.mem_filter.mpr ⟨hx, by simp⟩
  have hlen := length_filter_key_le h x.1
  obtain ⟨y, hy⟩ : ∃ y, l.filter (·.1 = x.1) = [y] :=
    List.length_eq_one_iff.mp (Nat.le_antisymm hlen (List.length_pos_of_mem hmem))
  rw [hy] at hmem ⊢
  rw [List.mem_singleton.mp hmem]

end

/-- **Exactly once within the window.**  Take any run of a client and a session it created, with
at most `2^31` datagrams numbered; and any run of a server in which copies of the packets of these
datagrams are all that reaches the session of that id, sends succeed, the session does not expire,
and no packet of it is left in hand at the end.  Then the datagrams carry the numbers from the
session's start on, without wrap-around, and come from the source of the session; one whose first
copy arrives in reach of the window reaches the target exactly once and unchanged; every one
reaches it at most once; and nothing else does. -/
theorem exactly_once_within_window {ccfg : Client.ClientConfig} {counter : UInt64}
    {ces : List Client.Event} {cs : Client.State} {ctr : List Client.Obs}
    (hclient : (Client.machine ccfg counter).exec ces = some (cs, ctr))
    {o : Client.SessionObj} {sid : UInt64} {source : SocketAddr}
    (hcreated : .created o sid source ∈ ctr)
    (hcount : (Client.numbered ctr o).length ≤ 2 ^ 31)
    {scfg : Server.ServerConfig} {ses : List Server.Event} {ss : Server.State}
    {str : List Server.Obs} (hserver : (Server.machine scfg).exec ses = some (ss, str))
    (heach : (Server.machine scfg).Each (Undisturbed sid (Client.numbered ctr o)) ses)
    (hdone : ∀ t h, ss.handlers t = some h → h.sessionId ≠ sid) :
    (∃ first < 2147483647, ∀ (k : ℕ) (x : UInt32 × List UInt8),
      (Client.numbered ctr o)[k]? = some x →
        x.1.toNat = first + k ∧ .received source x.2 ∈ ctr ∧
        (InWindowAtFirst scfg.dedupWindow (Server.receivedBy ss str sid) x.1 →
          (Server.delivered str sid).filter (·.1 = x.1) = [x]) ∧
        ((Server.delivered str sid).filter (·.1 = x.1)).length ≤ 1) ∧
    ∀ x ∈ Server.delivered str sid, x ∈ Client.numbered ctr o := by
  have hnumbers := Client.numbers_exec hclient
  have hsingle := single_exec hserver heach
  have hnodup := hsingle.delivered_nodup hserver
  obtain ⟨first, hfirst, hnumber⟩ := Client.number_toNat hclient hcreated hcount
  refine ⟨⟨first, hfirst, fun k x hx => ⟨hnumber k x hx, ?_, fun hwin => ?_,
    length_filter_key_le hnodup x.1⟩⟩, fun x hx => hsingle.mem_of_delivered hx⟩
  · obtain ⟨sid', source', hc, hr⟩ := hnumbers.datagram o x (List.mem_of_getElem? hx)
    rwa [(hnumbers.owner o sid sid' source source' hcreated hc).2]
  · obtain ⟨payload, hmem⟩ := hsingle.delivered_of_inWindow hserver hdone hwin
    -- numbers do not repeat, so what was delivered under this number is this datagram
    obtain ⟨j, hj⟩ := List.mem_iff_getElem?.mp (hsingle.mem_of_delivered hmem)
    have hk := hnumber k x hx
    have hjk : j = k := by
      have hnum := hnumber j _ hj
      dsimp only at hnum
      omega
    rw [hjk, hx] at hj
    rw [← Option.some.inj hj] at hmem
    exact filter_key_eq hnodup hmem

/-! ### A run -/

section

open Fproxy.Server

/-- The tasks at which packets came in. -/
def arrivedAt (es : List Event) : List Task :=
  es.filterMap fun e => e.packet.map fun p => p.1.task

/-- A task handles a packet only after one came in. -/
theorem mem_arrivedAt_of_handler {scfg : ServerConfig} {es : List Event} {s : State}
    {tr : List Obs} (hrun : (Server.machine scfg).exec es = some (s, tr)) {t : Task}
    {h : Handler} (ht : s.handlers t = some h) : t ∈ arrivedAt es := by
  have hreq : Requests (fun source _ => source.task ∈ arrivedAt es) s tr := by
    refine Machine.exec_induction
      (P := fun es s tr => Requests (fun source _ => source.task ∈ arrivedAt es) s tr) _ ?_
      (fun es s tr e s' o _ hi hs => ?_) es s tr hrun
    · exact ⟨fun _ _ h => absurd h (by simp [machine]), fun _ _ _ _ _ h => absurd h List.not_mem_nil,
        fun _ _ _ ⟨_, h, _⟩ => absurd h (by simp [machine, Server.new])⟩
    · have happ : arrivedAt (es ++ [e]) = arrivedAt es ++ arrivedAt [e] := List.filterMap_append
      refine (hi.mono fun source data hm => ?_).act (act_of_machine hs) fun source data he => ?_
      · rw [happ]
        exact List.mem_append_left _ hm
      · rw [happ]
        exact List.mem_append_right _ (by simp [arrivedAt, he])
  have htask := hreq.handlers t h ht
  rwa [(handlersOpen_exec hrun t h ht).1] at htask

/-- A check of `Undisturbed`. -/
def undisturbed (sid : UInt64) (datagrams : List (UInt32 × List UInt8)) (s : State) (e : Event) :
    Bool :=
  (match e.packet with
    | some (_, data) =>
        match decodePacket data with
        | .ok (sid', seq, payload) => sid' ≠ sid || (seq, payload) ∈ datagrams
        | .error _ => true
    | none => true) &&
  match e with
  | .handler t _ _ ok => (s.handlers t).all fun h => h.sessionId ≠ sid || ok
  | .sweep now => !s.srv.expired now sid
  | _ => true

theorem undisturbed_of_check {sid : UInt64} {datagrams : List (UInt32 × List UInt8)} (s : State)
    (tr : List Obs) (e : Event) (h : undisturbed sid datagrams s e = true) :
    Undisturbed sid datagrams s tr e := by
  simp only [undisturbed, Bool.and_eq_true] at h
  obtain ⟨hpacket, hmove⟩ := h
  refine ⟨fun source data seq payload he hdec => ?_, fun t now b ok hd he ht hsid => ?_,
    fun now he => ?_⟩
  · simpa [he, hdec] using hpacket
  · subst he
    simpa [ht, hsid] using hmove
  · subst he
    simpa using hmove

/-- A source sends two datagrams; its session starts at 7. -/
def twoDatagrams : List Client.Event :=
  Client.Event.sourceSends demoAddr [1] ::
    List.replicate 11 (Client.Event.listener 10 7 true true) ++
    Client.Event.sourceSends demoAddr [2] :: List.replicate 8 (Client.Event.listener 11 0 true true)

/-- A copy of the first over UDP, one of the second over TCP, and the first again over TCP. -/
def threeCopies : List Event :=
  [Event.udpArrives 0 demoAddr (encodeUdp 1 7 [1])] ++
    List.replicate 6 (Event.handler (.listener 0) 20 true true) ++
    [Event.accept 0, Event.tcpArrives 0 (encodeTcp 1 8 [2])] ++
    List.replicate 6 (Event.handler (.conn 0) 21 true true) ++
    [Event.tcpArrives 0 (encodeTcp 1 7 [1])] ++
    List.replicate 3 (Event.handler (.conn 0) 22 true true)

end

/-- The second of two datagrams reaches the target once. -/
theorem exactly_once_within_window_two_datagrams :
    ∃ cs ctr ss str, (Client.machine Client.demoConfig 0).exec twoDatagrams = some (cs, ctr) ∧
      (Server.machine Server.demoConfig).exec threeCopies = some (ss, str) ∧
      Client.numbered ctr 0 = [(7, [1]), (8, [2])] ∧
      (Server.delivered str 1).filter (·.1 = 8) = [(8, [2])] := by
  have hclient : ((Client.machine Client.demoConfig 0).exec twoDatagrams).map
      (fun r => (Client.numbered r.2 0, decide (.created 0 1 demoAddr ∈ r.2))) =
      some ([(7, [1]), (8, [2])], true) := by decide
  obtain ⟨⟨cs, ctr⟩, hcrun, hc⟩ := Option.map_eq_some_iff.mp hclient
  simp only [Prod.mk.injEq, decide_eq_true_eq] at hc
  obtain ⟨hnum, hcreated⟩ := hc
  have hserver : ((Server.machine Server.demoConfig).exec threeCopies).map
      (fun r => (Server.receivedBy r.1 r.2 1, r.1.handlers (.listener 0), r.1.handlers (.conn 0))) =
      some ([7, 8, 7], none, none) := by decide
  obtain ⟨⟨ss, str⟩, hsrun, hs⟩ := Option.map_eq_some_iff.mp hserver
  simp only [Prod.mk.injEq] at hs
  obtain ⟨hrec, hudp, htcp⟩ := hs
  have hdone : ∀ t h, ss.handlers t = some h → h.sessionId ≠ 1 := by
    intro t h ht
    have hat : t ∈ [.listener 0, .conn 0, .conn 0] := mem_arrivedAt_of_handler hsrun ht
    simp only [List.mem_cons, List.not_mem_nil, or_false, or_self] at hat
    rcases hat with rfl | rfl
    · rw [hudp] at ht
      exact absurd ht (by simp)
    · rw [htcp] at ht
      exact absurd ht (by simp)
  have honce := exactly_once_within_window hcrun hcreated (by rw [hnum]; decide) hsrun
    (Machine.each_of_check undisturbed_of_check (by rw [hnum]; decide)) hdone
  obtain ⟨⟨first, _, hall⟩, _⟩ := honce
  have hwin : InWindowAtFirst Server.demoConfig.dedupWindow (Server.receivedBy ss str 1) 8 := by
    rw [hrec]
    exact ⟨[7], [7], rfl, by decide, by simp, by simp [Server.demoConfig]⟩
  exact ⟨cs, ctr, ss, str, hcrun, hsrun, hnum, (hall 1 (8, [2]) (by rw [hnum]; rfl)).2.2.1 hwin⟩

end Fproxy
