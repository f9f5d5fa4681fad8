import Fproxy.Client.Sending

/-!
# The numbers of the datagrams

A session object numbers the datagrams of its source one after the other, from a start below
`u32::MAX / 2`; the counter wraps around.

* `numbered tr o` — the numbers an object gave out, each with the datagram it went to.
* `Counted` — consecutive numbers from a start.
* `Numbers` — the invariant: the numbers of every object are counted, and every packet sent
  carries a number of its session together with the datagram it was given to.
* `numbers_exec` — it holds after every run; `number_toNat` — up to `2^31` datagrams the counter
  does not wrap.
-/

namespace Fproxy.Client

open Fproxy.Runs Fproxy.Protocol Fproxy.TcpFraming

/-- The numbers an object gave out, each with the datagram it went to, oldest first. -/
def numbered (tr : List Obs) (o : SessionObj) : List (UInt32 × List UInt8) :=
  tr.filterMap fun
    | .numbered o' seq payload => if o' = o then some (seq, payload) else none
    | _ => none

@[simp] theorem numbered_append (tr tr' : List Obs) (o : SessionObj) :
    numbered (tr ++ tr') o = numbered tr o ++ numbered tr' o := List.filterMap_append

/-! ### Consecutive numbers -/

/-- The numbers run on from `first`, and `next` is the one after the last. -/
structure Counted (first next : UInt32) (xs : List (UInt32 × List UInt8)) : Prop where
  next_eq : next = first + UInt32.ofNat xs.length
  number : ∀ (k : ℕ) (x : UInt32 × List UInt8), xs[k]? = some x → x.1 = first + UInt32.ofNat k

theorem counted_nil (first : UInt32) : Counted first first [] where
  next_eq := by simp
  number := fun k x h => absurd h (by simp)

/-- One more number. -/
theorem Counted.snoc {first next : UInt32} {xs : List (UInt32 × List UInt8)}
    (h : Counted first next xs) (payload : List UInt8) :
    Counted first (next + 1) (xs ++ [(next, payload)]) where
  next_eq := by
    rw [h.next_eq, List.length_append, List.length_singleton, UInt32.ofNat_add, UInt32.add_assoc]
    rfl
  number := by
    intro k x hx
    rcases Nat.lt_trichotomy k xs.length with hk | hk | hk
    · rw [List.getElem?_append_left hk] at hx
      exact h.number k x hx
    · rw [hk, List.getElem?_concat_length, Option.some.injEq] at hx
      rw [← hx, hk]
      exact h.next_eq
    · rw [List.getElem?_eq_none (by simp; omega)] at hx
      exact absurd hx (by simp)

/-- As long as the counter does not wrap around, the numbers are those of a list. -/
theorem Counted.toNat {first next : UInt32} {xs : List (UInt32 × List UInt8)}
    (h : Counted first next xs) (hwrap : first.toNat + xs.length ≤ 2 ^ 32) {k : ℕ}
    {x : UInt32 × List UInt8} (hx : xs[k]? = some x) : x.1.toNat = first.toNat + k := by
  have hk : k < xs.length := (List.getElem?_eq_some_iff.mp hx).1
  rw [h.number k x hx, UInt32.toNat_add, UInt32.toNat_ofNat_of_lt' (by rw [UInt32.size]; omega)]
  exact Nat.mod_eq_of_lt (by omega)

/-- `rand % (u32::MAX / 2)` is below `u32::MAX / 2`. -/
theorem initialSeq_lt (random : UInt32) : (initialSeq random).toNat < 2147483647 := by
  rw [initialSeq, UInt32.toNat_mod]
  exact Nat.mod_lt _ (by decide)

/-! ### The invariant -/

/-- The object `handle_packet` works on and the number it took, once it has one. -/
def SendPc.taken : SendPc → Option (SessionObj × UInt32)
  | .lookup => none
  | .create => none
  | .number _ => none
  | .touch o seq => some (o, seq)
  | .udp o seq _ => some (o, seq)
  | .tcp o seq _ => some (o, seq)
  | .tcpCreate o seq _ _ => some (o, seq)
  | .tcpTouch o seq _ _ => some (o, seq)
  | .tcpSend o seq _ _ => some (o, seq)

/-- A packet of some session, with a number of that session and the datagram that got it. -/
def NumberedPacket (tr : List Obs) (packet : List UInt8) : Prop :=
  ∃ o sid source seq payload, .created o sid source ∈ tr ∧ (seq, payload) ∈ numbered tr o ∧
    packet = encodePacket sid seq payload

/-- An observation the invariant is about. -/
def Obs.numbering : Obs → Bool
  | .created _ _ _ => true
  | .numbered _ _ _ => true
  | .sentUdp _ _ => true
  | .sentTcp _ _ => true
  | _ => false

/-- What the numbers satisfy along every run. -/
structure Numbers (s : State) (tr : List Obs) : Prop where
  allocated : ∀ o sid source, .created o sid source ∈ tr → o < s.cl.next
  owner : ∀ o sid sid' source source', .created o sid source ∈ tr →
    .created o sid' source' ∈ tr → sid = sid' ∧ source = source'
  fresh : ∀ o, s.cl.next ≤ o → numbered tr o = []
  counted : ∀ o, o < s.cl.next → ∃ random,
    Counted (initialSeq random) (s.cl.heap o).seq (numbered tr o)
  datagram : ∀ o x, x ∈ numbered tr o → ∃ sid source, .created o sid source ∈ tr ∧
    .received source x.2 ∈ tr
  inHand : ∀ h o seq, s.sending = some h → h.pc.taken = some (o, seq) →
    (seq, h.payload) ∈ numbered tr o
  sentUdp : ∀ i packet, .sentUdp i packet ∈ tr → NumberedPacket tr packet
  sentTcp : ∀ c frame, .sentTcp c frame ∈ tr → ∃ packet, frame = tcpFrame packet ∧
    NumberedPacket tr packet

theorem NumberedPacket.append {tr obs : List Obs} {packet : List UInt8}
    (h : NumberedPacket tr packet) : NumberedPacket (tr ++ obs) packet := by
  obtain ⟨o, sid, source, seq, payload, hc, hn, he⟩ := h
  exact ⟨o, sid, source, seq, payload, List.mem_append_left _ hc,
    by rw [numbered_append]; exact List.mem_append_left _ hn, he⟩

namespace Numbers

variable {s s' : State} {tr obs : List Obs}

theorem numbered_of_silent (hobs : ∀ x ∈ obs, x.numbering = false) (o : SessionObj) :
    numbered obs o = [] := by
  rw [numbered, List.filterMap_eq_nil_iff]
  intro x hx
  have hq := hobs x hx
  cases x <;> simp_all [Obs.numbering]

/-- Frame rule: a move that creates no object, takes no number and sends at most packets that are
already accounted for. -/
theorem frame (hi : Numbers s tr) (hnext : s'.cl.next = s.cl.next)
    (hseq : ∀ o, (s'.cl.heap o).seq = (s.cl.heap o).seq)
    (hcreated : ∀ o sid source, .created o sid source ∉ obs) (hnone : ∀ o, numbered obs o = [])
    (hhand : ∀ h o seq, s'.sending = some h → h.pc.taken = some (o, seq) →
      (seq, h.payload) ∈ numbered tr o)
    (hudp : ∀ i packet, .sentUdp i packet ∈ obs → NumberedPacket tr packet)
    (htcp : ∀ c frame, .sentTcp c frame ∈ obs → ∃ packet, frame = tcpFrame packet ∧
      NumberedPacket tr packet) : Numbers s' (tr ++ obs) := by
  have hnum : ∀ o, numbered (tr ++ obs) o = numbered tr o := fun o => by
    rw [numbered_append, hnone, List.append_nil]
  have hold : ∀ {o sid source}, .created o sid source ∈ tr ++ obs → .created o sid source ∈ tr :=
    fun h => (List.mem_append.mp h).resolve_right (hcreated _ _ _)
  refine ⟨fun o sid source h => hnext ▸ hi.allocated o sid source (hold h),
    fun o sid sid' source source' h h' => hi.owner o sid sid' source source' (hold h) (hold h'),
    fun o h => ?_, fun o h => ?_, fun o x h => ?_, fun h o seq hs hn => ?_,
    fun i packet h => ?_, fun c frame h => ?_⟩
  · rw [hnum]
    exact hi.fresh o (hnext ▸ h)
  · rw [hnum, hseq]
    exact hi.counted o (hnext ▸ h)
  · rw [hnum] at h
    obtain ⟨sid, source, hc, hr⟩ := hi.datagram o x h
    exact ⟨sid, source, List.mem_append_left _ hc, List.mem_append_left _ hr⟩
  · rw [hnum]
    exact hhand h o seq hs hn
  · rcases List.mem_append.mp h with h | h
    · exact (hi.sentUdp i packet h).append
    · exact (hudp i packet h).append
  · rcases List.mem_append.mp h with h | h
    · exact (hi.sentTcp c frame h).imp fun _ hp => ⟨hp.1, hp.2.append⟩
    · exact (htcp c frame h).imp fun _ hp => ⟨hp.1, hp.2.append⟩

/-- Frame rule for the moves that the invariant does not notice. -/
theorem frameSilent (hi : Numbers s tr) (hnext : s'.cl.next = s.cl.next)
    (hseq : ∀ o, (s'.cl.heap o).seq = (s.cl.heap o).seq)
    (hhand : ∀ h o seq, s'.sending = some h → h.pc.taken = some (o, seq) →
      (seq, h.payload) ∈ numbered tr o)
    (hobs : ∀ x ∈ obs, x.numbering = false) : Numbers s' (tr ++ obs) :=
  hi.frame hnext hseq (fun _ _ _ h => absurd (hobs _ h) (by simp [Obs.numbering]))
    (numbered_of_silent hobs) hhand (fun _ _ h => absurd (hobs _ h) (by simp [Obs.numbering]))
    (fun _ _ h => absurd (hobs _ h) (by simp [Obs.numbering]))

/-- A fresh object has given out no number. -/
theorem create (hi : Numbers s tr) {h : Sending} {random : UInt32} {now : ℕ}
    (hnone : s.cl.udpSessions h.source = none) :
    Numbers { s with
        cl := (s.cl.createUdpSession h.source random now).1
        sending := some { h with pc := .number s.cl.next } }
      (tr ++ [Obs.created s.cl.next (allocateSessionId s.cl.sessionIdCounter) h.source]) := by
  have hnum : ∀ o, numbered (tr ++ [Obs.created s.cl.next
      (allocateSessionId s.cl.sessionIdCounter) h.source]) o = numbered tr o := fun o => by
    rw [numbered_append]
    exact List.append_nil _
  have hnext : (s.cl.createUdpSession h.source random now).1.next = s.cl.next + 1 := by
    simp only [createUdpSession, hnone]
  refine ⟨fun o sid source hm => ?_, fun o sid sid' source source' hm hm' => ?_, fun o ho => ?_,
    fun o ho => ?_, fun o x hx => ?_, fun h' o seq hs hn => ?_, fun i packet hm => ?_,
    fun c frame hm => ?_⟩
  · show o < (s.cl.createUdpSession h.source random now).1.next
    rw [hnext]
    rcases List.mem_append.mp hm with hm | hm
    · exact Nat.lt_succ_of_lt (hi.allocated o sid source hm)
    · obtain ⟨rfl, _, _⟩ := Obs.created.inj (List.mem_singleton.mp hm)
      exact Nat.lt_succ_self _
  · rcases List.mem_append.mp hm with hm | hm <;> rcases List.mem_append.mp hm' with hm' | hm'
    · exact hi.owner o sid sid' source source' hm hm'
    · obtain ⟨rfl, _, _⟩ := Obs.created.inj (List.mem_singleton.mp hm')
      exact absurd (hi.allocated _ sid source hm) (Nat.lt_irrefl _)
    · obtain ⟨rfl, _, _⟩ := Obs.created.inj (List.mem_singleton.mp hm)
      exact absurd (hi.allocated _ sid' source' hm') (Nat.lt_irrefl _)
    · obtain ⟨_, rfl, rfl⟩ := Obs.created.inj (List.mem_singleton.mp hm)
      obtain ⟨_, rfl, rfl⟩ := Obs.created.inj (List.mem_singleton.mp hm')
      exact ⟨rfl, rfl⟩
  · rw [hnum]
    have ho : s.cl.next + 1 ≤ o := by rwa [← hnext]
    exact hi.fresh o (Nat.le_of_succ_le ho)
  · rw [hnum]
    have ho : o < s.cl.next + 1 := by rwa [← hnext]
    show ∃ random', Counted (initialSeq random')
      ((s.cl.createUdpSession h.source random now).1.heap o).seq (numbered tr o)
    by_cases he : o = s.cl.next
    · refine ⟨random, ?_⟩
      simp only [createUdpSession, hnone, he, Function.update_self]
      rw [hi.fresh _ (le_refl _)]
      exact counted_nil _
    · simp only [createUdpSession, hnone, Function.update_of_ne he]
      exact hi.counted o (Nat.lt_of_le_of_ne (Nat.le_of_lt_succ ho) he)
  · rw [hnum] at hx
    obtain ⟨sid, source, hc, hr⟩ := hi.datagram o x hx
    exact ⟨sid, source, List.mem_append_left _ hc, List.mem_append_left _ hr⟩
  · rw [← Option.some.inj hs] at hn
    exact absurd hn (by simp [SendPc.taken])
  · rcases List.mem_append.mp hm with hm | hm
    · exact (hi.sentUdp i packet hm).append
    · exact absurd (List.mem_singleton.mp hm) (by simp)
  · rcases List.mem_append.mp hm with hm | hm
    · exact (hi.sentTcp c frame hm).imp fun _ hp => ⟨hp.1, hp.2.append⟩
    · exact absurd (List.mem_singleton.mp hm) (by simp)

/-- One more number is given out. -/
theorem take (hi : Numbers s tr) (hobj : Objects s tr) (hsend : Sends s tr) {h : Sending}
    {o : SessionObj} (hs : s.sending = some h) (hpc : h.pc = .number o) :
    Numbers { s with
        cl := (s.cl.takeSeq o).2
        sending := some { h with pc := .touch o (s.cl.heap o).seq } }
      (tr ++ [Obs.numbered o (s.cl.heap o).seq h.payload]) := by
  have hown : Owns s.cl tr h.source o := hobj.sending h o hs (by rw [hpc]; rfl)
  have hnum : ∀ o', numbered (tr ++ [Obs.numbered o (s.cl.heap o).seq h.payload]) o' =
      numbered tr o' ++ if o = o' then [((s.cl.heap o).seq, h.payload)] else [] := by
    intro o'
    rw [numbered_append]
    by_cases he : o = o' <;> simp [numbered, he]
  have hold : ∀ {o' sid source},
      Obs.created o' sid source ∈ tr ++ [Obs.numbered o (s.cl.heap o).seq h.payload] →
        .created o' sid source ∈ tr :=
    fun hm => (List.mem_append.mp hm).resolve_right fun hm =>
      absurd (List.mem_singleton.mp hm) (by simp)
  refine ⟨fun o' sid source hm => hi.allocated o' sid source (hold hm),
    fun o' sid sid' source source' hm hm' =>
      hi.owner o' sid sid' source source' (hold hm) (hold hm'),
    fun o' ho => ?_, fun o' ho => ?_, fun o' x hx => ?_, fun h' o' seq hs' hn => ?_,
    fun i packet hm => ?_, fun c frame hm => ?_⟩
  · have hne : o ≠ o' := fun he => absurd hown.1 (by rw [he]; exact Nat.not_lt.mpr ho)
    rw [hnum, if_neg hne, List.append_nil]
    exact hi.fresh o' ho
  · obtain ⟨random, hc⟩ := hi.counted o' ho
    refine ⟨random, ?_⟩
    show Counted _ ((s.cl.takeSeq o).2.heap o').seq _
    rw [hnum, takeSeq_seq]
    by_cases he : o' = o
    · subst he
      rw [if_pos rfl, if_pos rfl]
      exact hc.snoc h.payload
    · rw [if_neg he, if_neg (fun h => he h.symm), List.append_nil]
      exact hc
  · rw [hnum] at hx
    rcases List.mem_append.mp hx with hx | hx
    · obtain ⟨sid, source, hc, hr⟩ := hi.datagram o' x hx
      exact ⟨sid, source, List.mem_append_left _ hc, List.mem_append_left _ hr⟩
    · split at hx
      · next he =>
          rw [List.mem_singleton.mp hx, ← he]
          exact ⟨_, h.source, List.mem_append_left _ hown.2,
            List.mem_append_left _ (hsend.payload h hs)⟩
      · exact absurd hx List.not_mem_nil
  · rw [← Option.some.inj hs'] at hn ⊢
    obtain ⟨rfl, rfl⟩ := Prod.mk.inj (Option.some.inj hn)
    rw [hnum, if_pos rfl]
    exact List.mem_append_right _ (List.mem_singleton_self _)
  · rcases List.mem_append.mp hm with hm | hm
    · exact (hi.sentUdp i packet hm).append
    · exact absurd (List.mem_singleton.mp hm) (by simp)
  · rcases List.mem_append.mp hm with hm | hm
    · exact (hi.sentTcp c frame hm).imp fun _ hp => ⟨hp.1, hp.2.append⟩
    · exact absurd (List.mem_singleton.mp hm) (by simp)

/-- The packet for a datagram in hand. -/
theorem numberedPacket (hi : Numbers s tr) (hobj : Objects s tr) {h : Sending} {o : SessionObj}
    {seq : UInt32} (hs : s.sending = some h) (ho : h.pc.obj = some o)
    (hn : h.pc.taken = some (o, seq)) :
    NumberedPacket tr (encodePacket (s.cl.heap o).sessionId seq h.payload) :=
  ⟨o, _, h.source, seq, h.payload, (hobj.sending h o hs ho).2, hi.inHand h o seq hs hn, rfl⟩

/-- The step lemma. -/
theorem act {e : Event} (hi : Numbers s tr) (hobj : Objects s tr) (hsend : Sends s tr)
    (ha : Act s e s' obs) : Numbers s' (tr ++ obs) := by
  have hnil : ∀ x ∈ ([] : List Obs), x.numbering = false := fun _ h => absurd h List.not_mem_nil
  -- a handler that keeps its number, and one that has none yet
  have hkeep : ∀ {h : Sending} {o : SessionObj} {seq : UInt32} {pc : SendPc},
      s.sending = some h → h.pc.taken = some (o, seq) → pc.taken = some (o, seq) →
        ∀ h₁ o₁ seq₁, some { h with pc := pc } = some h₁ → h₁.pc.taken = some (o₁, seq₁) →
          (seq₁, h₁.payload) ∈ numbered tr o₁ := by
    intro h o seq pc hs hn hpc h₁ o₁ seq₁ hset hn₁
    rw [← Option.some.inj hset] at hn₁ ⊢
    obtain ⟨rfl, rfl⟩ := Prod.mk.inj (Option.some.inj (hpc.symm.trans hn₁))
    exact hi.inHand h o seq hs hn
  have hfree : ∀ {h : Sending}, h.pc.taken = none → ∀ h₁ o₁ seq₁, some h = some h₁ →
      h₁.pc.taken = some (o₁, seq₁) → (seq₁, h₁.payload) ∈ numbered tr o₁ := by
    intro h hpc h₁ o₁ seq₁ hset hn₁
    rw [← Option.some.inj hset, hpc] at hn₁
    exact absurd hn₁ (by simp)
  cases ha with
  | sourceSends _ =>
      exact hi.frameSilent rfl (fun _ => rfl) (hfree rfl) (by simp [Obs.numbering])
  | lookupHit _ _ _ => exact hi.frameSilent rfl (fun _ => rfl) (hfree rfl) hnil
  | lookupMiss _ _ _ => exact hi.frameSilent rfl (fun _ => rfl) (hfree rfl) hnil
  | createHit _ _ _ => exact hi.frameSilent rfl (fun _ => rfl) (hfree rfl) hnil
  | createNew _ _ hnone => exact hi.create hnone
  | number hs hpc => exact hi.take hobj hsend hs hpc
  | touch hs hpc =>
      exact hi.frameSilent rfl (touch_seq _ _ · _) (hkeep hs (by rw [hpc]; rfl) rfl) hnil
  | udpDone hs hpc =>
      exact hi.frameSilent rfl (fun _ => rfl) (hkeep hs (by rw [hpc]; rfl) rfl) hnil
  | @udpSend h o seq i senders now random b b' hs hpc =>
      have hpacket := hi.numberedPacket hobj hs (by rw [hpc]; rfl) (by rw [hpc]; rfl)
      refine hi.frame rfl (fun _ => rfl) (fun _ _ _ hm => ?_) (fun _ => by cases b' <;> rfl)
        (hkeep hs (by rw [hpc]; rfl) rfl) (fun i' packet hm => ?_) (fun c frame hm => ?_) <;>
        cases b'
      · exact absurd hm List.not_mem_nil
      · exact absurd (List.mem_singleton.mp hm) (by simp)
      · exact absurd hm List.not_mem_nil
      · obtain ⟨_, rfl⟩ := Obs.sentUdp.inj (List.mem_singleton.mp hm)
        exact hpacket
      · exact absurd hm List.not_mem_nil
      · exact absurd (List.mem_singleton.mp hm) (by simp)
  | tcpDone _ _ => exact hi.frameSilent rfl (fun _ => rfl) (fun _ _ _ h => absurd h (by simp)) hnil
  | tcpHit hs hpc _ =>
      exact hi.frameSilent rfl (fun _ => rfl) (hkeep hs (by rw [hpc]; rfl) rfl) hnil
  | tcpMiss hs hpc _ =>
      exact hi.frameSilent rfl (fun _ => rfl) (hkeep hs (by rw [hpc]; rfl) rfl) hnil
  | tcpCreateHit hs hpc _ =>
      exact hi.frameSilent rfl (fun _ => rfl) (hkeep hs (by rw [hpc]; rfl) rfl) hnil
  | tcpCreateFail hs hpc _ =>
      exact hi.frameSilent rfl (fun _ => rfl) (hkeep hs (by rw [hpc]; rfl) rfl) hnil
  | @tcpCreateNew h o seq server servers now random b' hs hpc hnone =>
      refine hi.frameSilent ?_ (fun _ => ?_) (hkeep hs (by rw [hpc]; rfl) rfl)
        (by simp [Obs.numbering]) <;> simp only [createTcpSession, hnone, if_true]
  | tcpTouch hs hpc =>
      exact hi.frameSilent rfl (fun _ => rfl) (hkeep hs (by rw [hpc]; rfl) rfl) hnil
  | @tcpSend h o seq c servers frame now random b b' hs hpc hframe =>
      have hpacket := hi.numberedPacket hobj hs (by rw [hpc]; rfl) (by rw [hpc]; rfl)
      refine hi.frame rfl (fun _ => rfl) (fun _ _ _ hm => ?_) (fun _ => by cases b' <;> rfl)
        (hkeep hs (by rw [hpc]; rfl) rfl) (fun i packet hm => ?_) (fun c' frame' hm => ?_) <;>
        cases b'
      · exact absurd hm List.not_mem_nil
      · exact absurd (List.mem_singleton.mp hm) (by simp)
      · exact absurd hm List.not_mem_nil
      · exact absurd (List.mem_singleton.mp hm) (by simp)
      · exact absurd hm List.not_mem_nil
      · obtain ⟨_, rfl⟩ := Obs.sentTcp.inj (List.mem_singleton.mp hm)
        exact ⟨_, tcpFrameFor_eq hframe, hpacket⟩
  | tcpTooLarge hs hpc _ =>
      exact hi.frameSilent rfl (fun _ => rfl) (hkeep hs (by rw [hpc]; rfl) rfl) hnil
  | cleanup _ =>
      refine hi.frameSilent ?_ (fun _ => ?_) hi.inHand hnil <;> simp [setReader]
  | checkDup _ _ _ =>
      exact hi.frameSilent rfl (checkResponse_seq _ _ · _) hi.inHand (by simp [Obs.numbering])
  | checkNew _ _ _ =>
      exact hi.frameSilent rfl (checkResponse_seq _ _ · _) hi.inHand (by simp [Obs.numbering])
  | responseTouch _ _ => exact hi.frameSilent rfl (touch_seq _ _ · _) hi.inHand hnil
  | forward _ _ =>
      exact hi.frameSilent rfl (fun _ => rfl) hi.inHand (by simp [Obs.numbering])
  | _ => exact hi.frameSilent rfl (fun _ => rfl) hi.inHand hnil

end Numbers

/-- The run lemma. -/
theorem numbers_exec {cfg : ClientConfig} {counter : UInt64} {es : List Event} {s : State}
    {tr : List Obs} (hrun : (machine cfg counter).exec es = some (s, tr)) : Numbers s tr := by
  refine Machine.exec_induction (P := fun _ s tr => Numbers s tr) _ ?_
    (fun _ _ _ _ _ _ hrun hi hs =>
      hi.act (objects_exec hrun) (sends_exec hrun) (act_of_machine hs)) es s tr hrun
  exact ⟨fun _ _ _ h => absurd h List.not_mem_nil, fun _ _ _ _ _ h => absurd h List.not_mem_nil,
    fun _ _ => rfl, fun _ h => absurd h (Nat.not_lt_zero _),
    fun _ _ h => absurd h List.not_mem_nil, fun _ _ _ h => absurd h (by simp [machine]),
    fun _ _ h => absurd h List.not_mem_nil, fun _ _ h => absurd h List.not_mem_nil⟩

/-- **No wrap-around.**  The first `2^31` datagrams of a session get the numbers from its start on,
in order. -/
theorem number_toNat {cfg : ClientConfig} {counter : UInt64} {es : List Event} {s : State}
    {tr : List Obs} (hrun : (machine cfg counter).exec es = some (s, tr)) {o : SessionObj}
    {sid : UInt64} {source : SocketAddr} (ho : .created o sid source ∈ tr)
    (hlen : (numbered tr o).length ≤ 2 ^ 31) :
    ∃ first < 2147483647, ∀ (k : ℕ) (x : UInt32 × List UInt8), (numbered tr o)[k]? = some x →
      x.1.toNat = first + k := by
  have hi := numbers_exec hrun
  obtain ⟨random, hc⟩ := hi.counted o (hi.allocated o sid source ho)
  have hfirst := initialSeq_lt random
  exact ⟨_, hfirst, fun k x hx => hc.toNat (by omega) hx⟩

end Fproxy.Client
