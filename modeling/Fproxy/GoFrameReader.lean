import Fproxy.GoFrameWriter

/-!
# The Go client's frames at the servers

`sendTCPFrame` of the Go client at one end of a connection, the read loop of a server at the other.
The connection takes a frame piece by piece and hands its bytes on in any chunks.

* `handleTCPConn` — the read loop of the Go server; `handleTCPConn_eq` — it is that of the Rust
  server.
* `acks` — the writer, observed through the calls that return without an error.
* `go_sends_arrive` — what was acknowledged arrives, in order, and nothing else does but frames
  that were sent.
-/

namespace Fproxy.GoFrameWriter

open Fproxy.BigEndian Fproxy.Buffer Fproxy.Framing Fproxy.PartialWrites Fproxy.Runs
  Fproxy.TcpFraming

/-! ### The read loop of the Go server -/

/-- `int(lenBuf[0])<<8 | int(lenBuf[1])`. -/
def lengthOf : List UInt8 → ℕ
  | [hi, lo] => hi.toNat <<< 8 ||| lo.toNat
  | _ => 0

theorem lengthOf_eq {lenBuf : List UInt8} (h : lenBuf.length = 2) :
    lengthOf lenBuf = readLength lenBuf := by
  match lenBuf, h with
  | [hi, lo], _ =>
      have hlt : ofBytes [hi, lo] < UInt16.size :=
        Nat.lt_of_lt_of_eq (ofBytes_lt [hi, lo]) (by simp [UInt16.size])
      have hlo : ofBytes [lo] = lo.toNat := by simp [ofBytes]
      rw [readLength, UInt16.toNat_ofNat_of_lt' hlt, ofBytes_cons_or, hlo]
      rfl

/-- The read loop of `handleTCPConn` on a connection whose bytes arrive in the chunks `cs` and which
then reaches its end: the packets handed to `handleTCPPacket`, and why the loop ended. -/
def handleTCPConn (cs : List (List UInt8)) : List (List UInt8) × ConnExit :=
  match _h₁ : readExact 2 cs with
  | none => ([], .eof)
  | some (lenBuf, cs₁) =>
      let length := lengthOf lenBuf
      if length = 0 ∨ 65535 < length then ([], .invalidLength length)
      else
        match _h₂ : readExact length cs₁ with
        | none => ([], .shortBody)
        | some (data, cs₂) => (data :: (handleTCPConn cs₂).1, (handleTCPConn cs₂).2)
termination_by cs.flatten.length
decreasing_by
  all_goals
    obtain ⟨hlen, hflat⟩ := readExact_eq_some _h₁
    obtain ⟨_, hflat'⟩ := readExact_eq_some _h₂
    rw [hflat, hflat', List.length_append, List.length_append, hlen]
    omega

/-- The Rust loop at the end of the stream. -/
theorem handleTcpConn_of_end {cs : List (List UInt8)} (h : readExact 2 cs = none) :
    handleTcpConn cs = ([], .eof) := by
  rw [handleTcpConn]
  split
  · rfl
  · next h' => exact absurd (h.symm.trans h') (by simp)

/-- The Rust loop with a length read. -/
theorem handleTcpConn_of_length {cs cs₁ : List (List UInt8)} {lenBuf : List UInt8}
    (h : readExact 2 cs = some (lenBuf, cs₁)) :
    handleTcpConn cs =
      if readLength lenBuf = 0 ∨ maxTcpFrameSize < readLength lenBuf then
        ([], .invalidLength (readLength lenBuf))
      else match readExact (readLength lenBuf) cs₁ with
        | none => ([], .shortBody)
        | some (data, cs₂) => (data :: (handleTcpConn cs₂).1, (handleTcpConn cs₂).2) := by
  rw [handleTcpConn]
  split
  · next h' => exact absurd (h.symm.trans h') (by simp)
  · next h' =>
      obtain ⟨rfl, rfl⟩ := Prod.mk.inj (Option.some.inj (h.symm.trans h'))
      dsimp only
      split
      · rfl
      · split <;> rename_i h₂ <;> rw [h₂]

/-- **The read loops of the two servers are the same.** -/
theorem handleTCPConn_eq (cs : List (List UInt8)) : handleTCPConn cs = handleTcpConn cs := by
  have hlength : ∀ {cs cs₁ : List (List UInt8)} {lenBuf : List UInt8},
      readExact 2 cs = some (lenBuf, cs₁) → lengthOf lenBuf = readLength lenBuf :=
    fun h => lengthOf_eq (readExact_eq_some h).1
  fun_induction handleTCPConn cs with
  | case1 cs h₁ => rw [handleTcpConn_of_end h₁]
  | case2 cs lenBuf cs₁ h₁ length hbad =>
      rw [show length = readLength lenBuf from hlength h₁] at hbad ⊢
      rw [handleTcpConn_of_length h₁, maxTcpFrameSize, if_pos hbad]
  | case3 cs lenBuf cs₁ h₁ length hbad h₂ =>
      rw [show length = readLength lenBuf from hlength h₁] at hbad h₂
      rw [handleTcpConn_of_length h₁, maxTcpFrameSize, if_neg hbad, h₂]
  | case4 cs lenBuf cs₁ h₁ length hbad data cs₂ h₂ ih =>
      rw [show length = readLength lenBuf from hlength h₁] at hbad h₂
      rw [handleTcpConn_of_length h₁, maxTcpFrameSize, if_neg hbad, h₂, ih]

/-! ### What the loop makes of a stream of frames -/

/-- A frame that is not out as a whole is no frame to the reader. -/
theorem next_of_part {data part : List UInt8} (hfits : data.length ≤ maxTcpFrameSize)
    (hne : data ≠ []) (hpre : part <+: makeFrame data) (hpart : part ≠ makeFrame data) :
    next tcpFormat part = none := by
  obtain ⟨suffix, hs⟩ := hpre
  rw [makeFrame_eq, tcpFrame] at hs hpart
  have hheads := heads_lengthPrefix hfits hne
  by_cases hshort : part.length < tcpFormat.headerSize
  · exact next_of_short hshort
  · have hlong : 2 ≤ part.length := Nat.not_lt.mp hshort
    have htake : part.take 2 = lengthPrefix data := by
      have hlen : (lengthPrefix data).length = 2 := hheads.size
      have h := congrArg (List.take 2) hs
      rw [List.take_left' hlen, List.take_append_of_le_length hlong] at h
      exact h
    have hsplit : part = lengthPrefix data ++ part.drop 2 := by
      rw [← htake, List.take_append_drop]
    have hbody : part.drop 2 ++ suffix = data := by
      rw [hsplit, List.append_assoc] at hs
      exact List.append_cancel_left hs
    have hsuffix : suffix ≠ [] := by
      intro h
      rw [h, List.append_nil] at hs
      exact hpart hs
    rw [hsplit]
    refine next_of_short_body hheads.size hheads.length ?_
    have hpos := List.length_pos_iff.mpr hsuffix
    have hlen := congrArg List.length hbody
    rw [List.length_append] at hlen
    omega

/-- The data of a frame. -/
def body (p : Piece UInt8) : List UInt8 := p.whole.drop 2

theorem body_of_whole {p : Piece UInt8} {data : List UInt8} (h : p.whole = makeFrame data) :
    body p = data := by
  have hlen : (lengthPrefix data).length = 2 := toBytes_length _ _
  rw [body, h, makeFrame_eq, tcpFrame, List.drop_left' hlen]

/-- **The reader of a silent stream** is handed the data of the frames that are out as a whole. -/
theorem handleTcpConn_of_silent {ps : List (Piece UInt8)} {chunks : List (List UInt8)}
    (hmade : ∀ p ∈ ps, ∃ data, data.length ≤ maxTcpFrameSize ∧ p.whole = makeFrame data)
    (hne : ∀ p ∈ ps, body p ≠ []) (hsilent : Silent ps) (hflat : chunks.flatten = stream ps) :
    (handleTcpConn chunks).1 = (ps.filter Piece.full).map body := by
  obtain ⟨part, hstream, hpart⟩ := stream_of_silent_eq hsilent
  have hframed : Framed tcpFormat ((ps.filter Piece.full).map body)
      ((ps.filter Piece.full).map Piece.whole).flatten := by
    refine framed_of_sent (fun d hd => ?_) ?_
    · obtain ⟨p, hp, rfl⟩ := List.mem_map.mp hd
      exact hne p (List.mem_of_mem_filter hp)
    · rw [List.map_map, List.map_map]
      refine List.map_congr_left fun p hp => ?_
      obtain ⟨data, hfits, hwhole⟩ := hmade p (List.mem_of_mem_filter hp)
      show sendTcpFrame (body p) = .ok p.whole
      rw [body_of_whole hwhole, hwhole, makeFrame_eq, sendTcpFrame, if_neg (Nat.not_lt.mpr hfits)]
  have hrest : parse tcpFormat part = ([], part) := by
    refine parse_of_none ?_
    rcases hpart with rfl | ⟨p, hp, hpre, hproper⟩
    · rfl
    · obtain ⟨data, hfits, hwhole⟩ := hmade p hp
      have hdata : data ≠ [] := body_of_whole hwhole ▸ hne p hp
      rw [hwhole] at hpre hproper
      exact next_of_part hfits hdata hpre hproper
  rw [handleTcpConn_eq, hflat, hstream, hframed.parse_append, hrest, List.append_nil]

/-! ### Acknowledged calls -/

/-- The data of the call in progress. -/
def calling (s : State) : List UInt8 := (s.current.map body).getD []

/-- The writer, observed through the data of the calls that return `nil`. -/
def acks : Machine State Event (List UInt8) where
  init := machine.init
  step s e := (step s e).map fun r => (r.1, if .ok ∈ r.2 then [calling s] else [])

/-- The data that calls were made with. -/
def sent (es : List Event) : List (List UInt8) :=
  es.filterMap fun e => match e with
    | .send data => some data
    | .write _ _ => none

/-- A call that returns `nil` has brought its frame out as a whole. -/
theorem past_of_step {s s' : State} {e : Event} {obs : List SendResult}
    (h : step s e = some (s', obs)) :
    s.past <+: s'.past ∧
      (.ok ∈ obs → ∃ p q, s.current = some p ∧ q.whole = p.whole ∧ q.full = true ∧
        s'.past = s.past ++ [q]) := by
  cases e with
  | send data =>
      simp only [step] at h
      split at h
      · obtain ⟨rfl, rfl⟩ := Prod.mk.inj (Option.some.inj h)
        exact ⟨List.prefix_refl _, fun hok => absurd hok (by simp)⟩
      · split at h
        · exact absurd h (by simp)
        · split at h
          · obtain ⟨rfl, rfl⟩ := Prod.mk.inj (Option.some.inj h)
            exact ⟨List.prefix_refl _, fun hok => absurd hok (by simp)⟩
          · obtain ⟨rfl, rfl⟩ := Prod.mk.inj (Option.some.inj h)
            exact ⟨List.prefix_refl _, fun hok => absurd hok (by simp)⟩
  | write n err =>
      simp only [step] at h
      split at h
      · exact absurd h (by simp)
      · next p hcur =>
          split at h
          · exact absurd h (by simp)
          · split at h
            · obtain ⟨rfl, rfl⟩ := Prod.mk.inj (Option.some.inj h)
              exact ⟨List.prefix_append _ _, fun hok => absurd hok (by simp)⟩
            · split at h
              · obtain ⟨rfl, rfl⟩ := Prod.mk.inj (Option.some.inj h)
                exact ⟨List.prefix_append _ _, fun hok => absurd hok (by simp)⟩
              · split at h
                · obtain ⟨rfl, rfl⟩ := Prod.mk.inj (Option.some.inj h)
                  exact ⟨List.prefix_refl _, fun hok => absurd hok (by simp)⟩
                · next hlt =>
                    obtain ⟨rfl, rfl⟩ := Prod.mk.inj (Option.some.inj h)
                    refine ⟨List.prefix_append _ _, fun _ => ⟨p, p.accept n, hcur, rfl, ?_, rfl⟩⟩
                    exact decide_eq_true
                      (Nat.le_antisymm (p.accept n).written_le (Nat.not_lt.mp hlt))

/-- What holds of a writer after some events. -/
structure Tracks (es : List Event) (s : State) (acked : List (List UInt8)) : Prop where
  inv : Inv s
  bodies : (s.frames.map body).Sublist (sent es)
  acked : acked.Sublist ((s.past.filter Piece.full).map body)

/-- One more event. -/
theorem Tracks.step {es : List Event} {s s' : State} {acked obs : List (List UInt8)} {e : Event}
    (h : Tracks es s acked) (hs : acks.step s e = some (s', obs)) :
    Tracks (es ++ [e]) s' (acked ++ obs) := by
  obtain ⟨⟨s₁, results⟩, hstep, he⟩ := Option.map_eq_some_iff.mp hs
  obtain ⟨rfl, rfl⟩ := Prod.mk.inj he
  have hact := act_of_step hstep
  obtain ⟨hpast, hok⟩ := past_of_step hstep
  refine ⟨h.inv.act hact, ?_, ?_⟩
  · rw [sent, List.filterMap_append]
    rcases hact.frames with ⟨data, rfl, -, hf | ⟨-, hf⟩⟩ | ⟨p, n, err, rfl, hold, -, hf, -⟩
    · rw [hf]
      exact h.bodies.trans (List.sublist_append_left _ _)
    · rw [hf, List.map_append]
      have hdata : body (.start (makeFrame data)) = data := body_of_whole rfl
      refine h.bodies.append ?_
      rw [List.map_singleton, hdata]
      exact List.Sublist.refl _
    · have hsame : s₁.frames.map body = s.frames.map body := by
        rw [hf, hold, List.map_append, List.map_append]
        rfl
      rw [hsame]
      exact h.bodies.trans (List.sublist_append_left _ _)
  · dsimp only
    split
    · next hmem =>
        obtain ⟨p, q, hcur, hwhole, hfull, hnew⟩ := hok hmem
        have hcalling : calling s = body q := by rw [calling, hcur, body, hwhole]; rfl
        rw [hnew, List.filter_append, List.map_append, List.filter_cons_of_pos hfull,
          List.filter_nil, List.map_singleton, hcalling]
        exact h.acked.append (List.Sublist.refl _)
    · rw [List.append_nil]
      exact h.acked.trans ((hpast.sublist.filter _).map _)

theorem tracks_exec {es : List Event} {s : State} {acked : List (List UInt8)}
    (h : acks.exec es = some (s, acked)) : Tracks es s acked :=
  acks.exec_induction (P := Tracks)
    ⟨⟨rfl, fun _ hp => absurd hp List.not_mem_nil⟩, List.Sublist.refl _, List.Sublist.refl _⟩
    (fun _ _ _ _ _ _ _ ht hs => ht.step hs) es s acked h

/-- **Acknowledged packets arrive.**  The Go client writes packets on a connection that takes
nothing more once it has cut off a frame.  However the frames go out and whatever chunks the bytes
arrive in, the read loop of either server is handed, in order and each once, every packet whose
call returned without an error, and nothing but packets that were sent. -/
theorem go_sends_arrive (es : List Event) {s : State} {acked : List (List UInt8)}
    (hrun : acks.exec es = some (s, acked)) (hne : ∀ data ∈ sent es, data ≠ [])
    (hcut : acks.Each (fun s _ e => NothingAfterCut s e) es) {chunks : List (List UInt8)}
    (hflat : chunks.flatten = s.wire) :
    acked.Sublist (handleTcpConn chunks).1 ∧ (handleTcpConn chunks).1.Sublist (sent es) ∧
      handleTCPConn chunks = handleTcpConn chunks := by
  have ht := tracks_exec hrun
  have hsilent : Silent s.frames := by
    have hfirst : Silent acks.init.frames := List.Pairwise.nil
    have halways : acks.Always (fun s _ => Silent s.frames) es := by
      refine Machine.always_of_each hfirst (fun s tr e s' o hs hc hstep => ?_) hcut
      obtain ⟨r, hr, he⟩ := Option.map_eq_some_iff.mp hstep
      have hact := act_of_step (o := r.2) hr
      rw [(Prod.mk.inj he).1] at hact
      exact (silent_act_iff hs hact).mpr hc
    exact halways es (List.prefix_refl _) s acked hrun
  have hbodies : ∀ p ∈ s.frames, body p ≠ [] :=
    fun p hp => hne _ (ht.bodies.mem (List.mem_map_of_mem hp))
  have hread := handleTcpConn_of_silent ht.inv.made hbodies hsilent (hflat.trans ht.inv.wire)
  rw [hread]
  refine ⟨ht.acked.trans ?_, ?_, handleTCPConn_eq chunks⟩
  · rw [State.frames, List.filter_append, List.map_append]
    exact List.sublist_append_left _ _
  · exact (List.filter_sublist.map _).trans ht.bodies

/-- A frame goes out in three writes, the next one in part, and the connection is dead after it. -/
def brokenConn : List Event :=
  [.send [7, 8], .write 1 false, .write 2 false, .write 1 false, .send [9], .write 2 true,
    .send [5], .write 0 true]

/-- The first packet arrives; the reader ends in the middle of the second. -/
theorem go_sends_arrive_broken_conn :
    ∃ s, acks.exec brokenConn = some (s, [[7, 8]]) ∧ s.wire = [0, 2, 7, 8, 0, 1] ∧
      [[7, 8]].Sublist (handleTcpConn [[0, 2], [7, 8, 0], [1]]).1 ∧
      (handleTcpConn [[0, 2], [7, 8, 0], [1]]).1.Sublist (sent brokenConn) := by
  have hview : (acks.exec brokenConn).map (fun r => (r.1.wire, r.2)) =
      some ([0, 2, 7, 8, 0, 1], [[7, 8]]) := by decide
  obtain ⟨⟨s, acked⟩, hrun, hv⟩ := Option.map_eq_some_iff.mp hview
  obtain ⟨hwire, rfl⟩ := Prod.mk.inj hv
  have hcheck : ∀ (s : State) (_ : List (List UInt8)) (e : Event),
      decide (NothingAfterCut s e) = true → NothingAfterCut s e :=
    fun _ _ _ h => of_decide_eq_true h
  have hflat : ([[0, 2], [7, 8, 0], [1]] : List (List UInt8)).flatten = s.wire := hwire.symm
  obtain ⟨hacked, hsent, -⟩ := go_sends_arrive brokenConn hrun (by decide)
    (Machine.each_of_check hcheck (by decide)) hflat
  exact ⟨s, hrun, hwire, hacked, hsent⟩

end Fproxy.GoFrameWriter
