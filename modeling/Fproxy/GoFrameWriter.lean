import Fproxy.Library.PartialWrites
import Fproxy.Library.Runs
import Fproxy.Protocol.Go
import Fproxy.TcpFraming

/-!
# The Go client's TCP frame writer under partial writes

`sendTCPFrame` of `client.go` holds the mutex of its session while it calls `conn.Write` until
the frame is out.  A `Write` that fails or takes nothing ends the call, however much of the frame
is out.  The session stays in the table, and `closed` is never set.

A `Write` may take any number of the bytes it is given, with or without an error.

* `step` — a call begins, or one `Write` of the call in progress returns.
* `Inv` — what is on the wire is the stream of the calls' pieces.
* `intact_iff` — the wire holds complete frames and at most one incomplete frame, and nothing
  follows a frame that was cut off, if and only if no `Write` takes a byte after a cut.
-/

namespace Fproxy.GoFrameWriter

open Fproxy.Buffer Fproxy.GoProtocol Fproxy.PartialWrites Fproxy.Runs Fproxy.TcpFraming

/-- The frame built by `sendTCPFrame`: the buffer is made, the length put, the data copied. -/
def makeFrame (data : List UInt8) : List UInt8 :=
  let frame := List.replicate (2 + data.length) (0 : UInt8)
  let frame := write frame 0 (putUint16 (UInt16.ofNat data.length))
  write frame 2 data

/-- **The frame is the one the Rust client writes.** -/
theorem makeFrame_eq (data : List UInt8) : makeFrame data = tcpFrame data := by
  have h2 : (putUint16 (UInt16.ofNat data.length)).length = 2 := rfl
  have hfirst := @write_fill _ [] (putUint16 (UInt16.ofNat data.length)) 0 data.length 0 rfl
  rw [List.nil_append, List.nil_append, h2] at hfirst
  rw [makeFrame, hfirst, write_fill_all h2 rfl, putUint16_eq]
  rfl

/-- What `sendTCPFrame` returns. -/
inductive SendResult where
  | ok
  | frameTooLarge
  | closedPipe
  | shortWrite
  | writeError
  deriving DecidableEq, Repr

/-- A `TCPSession`, what its connection has taken, and the calls of `sendTCPFrame` on it: the one
that holds the mutex, and the frames of those that have returned. -/
structure State where
  closed : Bool
  wire : List UInt8
  current : Option (Piece UInt8)
  past : List (Piece UInt8)
  deriving DecidableEq

/-- The frames handed to the connection so far, in order. -/
def State.frames (s : State) : List (Piece UInt8) := s.past ++ s.current.toList

/-- One move: a call, or the return of `conn.Write` with `n` and whether there was an error. -/
inductive Event where
  | send (data : List UInt8)
  | write (n : ℕ) (err : Bool)
  deriving DecidableEq

/-- The call in progress returns. -/
def finish (s : State) (p : Piece UInt8) : State :=
  { s with current := none, past := s.past ++ [p] }

/-- One move; `none` where the event cannot occur.  The observations are what calls return. -/
def step (s : State) : Event → Option (State × List SendResult)
  | .send data =>
      if maxTcpFrameSize < data.length then some (s, [.frameTooLarge])
      else match s.current with
        | some _ => none
        | none =>
            if s.closed then some (s, [.closedPipe])
            else some ({ s with current := some (.start (makeFrame data)) }, [])
  | .write n err =>
      match s.current with
      | none => none
      | some p =>
          if p.rest.length < n then none
          else
            let s := { s with wire := s.wire ++ p.rest.take n }
            let p := p.accept n
            if err then some (finish s p, [.writeError])
            else if n = 0 then some (finish s p, [.shortWrite])
            else if p.written < p.whole.length then some ({ s with current := some p }, [])
            else some (finish s p, [.ok])

/-- A session as `getOrCreateTCPSession` stores it. -/
def machine : Machine State Event SendResult where
  init := ⟨false, [], none, []⟩
  step := step

/-! ### What a step does -/

/-- One rule for each way a step goes. -/
inductive Act (s : State) : Event → State → Prop
  | refused {data : List UInt8} : Act s (.send data) s
  | began {data : List UInt8} : data.length ≤ maxTcpFrameSize → s.current = none →
      Act s (.send data) { s with current := some (.start (makeFrame data)) }
  | went {n : ℕ} {err : Bool} {p : Piece UInt8} :
      s.current = some p → n ≤ p.rest.length →
      Act s (.write n err)
        { s with wire := s.wire ++ p.rest.take n, current := some (p.accept n) }
  | returned {n : ℕ} {err : Bool} {p : Piece UInt8} :
      s.current = some p → n ≤ p.rest.length →
      Act s (.write n err)
        { s with
          wire := s.wire ++ p.rest.take n
          current := none
          past := s.past ++ [p.accept n] }

theorem act_of_step {s s' : State} {e : Event} {o : List SendResult}
    (h : step s e = some (s', o)) : Act s e s' := by
  cases e with
  | send data =>
      simp only [step] at h
      split at h
      · obtain ⟨rfl, -⟩ := Prod.mk.inj (Option.some.inj h)
        exact .refused
      · next hsize =>
          split at h
          · exact absurd h (by simp)
          · next hcur =>
              split at h
              · obtain ⟨rfl, -⟩ := Prod.mk.inj (Option.some.inj h)
                exact .refused
              · obtain ⟨rfl, -⟩ := Prod.mk.inj (Option.some.inj h)
                exact .began (Nat.not_lt.mp hsize) hcur
  | write n err =>
      simp only [step] at h
      split at h
      · exact absurd h (by simp)
      · next p hcur =>
          split at h
          · exact absurd h (by simp)
          · next hlt =>
              have hle : n ≤ p.rest.length := Nat.not_lt.mp hlt
              split at h
              · obtain ⟨rfl, -⟩ := Prod.mk.inj (Option.some.inj h)
                exact .returned hcur hle
              · split at h
                · obtain ⟨rfl, -⟩ := Prod.mk.inj (Option.some.inj h)
                  exact .returned hcur hle
                · split at h
                  · obtain ⟨rfl, -⟩ := Prod.mk.inj (Option.some.inj h)
                    exact .went hcur hle
                  · obtain ⟨rfl, -⟩ := Prod.mk.inj (Option.some.inj h)
                    exact .returned hcur hle

/-- A call adds at most a frame of which nothing is out; a `Write` takes the last frame
further. -/
theorem Act.frames {s s' : State} {e : Event} (h : Act s e s') :
    (∃ data, e = .send data ∧ s'.wire = s.wire ∧ (s'.frames = s.frames ∨
      data.length ≤ maxTcpFrameSize ∧ s'.frames = s.frames ++ [.start (makeFrame data)])) ∨
    (∃ p n err, e = .write n err ∧ s.frames = s.past ++ [p] ∧ n ≤ p.rest.length ∧
      s'.frames = s.past ++ [p.accept n] ∧ s'.wire = s.wire ++ p.rest.take n) := by
  cases h with
  | @refused data => exact Or.inl ⟨data, rfl, rfl, Or.inl rfl⟩
  | @began data hsize hcur =>
      refine Or.inl ⟨data, rfl, rfl, Or.inr ⟨hsize, ?_⟩⟩
      simp [State.frames, hcur]
  | @went n err p hcur hle =>
      refine Or.inr ⟨p, n, err, rfl, ?_, hle, rfl, rfl⟩
      simp [State.frames, hcur]
  | @returned n err p hcur hle =>
      refine Or.inr ⟨p, n, err, rfl, ?_, hle, ?_, rfl⟩
      · simp [State.frames, hcur]
      · simp [State.frames]

/-! ### The invariant -/

/-- What is on the wire is what is out of the frames, and each is the frame of a call's data. -/
structure Inv (s : State) : Prop where
  wire : s.wire = stream s.frames
  made : ∀ p ∈ s.frames, ∃ data, data.length ≤ maxTcpFrameSize ∧ p.whole = makeFrame data

theorem Inv.act {s s' : State} {e : Event} (hi : Inv s) (h : Act s e s') : Inv s' := by
  rcases h.frames with ⟨data, -, hw, hf | ⟨hsize, hf⟩⟩ | ⟨p, n, err, -, hold, -, hf, hw⟩
  · exact ⟨by rw [hf, hw, hi.wire], by rw [hf]; exact hi.made⟩
  · refine ⟨?_, fun p hp => ?_⟩
    · rw [hf, hw, hi.wire, stream_append, stream_cons, Piece.out_start, stream_nil, List.append_nil,
        List.append_nil]
    · rw [hf] at hp
      rcases List.mem_append.mp hp with hp | hp
      · exact hi.made p hp
      · rw [List.mem_singleton.mp hp]
        exact ⟨data, hsize, rfl⟩
  · obtain ⟨hwire, hmade⟩ := hi
    rw [hold] at hwire hmade
    refine ⟨?_, fun q hq => ?_⟩
    · rw [hf, hw, hwire, stream_append, stream_append, stream_cons, stream_cons, stream_nil,
        List.append_nil, List.append_nil, Piece.out_accept, List.append_assoc]
    · rw [hf] at hq
      rcases List.mem_append.mp hq with hq | hq
      · exact hmade q (List.mem_append_left _ hq)
      · rw [List.mem_singleton.mp hq]
        exact hmade p (List.mem_append_right _ List.mem_cons_self)

theorem inv_exec {es : List Event} {s : State} {tr : List SendResult}
    (h : machine.exec es = some (s, tr)) : Inv s :=
  machine.invariant (I := fun s _ => Inv s) ⟨rfl, fun _ hp => absurd hp List.not_mem_nil⟩
    (fun _ _ _ _ _ hi hs => hi.act (act_of_step hs)) h

/-! ### Frame integrity -/

/-- The wire holds complete frames and at most one incomplete frame, and no call has put a byte
behind a frame that was cut off. -/
structure Intact (s : State) : Prop where
  made : ∀ p ∈ s.frames, ∃ data, data.length ≤ maxTcpFrameSize ∧ p.whole = makeFrame data
  complete : ∃ (done : List (List UInt8)) (part : List UInt8), s.wire = done.flatten ++ part ∧
    done.Sublist (s.frames.map Piece.whole) ∧
    (part = [] ∨ ∃ p ∈ s.frames, part <+: p.whole ∧ part ≠ p.whole)
  silent : Silent s.frames

theorem intact_of_silent {s : State} (hi : Inv s) (h : Silent s.frames) : Intact s where
  made := hi.made
  complete := by
    rw [hi.wire]
    exact stream_of_silent h
  silent := h

/-- The connection takes no byte once a frame has been cut off. -/
def NothingAfterCut (s : State) : Event → Prop
  | .send _ => True
  | .write n _ => 0 < n → ∀ p ∈ s.past, ¬ p.Cut

instance (s : State) (e : Event) : Decidable (NothingAfterCut s e) := by
  cases e <;> unfold NothingAfterCut <;> infer_instance

/-- One step: nothing follows a cut if and only if the connection takes nothing after it. -/
theorem silent_act_iff {s s' : State} {e : Event} (hs : Silent s.frames) (h : Act s e s') :
    Silent s'.frames ↔ NothingAfterCut s e := by
  rcases h.frames with ⟨data, rfl, -, hf | ⟨-, hf⟩⟩ | ⟨p, n, err, rfl, hold, hle, hf, -⟩
  · rw [hf]
    exact iff_of_true hs trivial
  · rw [hf]
    exact iff_of_true (silent_append_iff.mpr ⟨hs, fun _ _ _ => rfl⟩) trivial
  · rw [hold] at hs
    obtain ⟨hpast, hlast⟩ := silent_append_iff.mp hs
    rw [hf, silent_append_iff, Piece.written_accept_of_le hle]
    constructor
    · rintro ⟨-, hzero⟩ hn q hq hcut
      have h0 := hzero q hq hcut
      omega
    · intro hc
      refine ⟨hpast, fun q hq hcut => ?_⟩
      rw [hlast q hq hcut, Nat.zero_add]
      exact Nat.eq_zero_of_not_pos fun hn => hc hn q hq hcut

/-- **When frames stay intact.**  In every run of calls on a session, whatever `conn.Write`
takes and returns: the wire always holds complete frames and at most one incomplete frame, with
nothing behind a frame that was cut off, if and only if the connection takes no byte once a frame
has been cut off. -/
theorem intact_iff (es : List Event) {s : State} {tr : List SendResult}
    (hrun : machine.exec es = some (s, tr)) :
    machine.Always (fun s _ => Intact s) es ↔
      machine.Each (fun s _ e => NothingAfterCut s e) es := by
  constructor
  · intro hP pre e hpre s tr hexec
    obtain ⟨s₁, o, hstep, h₁⟩ := Machine.step_of_isPrefix hpre hrun hexec
    have hbefore : pre <+: es := (List.prefix_append _ _).trans hpre
    exact (silent_act_iff (hP _ hbefore _ _ hexec).silent (act_of_step hstep)).mp
      (hP _ hpre _ _ h₁).silent
  · intro hC
    have hfirst : Silent machine.init.frames := List.Pairwise.nil
    have hsilent : machine.Always (fun s _ => Silent s.frames) es :=
      Machine.always_of_each (P := fun s _ => Silent s.frames) hfirst
        (fun _ _ _ _ _ hs hc hstep => (silent_act_iff hs (act_of_step hstep)).mpr hc) hC
    exact fun pre hpre s tr hexec =>
      intact_of_silent (inv_exec hexec) (hsilent pre hpre s tr hexec)

/-- A connection that takes three bytes of a frame, then nothing, then everything again. -/
def stalled : List Event :=
  [.send [1, 2, 3, 4], .write 3 false, .write 0 false, .send [5], .write 3 false]

/-- The session after it. -/
def afterStalled : State :=
  ⟨false, [0, 4, 1, 0, 1, 5], none,
    [⟨[0, 4, 1, 2, 3, 4], 3, by decide⟩, ⟨[0, 1, 5], 3, by decide⟩]⟩

/-- **A frame behind half a frame.**  The second call writes its frame behind the first three
bytes of the first one. -/
theorem frame_after_cut :
    machine.exec stalled = some (afterStalled, [.shortWrite, .ok]) ∧
      ¬ machine.Always (fun s _ => Intact s) stalled := by
  have hrun : machine.exec stalled = some (afterStalled, [.shortWrite, .ok]) := by decide
  refine ⟨hrun, fun h => ?_⟩
  have hsilent := (h stalled (List.prefix_refl _) _ _ hrun).silent
  exact absurd ((List.pairwise_cons.mp hsilent).1 _ List.mem_cons_self (by decide)) (by decide)

/-- Short writes that go on, and an error behind a cut after which the connection is dead. -/
theorem intact_short_writes :
    machine.Always (fun s _ => Intact s)
      [.send [7, 8], .write 1 false, .write 3 false, .send [9], .write 2 true, .send [5],
        .write 0 true] := by
  have hcheck : ∀ (s : State) (_ : List SendResult) (e : Event),
      decide (NothingAfterCut s e) = true → NothingAfterCut s e :=
    fun _ _ _ h => of_decide_eq_true h
  refine (intact_iff _ (?_ : machine.exec _ = some (⟨false, [0, 2, 7, 8, 0, 1], none,
    [⟨[0, 2, 7, 8], 4, by decide⟩, ⟨[0, 1, 9], 2, by decide⟩, ⟨[0, 1, 5], 0, by decide⟩]⟩,
    [.ok, .writeError, .writeError]))).mpr ?_
  · decide
  · exact Machine.each_of_check hcheck (by decide)

end Fproxy.GoFrameWriter
