import Fproxy.TcpFraming

/-!
# The Go client's TCP response reader under read deadlines

`handleTCPServerResponse` of `client.go` sets a read deadline of one second in front of every
frame and reads the length prefix and the body with `io.ReadFull`.  A deadline that expires in
the prefix makes the loop start over, one that expires in the body ends the session.

A schedule is the order in which chunks of bytes arrive and deadlines expire.  On a timeout
`io.ReadFull` has consumed what had arrived.

* `readFull_cases` — the three outcomes of one `io.ReadFull`, in terms of the bytes that arrive
  and the offsets at which deadlines expire.
* `reads_exactly_iff` — the reader decodes exactly the frames written, loses no byte and stays
  alive if and only if no deadline expires inside a frame.
* `decoded_isPrefix` — while frames are on their way and no deadline has expired between the two
  bytes of a prefix, what it has decoded are the first of them.
-/

namespace Fproxy.GoResponseReader

open Fproxy.BigEndian Fproxy.Protocol Fproxy.TcpFraming

/-- What happens on a connection that stays open. -/
inductive ConnEvent where
  | bytes (chunk : List UInt8)
  | deadline
  deriving DecidableEq, Repr

/-- The bytes a schedule delivers. -/
def arrived : List ConnEvent → List UInt8
  | [] => []
  | .bytes c :: evs => c ++ arrived evs
  | .deadline :: evs => arrived evs

/-- How many bytes have arrived at each expiry of the deadline. -/
def deadlineOffsets : List ConnEvent → List ℕ
  | [] => []
  | .bytes c :: evs => (deadlineOffsets evs).map (c.length + ·)
  | .deadline :: evs => 0 :: deadlineOffsets evs

/-- The outcome of `io.ReadFull`: the buffer was filled, the deadline expired, or the schedule
ended with the call still blocked.  `got` are the bytes it consumed. -/
inductive ReadFull where
  | full (got : List UInt8) (rest : List ConnEvent)
  | timeout (got : List UInt8) (rest : List ConnEvent)
  | waiting (got : List UInt8)
  deriving DecidableEq, Repr

/-- The bytes consumed before the rest of a call. -/
def ReadFull.prepend (c : List UInt8) : ReadFull → ReadFull
  | .full got rest => .full (c ++ got) rest
  | .timeout got rest => .timeout (c ++ got) rest
  | .waiting got => .waiting (c ++ got)

/-- `io.ReadFull` into a buffer of `n` bytes. -/
def readFull : ℕ → List ConnEvent → ReadFull
  | 0, evs => .full [] evs
  | _ + 1, [] => .waiting []
  | _ + 1, .deadline :: evs => .timeout [] evs
  | n + 1, .bytes c :: evs =>
      if c.length ≤ n + 1 then (readFull (n + 1 - c.length) evs).prepend c
      else .full (c.take (n + 1)) (.bytes (c.drop (n + 1)) :: evs)

theorem arrived_append (evs evs' : List ConnEvent) :
    arrived (evs ++ evs') = arrived evs ++ arrived evs' := by
  induction evs with
  | nil => rfl
  | cons e evs ih => cases e <;> simp [arrived, ih]

/-- A deadline that expires last expires behind all that has arrived. -/
theorem deadlineOffsets_deadline (evs : List ConnEvent) :
    deadlineOffsets (evs ++ [.deadline]) = deadlineOffsets evs ++ [(arrived evs).length] := by
  induction evs with
  | nil => rfl
  | cons e evs ih => cases e <;> simp [deadlineOffsets, arrived, ih]

@[simp] theorem deadlineOffsets_bytes (evs : List ConnEvent) (chunk : List UInt8) :
    deadlineOffsets (evs ++ [.bytes chunk]) = deadlineOffsets evs := by
  induction evs with
  | nil => rfl
  | cons e evs ih => cases e <;> simp [deadlineOffsets, ih]

theorem le_arrived_of_mem_deadlineOffsets {evs : List ConnEvent} {p : ℕ}
    (hp : p ∈ deadlineOffsets evs) : p ≤ (arrived evs).length := by
  induction evs generalizing p with
  | nil => exact absurd hp List.not_mem_nil
  | cons e evs ih =>
      cases e with
      | bytes chunk =>
          obtain ⟨q, hq, rfl⟩ := List.mem_map.mp hp
          rw [arrived, List.length_append]
          exact Nat.add_le_add_left (ih hq) _
      | deadline =>
          rcases List.mem_cons.mp hp with rfl | hp
          · exact Nat.zero_le _
          · exact ih hp

/-- The size of a schedule, for termination. -/
def weight : List ConnEvent → ℕ
  | [] => 0
  | .bytes c :: evs => c.length + 1 + weight evs
  | .deadline :: evs => 1 + weight evs

/-- **One `io.ReadFull`.**  A filled buffer holds the next `n` bytes and no deadline expired
among them; on a timeout fewer than `n` bytes are consumed and the deadline expired right after
them; a blocked call has consumed all there is. -/
theorem readFull_cases (n : ℕ) (evs : List ConnEvent) :
    (∃ got rest, readFull n evs = .full got rest ∧ got.length = n ∧
      arrived evs = got ++ arrived rest ∧
      deadlineOffsets evs = (deadlineOffsets rest).map (n + ·) ∧
      weight rest ≤ weight evs ∧ (0 < n → weight rest < weight evs)) ∨
    (∃ got rest, readFull n evs = .timeout got rest ∧ got.length < n ∧
      arrived evs = got ++ arrived rest ∧
      deadlineOffsets evs = got.length :: (deadlineOffsets rest).map (got.length + ·) ∧
      weight rest < weight evs) ∨
    (∃ got, readFull n evs = .waiting got ∧ got.length < n ∧ arrived evs = got ∧
      deadlineOffsets evs = []) := by
  induction evs generalizing n with
  | nil =>
      cases n with
      | zero => exact Or.inl ⟨[], [], rfl, rfl, rfl, rfl, le_refl _, fun h => absurd h (by omega)⟩
      | succ n => exact Or.inr (Or.inr ⟨[], rfl, Nat.succ_pos n, rfl, rfl⟩)
  | cons e evs ih =>
      cases n with
      | zero =>
          refine Or.inl ⟨[], e :: evs, ?_, rfl, rfl, ?_, le_refl _, fun h => absurd h (by omega)⟩
          · cases e <;> rfl
          · simp
      | succ n =>
          cases e with
          | deadline =>
              refine Or.inr (Or.inl ⟨[], evs, rfl, Nat.succ_pos n, rfl, ?_, ?_⟩)
              · simp [deadlineOffsets]
              · simp only [weight]
                omega
          | bytes c =>
              by_cases hle : c.length ≤ n + 1
              · have hread : readFull (n + 1) (.bytes c :: evs) =
                    (readFull (n + 1 - c.length) evs).prepend c := by
                  rw [readFull, if_pos hle]
                rcases ih (n + 1 - c.length) with
                  ⟨got, rest, hr, hlen, harr, hoff, hw, _⟩ | ⟨got, rest, hr, hlen, harr, hoff, hw⟩ |
                  ⟨got, hr, hlen, harr, hoff⟩
                · refine Or.inl ⟨c ++ got, rest, by rw [hread, hr]; rfl, ?_, ?_, ?_, ?_, fun _ => ?_⟩
                  · rw [List.length_append]
                    omega
                  · rw [arrived, harr, List.append_assoc]
                  · rw [deadlineOffsets, hoff, List.map_map]
                    refine List.map_congr_left fun k _ => ?_
                    show c.length + (n + 1 - c.length + k) = n + 1 + k
                    omega
                  · simp only [weight]
                    omega
                  · simp only [weight]
                    omega
                · refine Or.inr (Or.inl ⟨c ++ got, rest, by rw [hread, hr]; rfl, ?_, ?_, ?_, ?_⟩)
                  · rw [List.length_append]
                    omega
                  · rw [arrived, harr, List.append_assoc]
                  · rw [deadlineOffsets, hoff, List.map_cons, List.map_map, List.length_append]
                    refine congrArg _ (List.map_congr_left fun k _ => ?_)
                    show c.length + (got.length + k) = c.length + got.length + k
                    omega
                  · simp only [weight]
                    omega
                · refine Or.inr (Or.inr ⟨c ++ got, by rw [hread, hr]; rfl, ?_, ?_, ?_⟩)
                  · rw [List.length_append]
                    omega
                  · rw [arrived, harr]
                  · rw [deadlineOffsets, hoff]
                    rfl
              · refine Or.inl ⟨c.take (n + 1), .bytes (c.drop (n + 1)) :: evs,
                  by rw [readFull, if_neg hle], List.length_take_of_le (by omega), ?_, ?_, ?_,
                  fun _ => ?_⟩
                · rw [arrived, arrived, ← List.append_assoc, List.take_append_drop]
                · rw [deadlineOffsets, deadlineOffsets, List.map_map]
                  refine List.map_congr_left fun k _ => ?_
                  show c.length + k = n + 1 + ((c.drop (n + 1)).length + k)
                  rw [List.length_drop]
                  omega
                · simp only [weight, List.length_drop]
                  omega
                · simp only [weight, List.length_drop]
                  omega

theorem readFull_eq_full {n : ℕ} {evs rest : List ConnEvent} {got : List UInt8}
    (h : readFull n evs = .full got rest) :
    got.length = n ∧ arrived evs = got ++ arrived rest ∧
      deadlineOffsets evs = (deadlineOffsets rest).map (n + ·) ∧
      weight rest ≤ weight evs ∧ (0 < n → weight rest < weight evs) := by
  rcases readFull_cases n evs with ⟨_, _, hr, hspec⟩ | ⟨_, _, hr, _⟩ | ⟨_, hr, _⟩ <;> rw [hr] at h
  · obtain ⟨rfl, rfl⟩ := ReadFull.full.inj h
    exact hspec
  · exact absurd h (by simp)
  · exact absurd h (by simp)

theorem readFull_eq_timeout {n : ℕ} {evs rest : List ConnEvent} {got : List UInt8}
    (h : readFull n evs = .timeout got rest) :
    got.length < n ∧ arrived evs = got ++ arrived rest ∧
      deadlineOffsets evs = got.length :: (deadlineOffsets rest).map (got.length + ·) ∧
      weight rest < weight evs := by
  rcases readFull_cases n evs with ⟨_, _, hr, _⟩ | ⟨_, _, hr, hspec⟩ | ⟨_, hr, _⟩ <;> rw [hr] at h
  · exact absurd h (by simp)
  · obtain ⟨rfl, rfl⟩ := ReadFull.timeout.inj h
    exact hspec
  · exact absurd h (by simp)

theorem readFull_eq_waiting {n : ℕ} {evs : List ConnEvent} {got : List UInt8}
    (h : readFull n evs = .waiting got) :
    got.length < n ∧ arrived evs = got ∧ deadlineOffsets evs = [] := by
  rcases readFull_cases n evs with ⟨_, _, hr, _⟩ | ⟨_, _, hr, _⟩ | ⟨_, hr, hspec⟩ <;> rw [hr] at h
  · exact absurd h (by simp)
  · exact absurd h (by simp)
  · obtain rfl := ReadFull.waiting.inj h
    exact hspec

/-! ### The read loop -/

/-- Where the reader stands when the schedule ends. -/
inductive ReaderState where
  | waiting (got : List UInt8)
  | invalidLength (length : ℕ)
  | readDataError
  deriving DecidableEq, Repr

/-- The goroutine has not returned: the session is still in the table. -/
def ReaderState.Alive : ReaderState → Prop
  | .waiting _ => True
  | .invalidLength _ => False
  | .readDataError => False

/-- What the reader did: the packets handed to `protocol.DecodeTCP`, the bytes it consumed that
reached no packet, and where it stands. -/
structure Reading where
  decoded : List (List UInt8)
  dropped : List UInt8
  state : ReaderState
  deriving DecidableEq, Repr

/-- `handleTCPServerResponse`, up to and including the calls of `protocol.DecodeTCP`.  Whatever
is done with a decoded packet, the loop goes on to the next frame. -/
def handleTCPServerResponse (evs : List ConnEvent) : Reading :=
  match _h₁ : readFull 2 evs with
  | .waiting got => ⟨[], [], .waiting got⟩
  | .timeout got evs₁ =>
      -- `continue`: the next read of the prefix starts afresh
      let r := handleTCPServerResponse evs₁
      { r with dropped := got ++ r.dropped }
  | .full lenBuf evs₁ =>
      let length := readLength lenBuf
      if length = 0 ∨ maxTcpFrameSize < length then ⟨[], lenBuf, .invalidLength length⟩
      else
        match _h₂ : readFull length evs₁ with
        | .waiting got => ⟨[], [], .waiting (lenBuf ++ got)⟩
        | .timeout got _ => ⟨[], lenBuf ++ got, .readDataError⟩
        | .full data evs₂ =>
            let r := handleTCPServerResponse evs₂
            { r with decoded := data :: r.decoded }
termination_by weight evs
decreasing_by
  · exact (readFull_eq_timeout _h₁).2.2.2
  · have h₁ := (readFull_eq_full _h₁).2.2.2.2 (by decide)
    have h₂ := (readFull_eq_full _h₂).2.2.2.1
    omega

theorem response_of_waiting {evs : List ConnEvent} {got : List UInt8}
    (h : readFull 2 evs = .waiting got) :
    handleTCPServerResponse evs = ⟨[], [], .waiting got⟩ := by
  rw [handleTCPServerResponse]
  split <;> rename_i h₁ <;> rw [h] at h₁
  · rw [ReadFull.waiting.inj h₁]
  · exact absurd h₁ (by simp)
  · exact absurd h₁ (by simp)

/-- A deadline in the prefix: the bytes read are dropped and the loop starts over. -/
theorem response_of_timeout {evs evs₁ : List ConnEvent} {got : List UInt8}
    (h : readFull 2 evs = .timeout got evs₁) :
    handleTCPServerResponse evs = { handleTCPServerResponse evs₁ with
      dropped := got ++ (handleTCPServerResponse evs₁).dropped } := by
  rw [handleTCPServerResponse]
  split <;> rename_i h₁ <;> rw [h] at h₁
  · exact absurd h₁ (by simp)
  · obtain ⟨rfl, rfl⟩ := ReadFull.timeout.inj h₁
    rfl
  · exact absurd h₁ (by simp)

/-- A complete prefix of a positive length: the outcome of the body read decides. -/
theorem response_of_length {evs evs₁ : List ConnEvent} {lenBuf : List UInt8} {n : ℕ}
    (h : readFull 2 evs = .full lenBuf evs₁) (hn : readLength lenBuf = n)
    (hok : ¬ (n = 0 ∨ maxTcpFrameSize < n)) :
    handleTCPServerResponse evs = match readFull n evs₁ with
      | .waiting got => ⟨[], [], .waiting (lenBuf ++ got)⟩
      | .timeout got _ => ⟨[], lenBuf ++ got, .readDataError⟩
      | .full data evs₂ => { handleTCPServerResponse evs₂ with
          decoded := data :: (handleTCPServerResponse evs₂).decoded } := by
  subst hn
  rw [handleTCPServerResponse]
  split <;> rename_i h₁ <;> rw [h] at h₁
  · exact absurd h₁ (by simp)
  · exact absurd h₁ (by simp)
  · obtain ⟨rfl, rfl⟩ := ReadFull.full.inj h₁
    simp only [hok, if_false]
    split <;> rename_i h₂ <;> simp only [h₂]

/-! ### Frames on the wire -/

/-- A non-empty packet whose length fits the 2-byte prefix. -/
structure WireFrame where
  data : List UInt8
  nonempty : data ≠ []
  fits : data.length ≤ maxTcpFrameSize

namespace WireFrame

/-- The bytes of the frame. -/
def bytes (f : WireFrame) : List UInt8 := tcpFrame f.data

/-- The bytes of frames written one after the other. -/
def stream (frames : List WireFrame) : List UInt8 := (frames.map bytes).flatten

theorem bytes_eq (f : WireFrame) : f.bytes = lengthPrefix f.data ++ f.data := rfl

theorem lengthPrefix_length (f : WireFrame) : (lengthPrefix f.data).length = 2 :=
  toBytes_length _ _

theorem data_pos (f : WireFrame) : 0 < f.data.length := List.length_pos_iff.mpr f.nonempty

@[simp] theorem stream_nil : stream [] = [] := rfl

theorem stream_cons (f : WireFrame) (fs : List WireFrame) :
    stream (f :: fs) = lengthPrefix f.data ++ (f.data ++ stream fs) := by
  rw [stream, List.map_cons, List.flatten_cons, bytes_eq, List.append_assoc]
  rfl

theorem length_stream_take_succ (f : WireFrame) (fs : List WireFrame) (k : ℕ) :
    (stream ((f :: fs).take (k + 1))).length =
      2 + (f.data.length + (stream (fs.take k)).length) := by
  rw [List.take_succ_cons, stream_cons, List.length_append, List.length_append,
    lengthPrefix_length]

/-- `p` bytes of the stream are a whole number of frames. -/
def Boundary (frames : List WireFrame) (p : ℕ) : Prop :=
  ∃ k, p = (stream (frames.take k)).length

theorem boundary_zero (frames : List WireFrame) : Boundary frames 0 := ⟨0, rfl⟩

/-- The boundaries of `f :: fs`: its start, and those of `fs` moved by the size of `f`. -/
theorem boundary_cons_iff (f : WireFrame) (fs : List WireFrame) (p : ℕ) :
    Boundary (f :: fs) p ↔ p = 0 ∨ ∃ q, Boundary fs q ∧ p = 2 + (f.data.length + q) := by
  constructor
  · rintro ⟨k, rfl⟩
    cases k with
    | zero => exact Or.inl rfl
    | succ k => exact Or.inr ⟨_, ⟨k, rfl⟩, length_stream_take_succ f fs k⟩
  · rintro (rfl | ⟨_, ⟨k, rfl⟩, rfl⟩)
    · exact boundary_zero _
    · exact ⟨k + 1, (length_stream_take_succ f fs k).symm⟩

/-- Offsets behind the first frame are boundaries as they are in what follows it. -/
theorem boundary_cons_map_iff (f : WireFrame) (fs : List WireFrame) (qs : List ℕ) :
    (∀ p ∈ qs.map (fun q => 2 + (f.data.length + q)), Boundary (f :: fs) p) ↔
      ∀ q ∈ qs, Boundary fs q := by
  rw [List.forall_mem_map]
  refine forall₂_congr fun q _ => ?_
  rw [boundary_cons_iff]
  constructor
  · rintro (h | ⟨q', hq', he⟩)
    · omega
    · rwa [show q = q' by omega]
  · exact fun hq => Or.inr ⟨q, hq, rfl⟩

/-- No boundary lies inside the first frame. -/
theorem not_boundary_inside {f : WireFrame} {fs : List WireFrame} {p : ℕ} (hpos : 0 < p)
    (hlt : p < 2 + f.data.length) : ¬ Boundary (f :: fs) p := by
  rw [boundary_cons_iff]
  rintro (h | ⟨q, _, h⟩) <;> omega

/-- `p` bytes of the stream end between the two bytes of a prefix. -/
def InPrefix (frames : List WireFrame) (p : ℕ) : Prop :=
  ∃ k < frames.length, p = (stream (frames.take k)).length + 1

theorem inPrefix_one (f : WireFrame) (fs : List WireFrame) : InPrefix (f :: fs) 1 :=
  ⟨0, Nat.succ_pos _, rfl⟩

theorem InPrefix.cons {fs : List WireFrame} {q : ℕ} (h : InPrefix fs q) (f : WireFrame) :
    InPrefix (f :: fs) (2 + (f.data.length + q)) := by
  obtain ⟨k, hk, rfl⟩ := h
  exact ⟨k + 1, Nat.succ_lt_succ hk, by rw [length_stream_take_succ]; omega⟩

end WireFrame

open WireFrame

/-- The reader decoded exactly the frames written, lost no byte and has not ended. -/
structure ReadsExactly (r : Reading) (frames : List WireFrame) : Prop where
  decoded : r.decoded = frames.map WireFrame.data
  dropped : r.dropped = []
  alive : r.state.Alive

/-- A first frame that was decoded, in front of the others. -/
theorem readsExactly_cons_iff {r : Reading} {f : WireFrame} {fs : List WireFrame} :
    ReadsExactly { r with decoded := f.data :: r.decoded } (f :: fs) ↔ ReadsExactly r fs := by
  constructor
  · rintro ⟨hd, hx, ha⟩
    exact ⟨(List.cons.inj hd).2, hx, ha⟩
  · rintro ⟨hd, hx, ha⟩
    exact ⟨congrArg (f.data :: ·) hd, hx, ha⟩

theorem stream_eq_nil_of_short {frames : List WireFrame} (h : (stream frames).length < 2) :
    frames = [] := by
  cases frames with
  | nil => rfl
  | cons f fs =>
      rw [stream_cons, List.length_append, lengthPrefix_length] at h
      omega

/-- A deadline with nothing of the prefix read changes nothing. -/
theorem readsExactly_of_idle_timeout {evs evs₁ : List ConnEvent} {frames : List WireFrame}
    (h : readFull 2 evs = .timeout [] evs₁) :
    ReadsExactly (handleTCPServerResponse evs) frames ↔
      ReadsExactly (handleTCPServerResponse evs₁) frames := by
  rw [response_of_timeout h]
  exact ⟨fun ⟨hd, hx, ha⟩ => ⟨hd, hx, ha⟩, fun ⟨hd, hx, ha⟩ => ⟨hd, hx, ha⟩⟩

/-- **Exactly when timing is harmless.**  Whatever the chunks, the reader decodes exactly the
frames written, loses no byte and keeps the session if and only if every deadline expires
between two frames. -/
theorem reads_exactly_iff (frames : List WireFrame) (evs : List ConnEvent)
    (hstream : arrived evs = stream frames) :
    ReadsExactly (handleTCPServerResponse evs) frames ↔
      ∀ p ∈ deadlineOffsets evs, Boundary frames p := by
  induction hw : weight evs using Nat.strong_induction_on generalizing evs frames with
  | _ n ih =>
    cases h₁ : readFull 2 evs with
    | waiting got =>
        -- blocked in front of a frame: everything written has been read
        obtain ⟨hlen, harr, hoff⟩ := readFull_eq_waiting h₁
        rw [harr] at hstream
        rw [hstream] at hlen
        rw [stream_eq_nil_of_short hlen, hoff, response_of_waiting h₁]
        exact ⟨fun _ _ hp => absurd hp List.not_mem_nil, fun _ => ⟨rfl, rfl, trivial⟩⟩
    | timeout got evs₁ =>
        obtain ⟨hlen, harr, hoff, hlt⟩ := readFull_eq_timeout h₁
        cases got with
        | nil =>
            have hrec := ih _ (hw ▸ hlt) frames evs₁ (by rw [← hstream, harr]; rfl) rfl
            have hoff' : deadlineOffsets evs = 0 :: deadlineOffsets evs₁ := by
              rw [hoff]
              simp
            rw [readsExactly_of_idle_timeout h₁, hrec, hoff', List.forall_mem_cons]
            exact ⟨fun h => ⟨boundary_zero _, h⟩, fun h => h.2⟩
        | cons b bs =>
            -- the deadline expired inside the prefix: the byte read is lost
            rw [response_of_timeout h₁]
            constructor
            · rintro ⟨_, hx, _⟩
              exact absurd hx (by simp)
            · intro hb
              have hin := hb (b :: bs).length (by rw [hoff]; exact List.mem_cons_self)
              cases frames with
              | nil =>
                  rw [harr] at hstream
                  exact absurd hstream (by simp)
              | cons f fs => exact absurd hin (not_boundary_inside (by simp) (by omega))
    | full lenBuf evs₁ =>
        obtain ⟨hlen, harr, hoff, _, hlt⟩ := readFull_eq_full h₁
        cases frames with
        | nil =>
            rw [harr] at hstream
            rw [(List.append_eq_nil_iff.mp hstream).1] at hlen
            exact absurd hlen (by simp)
        | cons f fs =>
            -- the prefix of the first frame has been read whole
            rw [harr, stream_cons] at hstream
            obtain ⟨hpre, hrest⟩ :=
              List.append_inj hstream (hlen.trans (lengthPrefix_length f).symm)
            have hlength : readLength lenBuf = f.data.length := by
              rw [hpre]
              exact readLength_lengthPrefix f.fits
            have hok : ¬ (f.data.length = 0 ∨ maxTcpFrameSize < f.data.length) := by
              have hpos := f.data_pos
              have hfits := f.fits
              omega
            rw [response_of_length h₁ hlength hok]
            cases h₂ : readFull f.data.length evs₁ with
            | waiting got =>
                -- impossible: the whole body has arrived
                obtain ⟨hshort, harr₂, _⟩ := readFull_eq_waiting h₂
                rw [harr₂] at hrest
                rw [hrest, List.length_append] at hshort
                omega
            | timeout got evs₂ =>
                -- the deadline expired inside the body: the session ends
                obtain ⟨hshort, _, hoff₂, _⟩ := readFull_eq_timeout h₂
                constructor
                · rintro ⟨_, _, ha⟩
                  exact ha.elim
                · intro hb
                  have hin := hb (2 + got.length) (by rw [hoff, hoff₂]; simp)
                  exact absurd hin (not_boundary_inside (by omega) (by omega))
            | full data evs₂ =>
                obtain ⟨hdata, harr₂, hoff₂, hle₂, _⟩ := readFull_eq_full h₂
                rw [harr₂] at hrest
                obtain ⟨rfl, htail⟩ := List.append_inj hrest hdata
                have hlt₂ : weight evs₂ < n := by
                  have hlt' := hlt (by decide)
                  omega
                have hrec := ih _ hlt₂ fs evs₂ htail rfl
                have hoffs : deadlineOffsets evs =
                    (deadlineOffsets evs₂).map (fun q => 2 + (f.data.length + q)) := by
                  rw [hoff, hoff₂, List.map_map]
                  rfl
                rw [hoffs, readsExactly_cons_iff, hrec, boundary_cons_map_iff]

/-- **What has been read of a stream under way.**  As long as no deadline has expired between the
two bytes of a prefix, the packets decoded are the first of those written. -/
theorem decoded_isPrefix (frames : List WireFrame) (evs : List ConnEvent)
    (hstream : arrived evs <+: stream frames)
    (hdeadlines : ∀ p ∈ deadlineOffsets evs, ¬ InPrefix frames p) :
    (handleTCPServerResponse evs).decoded <+: frames.map WireFrame.data := by
  induction hw : weight evs using Nat.strong_induction_on generalizing evs frames with
  | _ n ih =>
    cases h₁ : readFull 2 evs with
    | waiting got =>
        rw [response_of_waiting h₁]
        exact List.nil_prefix
    | timeout got evs₁ =>
        obtain ⟨hlen, harr, hoff, hlt⟩ := readFull_eq_timeout h₁
        cases got with
        | nil =>
            rw [response_of_timeout h₁]
            have hoff' : deadlineOffsets evs = 0 :: deadlineOffsets evs₁ := by
              rw [hoff]
              simp
            rw [hoff'] at hdeadlines
            exact ih _ (hw ▸ hlt) frames evs₁ (by rwa [harr] at hstream)
              (fun p hp => hdeadlines p (List.mem_cons_of_mem _ hp)) rfl
        | cons b bs =>
            have hin := hdeadlines (b :: bs).length (by rw [hoff]; exact List.mem_cons_self)
            have hone : (b :: bs).length = 1 := by
              rw [List.length_cons] at hlen ⊢
              omega
            cases frames with
            | nil =>
                rw [harr] at hstream
                exact absurd (List.prefix_nil.mp hstream) (by simp)
            | cons f fs => exact absurd (hone ▸ inPrefix_one f fs) hin
    | full lenBuf evs₁ =>
        obtain ⟨hlen, harr, hoff, _, hlt⟩ := readFull_eq_full h₁
        obtain ⟨rest, hstream⟩ := hstream
        cases frames with
        | nil =>
            rw [harr] at hstream
            rw [(List.append_eq_nil_iff.mp (List.append_eq_nil_iff.mp hstream).1).1] at hlen
            exact absurd hlen (by simp)
        | cons f fs =>
            rw [harr, stream_cons, List.append_assoc] at hstream
            obtain ⟨hpre, hrest⟩ :=
              List.append_inj hstream (hlen.trans (lengthPrefix_length f).symm)
            have hlength : readLength lenBuf = f.data.length := by
              rw [hpre]
              exact readLength_lengthPrefix f.fits
            have hok : ¬ (f.data.length = 0 ∨ maxTcpFrameSize < f.data.length) := by
              have hpos := f.data_pos
              have hfits := f.fits
              omega
            rw [response_of_length h₁ hlength hok]
            cases h₂ : readFull f.data.length evs₁ with
            | waiting got => exact List.nil_prefix
            | timeout got evs₂ =>
                -- a deadline in the body ends the session
                exact List.nil_prefix
            | full data evs₂ =>
                obtain ⟨hdata, harr₂, hoff₂, hle₂, _⟩ := readFull_eq_full h₂
                rw [harr₂, List.append_assoc] at hrest
                obtain ⟨rfl, htail⟩ := List.append_inj hrest hdata
                have hlt₂ : weight evs₂ < n := by
                  have hlt' := hlt (by decide)
                  omega
                have hoffs : deadlineOffsets evs =
                    (deadlineOffsets evs₂).map (fun q => 2 + (f.data.length + q)) := by
                  rw [hoff, hoff₂, List.map_map]
                  rfl
                rw [hoffs, List.forall_mem_map] at hdeadlines
                rw [List.map_cons]
                exact List.cons_prefix_cons.mpr ⟨rfl, ih _ hlt₂ fs evs₂ ⟨rest, htail⟩
                  (fun q hq hin => hdeadlines q hq (hin.cons f)) rfl⟩

/-- A response of one byte for session 1, as the server frames it. -/
def oneFrame : WireFrame where
  data := encodeTcp 1 0 [42]
  nonempty := by decide
  fits := by decide

/-- Deadlines before and after the frame are harmless. -/
theorem reads_exactly_between_frames :
    arrived [.deadline, .bytes oneFrame.bytes, .deadline] = stream [oneFrame] ∧
      ReadsExactly (handleTCPServerResponse [.deadline, .bytes oneFrame.bytes, .deadline])
        [oneFrame] := by
  have hoffs : deadlineOffsets [.deadline, .bytes oneFrame.bytes, .deadline] =
      [(stream ([oneFrame].take 0)).length, (stream ([oneFrame].take 1)).length] := by decide
  refine ⟨by decide, (reads_exactly_iff [oneFrame] _ (by decide)).mpr ?_⟩
  rw [hoffs]
  exact List.forall_mem_cons.mpr ⟨⟨0, rfl⟩, List.forall_mem_singleton.mpr ⟨1, rfl⟩⟩

/-- A deadline after the first byte of the length prefix: that byte is lost and the frame is not
decoded. -/
theorem deadline_in_prefix_loses_byte :
    arrived [.bytes (oneFrame.bytes.take 1), .deadline, .bytes (oneFrame.bytes.drop 1)] =
        stream [oneFrame] ∧
      ¬ ReadsExactly (handleTCPServerResponse
        [.bytes (oneFrame.bytes.take 1), .deadline, .bytes (oneFrame.bytes.drop 1)])
        [oneFrame] := by
  refine ⟨by decide, ?_⟩
  rintro ⟨_, hdropped, _⟩
  have hread : readFull 2
      [.bytes (oneFrame.bytes.take 1), .deadline, .bytes (oneFrame.bytes.drop 1)] =
        .timeout (oneFrame.bytes.take 1) [.bytes (oneFrame.bytes.drop 1)] := by decide
  rw [response_of_timeout hread] at hdropped
  exact absurd (List.append_eq_nil_iff.mp hdropped).1 (by decide)

end Fproxy.GoResponseReader
