import Fproxy.Server.Machine

/-!
# The numbers of the responses of a session

`send_response_to_all_paths` numbers a response with the counter of the session object it finds in
the table, and any response task of the session may be the one that takes the number.  The numbers
of a session are distinct as long as the object stays in the table.

* `State.numbers` — the response that a section numbers.
* `Numbers` — what a step does to the counters; `Act.numbers` is the inversion lemma.
* `Numbering` — the responses of a session have distinct numbers, all of them below the counter of
  the object in the table.
* `Numbering.number` — one more response keeps that, as long as the counter does not wrap around.
-/

namespace Fproxy.Server

/-- A response that `send_response_to_all_paths` has given a number. -/
structure Response where
  sessionId : UInt64
  seq : UInt32
  payload : List UInt8
  deriving DecidableEq

/-- The response that a section numbers. -/
def State.numbers (s : State) : Event → Option Response
  | .receiver o _ _ =>
      match s.srv.receivers o with
      | .number payload =>
          (s.srv.sessions (s.srv.heap o).sessionId).map fun o' =>
            ⟨(s.srv.heap o).sessionId, (s.srv.heap o').responseSeq, payload⟩
      | _ => none
  | _ => none

/-- The sessions in the table are the same or fewer, and their counters stand where they stood. -/
structure SameNumbers (s s' : Server) : Prop where
  sessions : ∀ sid o, s'.sessions sid = some o → s.sessions sid = some o
  responseSeq : ∀ o, (s'.heap o).responseSeq = (s.heap o).responseSeq

/-- What a step does to the counters: nothing, the creation of a session, or one more number. -/
inductive Numbers (s : State) : Event → Server → Option Response → Prop
  | same {e : Event} {srv : Server} : SameNumbers s.srv srv → Numbers s e srv none
  | created {t : Task} {h : Handler} {now : ℕ} {b' : Bool} :
      s.handlers t = some h → h.pc = .create → s.srv.sessions h.sessionId = none →
      Numbers s (.handler t now true b') (s.srv.createSession h.sessionId now true).1 none
  | numbered {o o' : ObjId} {payload : List UInt8} {now : ℕ} {b : Bool} {srv : Server} :
      s.srv.receivers o = .number payload →
      s.srv.sessions (s.srv.heap o).sessionId = some o' →
      srv.sessions = s.srv.sessions → srv.heap = (s.srv.takeResponseSeq o').2.heap →
      Numbers s (.receiver o now b) srv
        (some ⟨(s.srv.heap o).sessionId, (s.srv.heap o').responseSeq, payload⟩)

@[simp] theorem touch_responseSeq (s : Server) (o o' : ObjId) (now : ℕ) :
    ((s.touch o now).heap o').responseSeq = (s.heap o').responseSeq := by
  by_cases h : o' = o <;> simp [touch, h]

@[simp] theorem checkDuplicate_responseSeq (s : Server) (o o' : ObjId) (seq : UInt32) :
    ((s.checkDuplicate o seq).2.heap o').responseSeq = (s.heap o').responseSeq := by
  by_cases h : o' = o <;> simp [checkDuplicate, h]

theorem takeResponseSeq_responseSeq (s : Server) (o o' : ObjId) :
    ((s.takeResponseSeq o).2.heap o').responseSeq =
      if o' = o then (s.heap o).responseSeq + 1 else (s.heap o').responseSeq := by
  by_cases h : o' = o <;> simp [takeResponseSeq, h]

theorem cleanupExpiredSessions_sameNumbers (s : Server) (now : ℕ) :
    SameNumbers s (s.cleanupExpiredSessions now) := by
  refine ⟨fun sid o h => (sessions_of_cleanupExpiredSessions h).2, fun o => ?_⟩
  simp only [cleanupExpiredSessions]
  split <;> rfl

/-- **Inversion.**  Sessions are created and responses numbered by one section each. -/
theorem Act.numbers {s s' : State} {e : Event} {obs : List Obs} (ha : Act s e s' obs) :
    Numbers s e s'.srv (s.numbers e) := by
  have hsame : s'.srv.sessions = s.srv.sessions →
      (∀ o, (s'.srv.heap o).responseSeq = (s.srv.heap o).responseSeq) →
      s.numbers e = none → Numbers s e s'.srv (s.numbers e) := by
    intro hsess hseq hnone
    rw [hnone]
    exact .same ⟨fun sid o h => by rwa [← hsess], hseq⟩
  cases ha with
  | @undecodable source e _ _ htcp hudp | @arrive source e _ _ _ _ _ htcp hudp _ =>
      refine hsame rfl (fun _ => rfl) ?_
      cases source with
      | udp l addr => exact congrArg s.numbers (hudp l addr rfl)
      | tcp c => exact congrArg s.numbers (htcp c rfl).2
  | createNew ht hpc hnone => exact .created ht hpc hnone
  | touch _ _ => exact hsame rfl (fun _ => touch_responseSeq _ _ _ _) rfl
  | checkDup _ _ _ | checkNew _ _ _ _ =>
      exact hsame rfl (fun _ => checkDuplicate_responseSeq _ _ _ _) rfl
  | removePath _ =>
      exact hsame (removeTcpPath_sessions _ _ _) (fun o => by simp [State.setConn]) rfl
  | responseTouch hpc _ =>
      exact hsame rfl (fun _ => touch_responseSeq _ _ _ _) (by simp only [State.numbers, hpc])
  | responseUntouched hpc _ | responsePaths hpc _ | responseSend hpc =>
      exact hsame rfl (fun _ => rfl) (by simp only [State.numbers, hpc])
  | @responseNumber o o' payload now b hpc hs =>
      have hnumbers : s.numbers (.receiver o now b) =
          some ⟨(s.srv.heap o).sessionId, (s.srv.heap o').responseSeq, payload⟩ := by
        simp only [State.numbers, hpc, hs, Option.map_some]
      rw [hnumbers]
      exact .numbered hpc hs rfl rfl
  | @responseOver o now b hover =>
      refine hsame rfl (fun _ => rfl) ?_
      simp only [State.numbers]
      split
      · next payload hpc =>
          rw [State.AnswerOver, hpc] at hover
          rw [hover, Option.map_none]
      · rfl
  | sweep => exact .same (cleanupExpiredSessions_sameNumbers _ _)
  | _ => exact hsame rfl (fun _ => rfl) rfl

/-! ### Distinct numbers -/

/-- The responses of a session have distinct numbers, and the counter of the object in the table is
above all of them. -/
structure Numbering (s : Server) (rs : List Response) (sid : UInt64) : Prop where
  below : ∀ o, s.sessions sid = some o → ∀ r ∈ rs, r.sessionId = sid →
    r.seq.toNat < (s.heap o).responseSeq.toNat
  distinct : ∀ (k k' : ℕ) (r r' : Response), rs[k]? = some r → rs[k']? = some r' → r.sessionId = sid →
    r'.sessionId = sid → r.seq = r'.seq → k = k'

namespace Numbering

variable {s s' : Server} {rs : List Response} {sid : UInt64}

/-- Frame rule. -/
theorem same (hi : Numbering s rs sid) (h : SameNumbers s s') : Numbering s' rs sid where
  below := fun o ho r hr hsid => by
    rw [h.responseSeq]
    exact hi.below o (h.sessions sid o ho) r hr hsid
  distinct := hi.distinct

/-- A session none of whose responses has a number. -/
theorem of_unnumbered (hnone : ∀ r ∈ rs, r.sessionId ≠ sid) : Numbering s rs sid where
  below := fun _ _ r hr hsid => absurd hsid (hnone r hr)
  distinct := fun _ _ r _ hk _ hsid => absurd hsid (hnone r (List.mem_of_getElem? hk))

/-- A new session counts on from nothing. -/
theorem create (hi : Numbering s rs sid) {sid' : UInt64} {now : ℕ}
    (hnone : s.sessions sid' = none) (halloc : ∀ sid o, s.sessions sid = some o → o ≠ s.next)
    (hun : sid' = sid → ∀ r ∈ rs, r.sessionId ≠ sid) :
    Numbering (s.createSession sid' now true).1 rs sid := by
  by_cases hsid : sid' = sid
  · exact of_unnumbered (hun hsid)
  · refine ⟨fun o ho => ?_, hi.distinct⟩
    simp only [createSession, hnone, if_true, Function.update_of_ne (Ne.symm hsid)] at ho ⊢
    rw [Function.update_of_ne (halloc sid o ho)]
    exact hi.below o ho

/-- One more response, of whatever session. -/
theorem number (hi : Numbering s rs sid) {sid' : UInt64} {o' : ObjId} {payload : List UInt8}
    (hs : s.sessions sid' = some o') (hsess : s'.sessions = s.sessions)
    (hheap : s'.heap = (s.takeResponseSeq o').2.heap)
    (hfit : (s.heap o').responseSeq.toNat + 1 < 2 ^ 32) :
    Numbering s' (rs ++ [⟨sid', (s.heap o').responseSeq, payload⟩]) sid := by
  have hstep : ((s.heap o').responseSeq + 1).toNat = (s.heap o').responseSeq.toNat + 1 := by
    rw [UInt32.toNat_add]
    exact Nat.mod_eq_of_lt hfit
  refine ⟨fun o ho r hr hsid => ?_, fun k k' r r' hk hk' hsid hsid' hseq => ?_⟩
  · rw [hsess] at ho
    rw [hheap, takeResponseSeq_responseSeq]
    rcases List.mem_append.mp hr with hr | hr
    · have hlt := hi.below o ho r hr hsid
      split
      · next he =>
          rw [hstep, ← he]
          omega
      · exact hlt
    · obtain rfl := List.mem_singleton.mp hr
      obtain rfl : o' = o := Option.some.inj (hs.symm.trans ((congrArg s.sessions hsid).trans ho))
      rw [if_pos rfl, hstep]
      exact Nat.lt_succ_self _
  · -- the number of the last response is above the others of its session
    have hlast : ∀ {j : ℕ} {q q' : Response},
        (rs ++ [⟨sid', (s.heap o').responseSeq, payload⟩])[j]? = some q → q.sessionId = sid →
          q' = ⟨sid', (s.heap o').responseSeq, payload⟩ → q'.sessionId = sid → q.seq = q'.seq →
            j = rs.length := by
      rintro j q q' hj hq rfl hq' he
      by_contra hne
      have hj : rs[j]? = some q := by
        rcases Nat.lt_or_ge j rs.length with hlt | hge
        · rwa [List.getElem?_append_left hlt] at hj
        · rw [List.getElem?_eq_none (by simp; omega)] at hj
          exact absurd hj (by simp)
      have hlt := hi.below o' (by rw [← hq']; exact hs) q (List.mem_of_getElem? hj) hq
      rw [he] at hlt
      exact Nat.lt_irrefl _ hlt
    have hcases : ∀ {j : ℕ} {q : Response},
        (rs ++ [⟨sid', (s.heap o').responseSeq, payload⟩])[j]? = some q → rs[j]? = some q ∨
          j = rs.length ∧ q = ⟨sid', (s.heap o').responseSeq, payload⟩ := by
      intro j q hj
      rcases Nat.lt_trichotomy j rs.length with hlt | rfl | hgt
      · exact Or.inl (by rwa [List.getElem?_append_left hlt] at hj)
      · exact Or.inr ⟨rfl, by simpa using hj.symm⟩
      · rw [List.getElem?_eq_none (by simp; omega)] at hj
        exact absurd hj (by simp)
    rcases hcases hk with hold | ⟨rfl, hr⟩
    · rcases hcases hk' with hold' | ⟨rfl, hr'⟩
      · exact hi.distinct k k' r r' hold hold' hsid hsid' hseq
      · exact hlast hk hsid hr' hsid' hseq
    · exact (hlast hk' hsid' hr hsid hseq.symm).symm

end Numbering

end Fproxy.Server
