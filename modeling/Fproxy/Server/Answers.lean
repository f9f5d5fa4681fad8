import Fproxy.Library.Simulation
import Fproxy.Server.Machine

/-!
# The server answers on every path

The response task of a session reads a datagram from the target, takes a number from the session
that is stored under its id, reads the list of paths once, and sends one packet on each of them.
Other tasks may add and remove paths, expire the session and store another one in between.

* `answerLog` — the runs of the server, observed through the answers of one response task.
* `Answer` — one datagram of the target with what became of it, and `Answer.Whole` — that it took
  every path.
* `Answering.act` — every move of the server extends the log by the next part of an answer.
* **`answers_leave_on_every_path`** — the log of every run is made of whole answers.
-/

namespace Fproxy.Server

open Fproxy.Protocol Fproxy.Runs

/-- Something went out on a path. -/
def Obs.isSent : Obs → Bool
  | .sentUdp _ _ _ | .sentTcp _ _ => true
  | _ => false

/-- One path of an answer: whether the send succeeds, and what goes out. -/
structure AnswerLeg where
  path : ClientPath
  sendOk : Bool
  sent : List Obs
  deriving DecidableEq

/-- What a response task does. -/
inductive AnswerLog where
  | read (payload : List UInt8)
  /-- The number it was given, unless the session is gone. -/
  | numbered (seq : Option UInt32)
  | found (paths : List ClientPath)
  | sent (leg : AnswerLeg)
  /-- Something went out otherwise. -/
  | stray (obs : Obs)
  deriving DecidableEq

/-- What a move means for the response task of an object. -/
def State.answerLog (s : State) (o : ObjId) (e : Event) (obs : List Obs) : List AnswerLog :=
  match e with
  | .targetReads o' payload => if o' = o then [.read payload] else []
  | .receiver o' _ sendOk =>
      if o' = o then
        match s.srv.receivers o with
        | .number _ =>
            [.numbered ((s.srv.sessions (s.srv.heap o).sessionId).map fun o' =>
              (s.srv.heap o').responseSeq)]
        | .paths _ _ => [.found ((s.srv.clientPaths (s.srv.heap o).sessionId).getD [])]
        | .sending _ _ (p :: _) => [.sent ⟨p, sendOk, obs⟩]
        | _ => obs.map .stray
      else []
  | _ => (obs.filter Obs.isSent).map .stray

/-- The server, observed through the answers of the response task of an object. -/
def answerLog (cfg : ServerConfig) (o : ObjId) : Machine State Event AnswerLog :=
  (machine cfg).observe fun s e _ obs => s.answerLog o e obs

/-- A datagram of the target, and what became of it. -/
structure Answer where
  payload : List UInt8
  seq : Option UInt32
  paths : List ClientPath
  legs : List AnswerLeg

/-- What an answer leaves in the log. -/
def Answer.log (a : Answer) : List AnswerLog :=
  .read a.payload :: .numbered a.seq ::
    match a.seq with
    | none => []
    | some _ => .found a.paths :: a.legs.map .sent

/-- On each path the packet with the number went out, unless the send failed. -/
def Answer.Sound (sessionId : UInt64) (a : Answer) : Prop :=
  ∀ l ∈ a.legs, ∃ seq, a.seq = some seq ∧
    l.sent = if l.sendOk then [sendOnPath sessionId seq a.payload l.path] else []

/-- An answer that has taken every path it found. -/
structure Answer.Whole (sessionId : UInt64) (a : Answer) : Prop where
  every : a.legs.map AnswerLeg.path = a.paths
  sound : a.Sound sessionId

/-- The part of an answer that the log has when the task stands at `pc`. -/
def Partial (sessionId : UInt64) : ReceiverPc → List AnswerLog → Prop
  | .idle, log | .recv, log | .done, log => log = []
  | .touch payload, log | .number payload, log => log = [.read payload]
  | .paths payload seq, log => log = [.read payload, .numbered (some seq)]
  | .sending payload seq rest, log => ∃ paths legs,
      log = Answer.log ⟨payload, some seq, paths, legs⟩ ∧ legs.map AnswerLeg.path ++ rest = paths ∧
        Answer.Sound sessionId ⟨payload, some seq, paths, legs⟩

/-- The log consists of whole answers and the part that goes with where the task stands. -/
def Answers (sessionId : UInt64) (pc : ReceiverPc) (log : List AnswerLog) : Prop :=
  ∃ (done : List Answer) (last : List AnswerLog), log = done.flatMap Answer.log ++ last ∧
    (∀ a ∈ done, a.Whole sessionId) ∧ Partial sessionId pc last

namespace Answers

variable {sid : UInt64} {log : List AnswerLog} {pc pc' : ReceiverPc} {payload : List UInt8}
  {seq : UInt32}

theorem nil (h : Partial sid pc []) : Answers sid pc [] :=
  ⟨[], [], rfl, fun _ hm => absurd hm List.not_mem_nil, h⟩

/-- The part of the answer grows. -/
theorem extend (h : Answers sid pc log) {next : List AnswerLog}
    (hpart : ∀ last, Partial sid pc last → Partial sid pc' (last ++ next)) :
    Answers sid pc' (log ++ next) := by
  obtain ⟨done, last, rfl, hdone, hlast⟩ := h
  exact ⟨done, last ++ next, by rw [List.append_assoc], hdone, hpart last hlast⟩

/-- The answer is over. -/
theorem close (h : Answers sid pc log) {next : List AnswerLog}
    (hpart : ∀ last, Partial sid pc last →
      ∃ a : Answer, a.Whole sid ∧ last ++ next = a.log) : Answers sid .recv (log ++ next) := by
  obtain ⟨done, last, rfl, hdone, hlast⟩ := h
  obtain ⟨a, ha, hlog⟩ := hpart last hlast
  refine ⟨done ++ [a], [], ?_, fun b hb => ?_, rfl⟩
  · rw [List.append_assoc, hlog]
    simp
  · rcases List.mem_append.mp hb with hb | hb
    · exact hdone b hb
    · rw [List.mem_singleton.mp hb]
      exact ha

/-- An answer that finds no session is whole. -/
theorem unnumbered (h : Answers sid (.number payload) log) :
    Answers sid .recv (log ++ [.numbered none]) := by
  refine h.close fun last hlast => ⟨⟨payload, none, [], []⟩,
    ⟨rfl, fun _ hm => absurd hm List.not_mem_nil⟩, ?_⟩
  rw [show last = _ from hlast]
  rfl

theorem number (h : Answers sid (.number payload) log) (seq : UInt32) :
    Answers sid (.paths payload seq) (log ++ [.numbered (some seq)]) := by
  refine h.extend fun last hlast => ?_
  rw [show last = _ from hlast]
  rfl

theorem find (h : Answers sid (.paths payload seq) log) (paths : List ClientPath) :
    Answers sid (.sending payload seq paths) (log ++ [.found paths]) := by
  refine h.extend fun last hlast => ⟨paths, [], ?_, rfl, fun _ hm => absurd hm List.not_mem_nil⟩
  rw [show last = _ from hlast]
  rfl

theorem leg {p : ClientPath} {ps : List ClientPath}
    (h : Answers sid (.sending payload seq (p :: ps)) log) (sendOk : Bool) :
    Answers sid (.sending payload seq ps)
      (log ++ [.sent ⟨p, sendOk, if sendOk then [sendOnPath sid seq payload p] else []⟩]) := by
  refine h.extend fun last hlast => ?_
  obtain ⟨paths, legs, hlog, hevery, hsound⟩ := hlast
  refine ⟨paths, legs ++ [⟨p, sendOk, if sendOk then [sendOnPath sid seq payload p] else []⟩],
    ?_, ?_, fun l hl => ?_⟩
  · rw [hlog]
    simp [Answer.log]
  · rw [← hevery]
    simp
  · rcases List.mem_append.mp hl with hl | hl
    · exact hsound l hl
    · rw [List.mem_singleton.mp hl]
      exact ⟨seq, rfl, rfl⟩

/-- The loop over the paths has come to its end. -/
theorem finish (h : Answers sid (.sending payload seq []) log) : Answers sid .recv log := by
  rw [← List.append_nil log]
  refine h.close fun last hlast => ?_
  obtain ⟨paths, legs, hlog, hevery, hsound⟩ := hlast
  rw [List.append_nil] at hevery
  exact ⟨_, ⟨hevery, hsound⟩, by rw [hlog, List.append_nil]⟩

/-- **A section of the response task** is the next part of an answer. -/
theorem receiver {s s' : State} {o : ObjId} {now : ℕ} {sendOk : Bool} {obs : List Obs}
    (hi : Answers (s.srv.heap o).sessionId (s.srv.receivers o) log)
    (hs : stepReceiver s o now sendOk = some (s', obs)) :
    Answers (s.srv.heap o).sessionId (s'.srv.receivers o)
      (log ++ s.answerLog o (.receiver o now sendOk) obs) := by
  have hat : ∀ (t : State) (pc : ReceiverPc), (t.setReceiver o pc).srv.receivers o = pc :=
    fun t pc => Function.update_self _ _ _
  unfold stepReceiver at hs
  dsimp only at hs
  simp only [State.answerLog, if_true]
  cases hpc : s.srv.receivers o with
  | idle | recv | done =>
      rw [hpc] at hs
      exact absurd hs (by simp)
  | touch payload =>
      rw [hpc] at hi
      simp only [hpc] at hs
      obtain ⟨rfl, rfl⟩ := Prod.mk.inj (Option.some.inj hs)
      rw [hat, List.map_nil, List.append_nil]
      exact hi
  | number payload =>
      rw [hpc] at hi
      simp only [hpc] at hs
      cases hsess : s.srv.sessions (s.srv.heap o).sessionId with
      | none =>
          simp only [hsess] at hs
          obtain ⟨rfl, rfl⟩ := Prod.mk.inj (Option.some.inj hs)
          rw [hat]
          exact hi.unnumbered
      | some o' =>
          simp only [hsess] at hs
          obtain ⟨rfl, rfl⟩ := Prod.mk.inj (Option.some.inj hs)
          rw [hat]
          exact hi.number _
  | paths payload seq =>
      rw [hpc] at hi
      simp only [hpc] at hs
      -- without paths the task does not enter the loop
      cases hpaths : s.srv.clientPaths (s.srv.heap o).sessionId with
      | none =>
          simp only [hpaths] at hs
          obtain ⟨rfl, rfl⟩ := Prod.mk.inj (Option.some.inj hs)
          rw [hat]
          exact (hi.find []).finish
      | some paths =>
          cases paths with
          | nil =>
              simp only [hpaths] at hs
              obtain ⟨rfl, rfl⟩ := Prod.mk.inj (Option.some.inj hs)
              rw [hat]
              exact (hi.find []).finish
          | cons p ps =>
              simp only [hpaths] at hs
              obtain ⟨rfl, rfl⟩ := Prod.mk.inj (Option.some.inj hs)
              rw [hat]
              exact hi.find (p :: ps)
  | sending payload seq rest =>
      rw [hpc] at hi
      cases rest with
      | nil =>
          simp only [hpc] at hs
          obtain ⟨rfl, rfl⟩ := Prod.mk.inj (Option.some.inj hs)
          rw [hat, List.map_nil, List.append_nil]
          exact hi.finish
      | cons p ps =>
          simp only [hpc] at hs
          obtain ⟨rfl, rfl⟩ := Prod.mk.inj (Option.some.inj hs)
          rw [hat]
          exact hi.leg sendOk

/-- What is under way can be completed. -/
theorem completes (h : Answers sid pc log) :
    ∃ (done : List Answer) (part : List AnswerLog) (last : Answer),
      log = done.flatMap Answer.log ++ part ∧ (∀ a ∈ done, a.Whole sid) ∧
        part <+: last.log ∧ last.Whole sid ∧ Partial sid pc part := by
  obtain ⟨done, part, hlog, hdone, hpart⟩ := h
  have hempty : ∀ (payload : List UInt8) (seq : Option UInt32),
      Answer.Whole sid ⟨payload, seq, [], []⟩ :=
    fun _ _ => ⟨rfl, fun _ hm => absurd hm List.not_mem_nil⟩
  cases pc with
  | idle | recv | done =>
      obtain rfl : part = [] := hpart
      exact ⟨done, [], ⟨[], none, [], []⟩, hlog, hdone, List.nil_prefix, hempty _ _, rfl⟩
  | touch payload | number payload =>
      exact ⟨done, part, ⟨payload, none, [], []⟩, hlog, hdone,
        by rw [show part = _ from hpart]; exact ⟨[.numbered none], rfl⟩, hempty _ _, hpart⟩
  | paths payload seq =>
      exact ⟨done, part, ⟨payload, some seq, [], []⟩, hlog, hdone,
        by rw [show part = _ from hpart]; exact ⟨[.found []], rfl⟩, hempty _ _, hpart⟩
  | sending payload seq rest =>
      obtain ⟨paths, legs, hpre, hevery, hsound⟩ := hpart
      refine ⟨done, part, ⟨payload, some seq, paths, legs ++ rest.map fun p => ⟨p, false, []⟩⟩,
        hlog, hdone, ?_, ⟨?_, fun l hl => ?_⟩, ⟨paths, legs, hpre, hevery, hsound⟩⟩
      · rw [hpre]
        simp [Answer.log]
      · rw [← hevery]
        simp [Function.comp_def]
      · rcases List.mem_append.mp hl with hl | hl
        · exact hsound l hl
        · obtain ⟨p, -, rfl⟩ := List.mem_map.mp hl
          exact ⟨seq, rfl, rfl⟩

end Answers

/-- The log goes with where the task of an object stands; an object that is not created yet has no
task. -/
structure Answering (o : ObjId) (s : State) (log : List AnswerLog) : Prop where
  answers : Answers (s.srv.heap o).sessionId (s.srv.receivers o) log
  unborn : s.srv.next ≤ o → s.srv.receivers o = .idle ∧ log = []

namespace Answering

variable {o : ObjId} {s s' : State} {log : List AnswerLog}

/-- A move that the task does not take part in. -/
theorem frame (hi : Answering o s log) (hnext : s'.srv.next = s.srv.next)
    (hid : (s'.srv.heap o).sessionId = (s.srv.heap o).sessionId)
    (hpc : s'.srv.receivers o = s.srv.receivers o) : Answering o s' (log ++ []) := by
  rw [List.append_nil]
  refine ⟨?_, fun h => ?_⟩
  · rw [hid, hpc]
    exact hi.answers
  · rw [hpc]
    exact hi.unborn (hnext ▸ h)

/-- A move of the task. -/
theorem move (hi : Answering o s log) (hborn : s.srv.receivers o ≠ .idle)
    (hnext : s'.srv.next = s.srv.next)
    (hid : (s'.srv.heap o).sessionId = (s.srv.heap o).sessionId) {next : List AnswerLog}
    (h : Answers (s.srv.heap o).sessionId (s'.srv.receivers o) (log ++ next)) :
    Answering o s' (log ++ next) := by
  refine ⟨?_, fun hle => absurd (hi.unborn (hnext ▸ hle)).1 hborn⟩
  rw [hid]
  exact h

/-- The task waits for the target, and is given a datagram or ends. -/
theorem leave {pc : ReceiverPc} {next : List AnswerLog} (hi : Answering o s log)
    (hrecv : s.srv.receivers o = .recv)
    (hpart : Partial (s.srv.heap o).sessionId pc next) :
    Answering o (s.setReceiver o pc) (log ++ next) := by
  refine @move o s (s.setReceiver o pc) log hi (by rw [hrecv]; simp) rfl rfl next ?_
  show Answers _ (Function.update s.srv.receivers o pc o) _
  rw [Function.update_self]
  have hanswers := hi.answers
  rw [hrecv] at hanswers
  refine hanswers.extend fun last hlast => ?_
  rw [show last = [] from hlast]
  exact hpart

/-- The step lemma. -/
theorem act {e : Event} {obs : List Obs} (hi : Answering o s log)
    (hs : Server.step s e = some (s', obs)) : Answering o s' (log ++ s.answerLog o e obs) := by
  have hother : ∀ {o' : ObjId} {pc : ReceiverPc} {t : State}, o' ≠ o →
      (t.setReceiver o' pc).srv.receivers o = t.srv.receivers o :=
    fun h => Function.update_of_ne (Ne.symm h) _ _
  have ha := act_of_step hs
  by_cases hrec : ∃ now b, e = .receiver o now b
  · obtain ⟨now, b, rfl⟩ := hrec
    have hborn : s.srv.receivers o ≠ .idle := by
      intro hidle
      have hs : stepReceiver s o now b = some (s', obs) := hs
      simp only [stepReceiver, hidle] at hs
      exact absurd hs (by simp)
    refine hi.move hborn ?_ ?_ (hi.answers.receiver hs)
    · cases ha <;> rfl
    · cases ha with
      | responseTouch _ _ => exact touch_sessionId _ _ _ _
      | responseNumber _ _ => exact takeResponseSeq_sessionId _ _ _
      | _ => rfl
  · have hne : ∀ {o' : ObjId} {now : ℕ} {b : Bool}, e = .receiver o' now b → o' ≠ o :=
      fun he ho => hrec ⟨_, _, ho ▸ he⟩
    cases ha with
    | createNew _ _ hnone =>
        simp only [State.answerLog, createSession, hnone, if_true]
        by_cases ho : o = s.srv.next
        · obtain ⟨-, rfl⟩ := hi.unborn (le_of_eq ho.symm)
          refine ⟨?_, fun hle => ?_⟩
          · show Answers _ (Function.update s.srv.receivers s.srv.next .recv o) _
            rw [ho, Function.update_self]
            exact .nil rfl
          · have hle : s.srv.next + 1 ≤ o := hle
            exact absurd hle (by rw [ho]; exact Nat.not_succ_le_self _)
        · refine ⟨?_, fun hle => ?_⟩
          · show Answers (Function.update s.srv.heap s.srv.next _ o).sessionId
              (Function.update s.srv.receivers s.srv.next .recv o) (log ++ [])
            rw [Function.update_of_ne ho, Function.update_of_ne ho, List.append_nil]
            exact hi.answers
          · have hle : s.srv.next + 1 ≤ o := hle
            show Function.update s.srv.receivers s.srv.next .recv o = _ ∧ log ++ [] = []
            rw [Function.update_of_ne ho, List.append_nil]
            exact hi.unborn (Nat.le_of_succ_le hle)
    | @targetReads o' payload hrecv =>
        by_cases ho : o' = o
        · subst ho
          simp only [State.answerLog, if_true]
          exact hi.leave hrecv rfl
        · simp only [State.answerLog, if_neg ho]
          exact hi.frame rfl rfl (hother ho)
    | @targetFails o' hrecv | @receiverCancelled o' hrecv _ =>
        by_cases ho : o' = o
        · subst ho
          exact hi.leave hrecv rfl
        · exact hi.frame rfl rfl (hother ho)
    | responseTouch _ _ =>
        simp only [State.answerLog, if_neg (hne rfl)]
        exact hi.frame rfl (touch_sessionId _ _ _ _) (hother (hne rfl))
    | responseNumber _ _ =>
        simp only [State.answerLog, if_neg (hne rfl)]
        exact hi.frame rfl (takeResponseSeq_sessionId _ _ _) (hother (hne rfl))
    | responseUntouched _ _ | responsePaths _ _ | responseSend _ | responseOver _ =>
        simp only [State.answerLog, if_neg (hne rfl)]
        exact hi.frame rfl rfl (hother (hne rfl))
    | touch _ _ => exact hi.frame rfl (touch_sessionId _ _ _ _) rfl
    | checkDup _ _ _ | checkNew _ _ _ _ => exact hi.frame rfl (checkDuplicate_sessionId _ _ _ _) rfl
    | sweep => exact hi.frame rfl (cleanupExpiredSessions_sessionId _ _ _) rfl
    | @removePath c sid _ =>
        refine hi.frame (s.srv.removeTcpPath_next sid c) ?_ ?_
        · show ((s.srv.removeTcpPath sid c).heap o).sessionId = _
          rw [removeTcpPath_heap]
        · show (s.srv.removeTcpPath sid c).receivers o = _
          rw [removeTcpPath_receivers]
    | @undecodable source _ data _ htcp hudp
    | @arrive source _ data sid seq payload _ htcp hudp _ =>
        have hlog : s.answerLog o e [] = [] := by
          cases source with
          | udp l addr => rw [hudp l addr rfl]; rfl
          | tcp c => rw [(htcp c rfl).2]; rfl
        rw [hlog]
        exact hi.frame rfl rfl rfl
    | _ => exact hi.frame rfl rfl rfl

end Answering

section Runs

variable {cfg : ServerConfig} {o : ObjId} {es : List Event} {s : State} {log : List AnswerLog}

/-- The run lemma. -/
theorem answering_exec (h : (answerLog cfg o).exec es = some (s, log)) : Answering o s log := by
  refine (answerLog cfg o).exec_induction (P := fun _ s log => Answering o s log)
    ⟨.nil rfl, fun _ => ⟨rfl, rfl⟩⟩ (fun es s log e s' next _ hi hs => ?_) es s log h
  obtain ⟨obs, hstep, rfl⟩ := Machine.observe_step.mp hs
  exact hi.act hstep

/-- **The server answers on every path.**  What the response task of a session object does in a
run is a sequence of whole answers, and at most the beginning of one more: it reads a datagram from
the target, takes one number from the session stored under its id, finds the list of paths, and
sends the packet with that number on each of them, in order and once, except where the send fails.
Without a stored session or a list it sends nothing, and nothing is sent otherwise. -/
theorem answers_leave_on_every_path (h : (answerLog cfg o).exec es = some (s, log)) :
    ∃ (done : List Answer) (part : List AnswerLog) (last : Answer),
      log = done.flatMap Answer.log ++ part ∧
        (∀ a ∈ done, a.Whole (s.srv.heap o).sessionId) ∧
        part <+: last.log ∧ last.Whole (s.srv.heap o).sessionId ∧
        (s.srv.receivers o = .recv ∨ s.srv.receivers o = .done → part = []) := by
  obtain ⟨done, part, last, hlog, hdone, hpre, hlast, hpart⟩ := (answering_exec h).answers.completes
  refine ⟨done, part, last, hlog, hdone, hpre, hlast, fun hpc => ?_⟩
  rcases hpc with hpc | hpc
  all_goals
    rw [hpc] at hpart
    exact hpart

end Runs

/-- A packet that creates session 7, and a datagram of its target, which is answered. -/
def answerOnce : List Event :=
  .udpArrives 0 demoAddr (Protocol.encodeUdp 7 0 [1]) ::
    (List.replicate 6 (Event.handler (.listener 0) 10 true true) ++
      Event.targetReads 0 [9] :: List.replicate 5 (Event.receiver 0 11 true))

/-- One packet leaves on the path the session has. -/
theorem answers_leave_on_every_path_once :
    ∃ s log, (answerLog demoConfig 0).exec answerOnce = some (s, log) ∧
      log = [.read [9], .numbered (some 0), .found [.udp demoAddr 0],
        .sent ⟨.udp demoAddr 0, true, [sendOnPath 7 0 [9] (.udp demoAddr 0)]⟩] ∧
      s.srv.receivers 0 = .recv ∧
      ∃ (done : List Answer) (part : List AnswerLog) (last : Answer),
        log = done.flatMap Answer.log ++ part ∧
          (∀ a ∈ done, a.Whole (s.srv.heap 0).sessionId) ∧
          part <+: last.log ∧ last.Whole (s.srv.heap 0).sessionId ∧
          (s.srv.receivers 0 = .recv ∨ s.srv.receivers 0 = .done → part = []) := by
  have hview : ((answerLog demoConfig 0).exec answerOnce).map
      (fun r => (r.2, r.1.srv.receivers 0)) =
        some ([.read [9], .numbered (some 0), .found [.udp demoAddr 0],
          .sent ⟨.udp demoAddr 0, true, [sendOnPath 7 0 [9] (.udp demoAddr 0)]⟩], .recv) := by
    decide
  obtain ⟨⟨s, log⟩, hrun, hv⟩ := Option.map_eq_some_iff.mp hview
  obtain ⟨hlog, hrecv⟩ := Prod.mk.inj hv
  exact ⟨s, log, hrun, hlog, hrecv, answers_leave_on_every_path hrun⟩

end Fproxy.Server
