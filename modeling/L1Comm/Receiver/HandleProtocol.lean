import L1Comm.Receiver.Clients

/-!
The receiver and libuv's handle protocol. It closes what it has opened, and
releases a handle in its close callback and a buffer in the read that it was
made for. The one thing it can do twice is to close the server: `onConnection`
closes it when it is told of an error, and `exit` closes it in any case. That
is where libuv aborts, so a process that goes on has kept to the protocol.
-/

namespace L1Comm.Receiver

open Uv

/-- The thread does not come to its end after an error of its server. -/
def ExitSafe (s : State) : Event → Prop
  | .exit => ¬ ConnectionFailed s.trace s.worker.server
  | _ => True

/-- The invariant of the runs whose steps are all `ExitSafe`: the trace is
within the protocol, what listens or is read from is open, and the server of a
live thread is open up to the first error. -/
structure Lawful (s : State) : Prop where
  replayed : s.Replayed
  legal : protocol.Runs {} s.trace
  failed_lt : ∀ h, ConnectionFailed s.trace h → h < s.fresh
  stage_fresh : ∀ a, s.fresh ≤ a → s.loop.stage a = .uninitialised
  listening : ∀ h, s.loop.listening h = true → s.loop.stage h = .opened
  reading : ∀ h, s.loop.reading h = true → s.loop.stage h = .opened
  server : s.worker.pc.Live →
    (s.loop.stage s.worker.server = .opened ↔ ¬ ConnectionFailed s.trace s.worker.server)

theorem lawful_initial (host : String) (port : Int) (callback : Addr) :
    Lawful (initial host port callback) := by
  refine ⟨rfl, trivial, ?_, ?_, ?_, ?_, ?_⟩ <;> simp [initial, Pc.Live]

variable {s : State} {e : Event}

section Steps

variable {h : Addr}

theorem connectionFailed_next : ConnectionFailed (next s e).trace h ↔
    ConnectionFailed s.trace h ∨ ∃ status ret, e = .connectionCb h status ret ∧ status ≠ 0 := by
  rw [trace_next, connectionFailed_append]
  refine or_congr Iff.rfl ?_
  cases e with
  | connectionCb server status ret =>
      by_cases hstatus : status = 0
      · by_cases hret : ret = 0 <;> simp [calls, hstatus, hret]
      · simp [calls, hstatus]
  | readCb a nread buf => by_cases hnread : nread < 0 <;> simp [calls, hnread]
  | _ => simp [calls]

theorem server_next (hne : ∀ ret, e ≠ .enter ret) :
    (next s e).worker.server = s.worker.server := by
  cases e with
  | enter ret => exact absurd rfl (hne ret)
  | _ => rfl

/-- The thread comes into its loop from the beginning of `thread_task`. -/
theorem live_of_next (henabled : Enabled s e) (hlive : (next s e).worker.pc.Live) :
    s.worker.pc.Live ∨ ∃ ret, e = .enter ret := by
  cases e with
  | enter ret => exact .inr ⟨ret, rfl⟩
  | test => exact .inl (.inl henabled)
  | runEnd => exact .inl (.inr (.inl henabled))
  | start | exit | stopJoin => simp [next, exit, Pc.Live] at hlive
  | connectionCb | readCb | readErrorCb | closeCb | stopFlag | stopLoopClose => exact .inl hlive

end Steps

/-- A machine that reads the trace goes on with the calls of the step, from
the loop as the step finds it. -/
theorem runs_next (h : s.Replayed) (e : Event) :
    protocol.Runs {} (next s e).trace ↔
      protocol.Runs {} s.trace ∧ protocol.Runs s.loop (calls s e) := by
  rw [trace_next]
  exact h.runs_append rfl (calls s e)

/-- What listens or is read from has just been opened, or was so before and
has not been closed. -/
theorem opened_next (hplain : s.loop.stage s.fresh = .uninitialised)
    (hclosing : ∀ b, e = .closeCb b → s.loop.stage b = .closing) {a : Addr}
    (hold : s.loop.listening a = true ∨ s.loop.reading a = true → s.loop.stage a = .opened)
    (ha : (next s e).loop.listening a = true ∨ (next s e).loop.reading a = true) :
    (next s e).loop.stage a = .opened := by
  cases e with
  | enter ret =>
      by_cases hnew : s.fresh = a
      · simp [next, enter, hnew]
      · simp [next, enter, hnew] at ha ⊢
        exact hold ha
  | connectionCb server status ret =>
      by_cases hstatus : status = 0
      · by_cases hnew : s.fresh = a
        · by_cases hret : ret = 0
          · simp [next, onConnection, hstatus, hret, hnew]
          · simp [next, onConnection, hstatus, hret, hnew] at ha
        · by_cases hret : ret = 0 <;> simp [next, onConnection, hstatus, hret, hnew] at ha ⊢ <;>
            exact hold ha
      · by_cases hclosed : server = a
        · simp [next, onConnection, hstatus, hclosed] at ha
        · simp [next, onConnection, hstatus, hclosed] at ha ⊢
          exact hold ha
  | readCb b nread buf =>
      by_cases hnread : nread < 0
      · by_cases hclosed : b = a
        · simp [next, allocBuffer, onRead, hnread, hclosed] at ha
        · simp [next, allocBuffer, onRead, hnread, hclosed] at ha ⊢
          exact hold ha
      · simp [next, allocBuffer, onRead, hnread] at ha ⊢
        have hopen := hold ha
        have hother : s.fresh ≠ a := by
          rintro rfl
          rw [hplain] at hopen
          cases hopen
        simp [hother, hopen]
  | readErrorCb b nread =>
      by_cases hclosed : b = a
      · simp [next, hclosed] at ha
      · simp [next, hclosed] at ha ⊢
        exact hold ha
  | closeCb b =>
      simp [next, onClose] at ha ⊢
      have hopen := hold ha
      have hother : b ≠ a := by
        rintro rfl
        rw [hclosing b rfl] at hopen
        cases hopen
      simp [hother, hopen]
  | exit =>
      by_cases hclosed : s.worker.server = a
      · simp [next, exit, hclosed] at ha
      · simp [next, exit, hclosed] at ha ⊢
        exact hold ha
  | start | test | runEnd | stopFlag | stopLoopClose | stopJoin => exact hold ha

namespace Lawful

/-- The calls of a step that is not the end of a thread. -/
theorem legal_calls (h : Lawful s) (henabled : Enabled s e) (hok : ExitSafe s e) :
    protocol.Runs s.loop (calls s e) := by
  cases e with
  | enter ret => simp [calls]
  | connectionCb server status ret =>
      have hopen := h.listening server henabled.2
      by_cases hstatus : status = 0
      · by_cases hret : ret = 0 <;> simp [calls, hstatus, hret]
      · simp [calls, hstatus, hopen]
  | readCb a nread buf =>
      have hopen := h.reading a henabled.2.1
      have hplain := h.stage_fresh s.fresh le_rfl
      by_cases hnread : nread < 0 <;> simp [calls, hnread, hopen, hplain]
  | readErrorCb a nread =>
      have hopen := h.reading a henabled.2.1
      simp [calls, hopen]
  | closeCb a => simp [calls]
  | exit =>
      have hopen := (h.server (.inr (.inr henabled))).mpr hok
      simp [calls, hopen]
  | stopLoopClose => simp [calls]
  | start | test | runEnd | stopFlag | stopJoin => trivial

theorem open_next (h : Lawful s) (henabled : Enabled s e) {a : Addr}
    (ha : (next s e).loop.listening a = true ∨ (next s e).loop.reading a = true) :
    (next s e).loop.stage a = .opened := by
  refine opened_next (h.stage_fresh s.fresh le_rfl) ?_ (Or.rec (h.listening a) (h.reading a)) ha
  rintro b rfl
  exact henabled.2

theorem stage_fresh_next (h : Lawful s) (henabled : Enabled s e) {a : Addr}
    (ha : (next s e).fresh ≤ a) : (next s e).loop.stage a = .uninitialised := by
  have hplain := h.stage_fresh a (Nat.le_trans (fresh_le_next s e) ha)
  cases e with
  | enter ret =>
      have hnew : s.fresh ≠ a := Nat.ne_of_lt (Nat.lt_of_succ_le ha)
      simp [next, enter, hnew, hplain]
  | connectionCb server status ret =>
      by_cases hstatus : status = 0
      · have hnew : s.fresh ≠ a := by
          apply Nat.ne_of_lt
          by_cases hret : ret = 0 <;> simpa [next, onConnection, hstatus, hret] using ha
        by_cases hret : ret = 0 <;> simp [next, onConnection, hstatus, hret, hnew, hplain]
      · simp [next, onConnection, hstatus, hplain]
  | readCb b nread buf =>
      by_cases hnread : nread < 0 <;> simp [next, allocBuffer, onRead, hnread, hplain]
  | readErrorCb b nread => simp [next, hplain]
  | closeCb b =>
      have hother : b ≠ a := by
        rintro rfl
        have hclosing := henabled.2
        rw [hplain] at hclosing
        cases hclosing
      simp [next, onClose, hother, hplain]
  | exit => simp [next, exit, hplain]
  | start | test | runEnd | stopFlag | stopLoopClose | stopJoin => exact hplain

/-- The server of a live thread, after a step of another kind than `enter`. -/
theorem server_kept (h : Lawful s) (hwf : WellFormed s) (henabled : Enabled s e)
    (hlive : s.worker.pc.Live) (hne : ∀ ret, e ≠ .enter ret) (hexit : e ≠ .exit) :
    (next s e).loop.stage s.worker.server = .opened ↔
      ¬ ConnectionFailed (next s e).trace s.worker.server := by
  have hserver := h.server hlive
  have hnew : s.fresh ≠ s.worker.server := Nat.ne_of_gt hwf.server_lt
  rw [connectionFailed_next]
  cases e with
  | enter ret => exact absurd rfl (hne ret)
  | exit => exact absurd rfl hexit
  | connectionCb server status ret =>
      obtain ⟨-, rfl⟩ := hwf.listening server henabled.2
      by_cases hstatus : status = 0
      · by_cases hret : ret = 0 <;>
          simp [next, onConnection, hstatus, hret, hnew, hserver]
      · by_cases hopen : s.loop.stage s.worker.server = .opened <;>
          simp [next, onConnection, hstatus, hopen]
  | readCb b nread buf =>
      have hread := (hwf.reading b henabled.2.1).1
      have hother := (hwf.connections_lt b hread).2
      by_cases hnread : nread < 0 <;>
        simp [next, allocBuffer, onRead, hnread, hother, hnew, hserver]
  | readErrorCb b nread =>
      have hread := (hwf.reading b henabled.2.1).1
      have hother := (hwf.connections_lt b hread).2
      simp [next, hother, hserver]
  | closeCb b =>
      have hclosing := henabled.2
      by_cases hsame : b = s.worker.server
      · rw [hsame] at hclosing
        simp [hclosing] at hserver
        simp [next, onClose, hsame, hserver]
      · simp [next, onClose, hsame, hserver]
  | start | test | runEnd | stopFlag | stopLoopClose | stopJoin => simp [next, hserver]

theorem server_next (h : Lawful s) (hwf : WellFormed s) (henabled : Enabled s e)
    (hlive : (next s e).worker.pc.Live) :
    (next s e).loop.stage (next s e).worker.server = .opened ↔
      ¬ ConnectionFailed (next s e).trace (next s e).worker.server := by
  rcases live_of_next henabled hlive with hold | ⟨ret, rfl⟩
  · have hne : ∀ ret, e ≠ .enter ret := by
      rintro ret rfl
      have hstart : s.worker.pc = .start := henabled
      simp [Pc.Live, hstart] at hold
    have hexit : e ≠ .exit := by
      rintro rfl
      simp [next, exit, Pc.Live] at hlive
    rw [Receiver.server_next hne]
    exact h.server_kept hwf henabled hold hne hexit
  · have hunused : ¬ ConnectionFailed s.trace s.fresh := fun hfailed =>
      Nat.lt_irrefl _ (h.failed_lt _ hfailed)
    simp [next, enter, hunused]

theorem failed_lt_next (h : Lawful s) (hwf : WellFormed s) (henabled : Enabled s e) {a : Addr}
    (ha : ConnectionFailed (next s e).trace a) : a < (next s e).fresh := by
  apply Nat.lt_of_lt_of_le _ (fresh_le_next s e)
  rcases connectionFailed_next.mp ha with hold | ⟨status, ret, rfl, -⟩
  · exact h.failed_lt a hold
  · rw [(hwf.listening a henabled.2).2]
    exact hwf.server_lt

protected theorem next (h : Lawful s) (hwf : WellFormed s) (henabled : Enabled s e)
    (hok : ExitSafe s e) : Lawful (next s e) where
  replayed := replayed_next h.replayed e
  legal := (runs_next h.replayed e).mpr ⟨h.legal, h.legal_calls henabled hok⟩
  failed_lt _ := h.failed_lt_next hwf henabled
  stage_fresh _ := h.stage_fresh_next henabled
  listening _ ha := h.open_next henabled (.inl ha)
  reading _ ha := h.open_next henabled (.inr ha)
  server := h.server_next hwf henabled

/-- The server has been closed by the time the thread closes it. -/
theorem fault (h : Lawful s) (henabled : Enabled s e) (hbad : ¬ ExitSafe s e) :
    ¬ protocol.Runs {} (Receiver.next s e).trace := by
  rw [runs_next h.replayed]
  rintro ⟨-, hlegal⟩
  cases e with
  | exit =>
      have hfailed : ConnectionFailed s.trace s.worker.server := not_not.mp hbad
      have hopen : s.loop.stage s.worker.server = .opened := by simpa [calls] using hlegal
      exact (h.server (.inr (.inr henabled))).mp hopen hfailed
  | _ => exact hbad trivial

end Lawful

/-- The next step keeps to the protocol, unless libuv aborts in it. -/
theorem aborted_or_lawful_next (h : WellFormed s ∧ Lawful s) (henabled : machine.enabled s e) :
    (next s e).loop.fate = .aborted ∨ WellFormed (next s e) ∧ Lawful (next s e) := by
  by_cases hok : ExitSafe s e
  · exact .inr ⟨h.1.next henabled.2, h.2.next h.1 henabled.2 hok⟩
  · left
    cases e with
    | exit =>
        have hexit : s.worker.pc = .exit := henabled.2
        have hclosed := mt (h.2.server (.inr (.inr hexit))).mp hok
        simp [next, exit, hclosed]
    | _ => exact absurd trivial hok

/-- The trace of a run of the receiver is within libuv's handle protocol if
and only if no thread comes to its end after an error of its server has been
reported. -/
theorem handles_lawful_iff {host : String} {port : Int} {callback : Addr} {events : List Event}
    (hrun : machine.Runs (initial host port callback) events) :
    protocol.Runs {} (machine.after (initial host port callback) events).trace ↔
      machine.Along ExitSafe (initial host port callback) events :=
  Machine.last_iff_along (m := machine) (I := fun s => WellFormed s ∧ Lawful s)
    (fun s e _ hlegal => hlegal.of_prefix (by
      rw [show machine.next s e = next s e from rfl, trace_next]
      exact List.prefix_append _ _))
    (fun _ _ h henabled hok => ⟨h.1.next henabled.2, h.2.next h.1 henabled.2 hok⟩)
    (fun _ h => h.2.legal)
    (fun _ _ h henabled hbad => h.2.fault henabled.2 hbad)
    ⟨wellFormed_initial host port callback, lawful_initial host port callback⟩ hrun

theorem handles_lawful_iff_exhaustedRun :
    protocol.Runs {} (machine.after (initial "10.0.0.1" 3001 0) exhaustedRun).trace ↔
      machine.Along ExitSafe (initial "10.0.0.1" 3001 0) exhaustedRun :=
  handles_lawful_iff (by decide)

end L1Comm.Receiver
