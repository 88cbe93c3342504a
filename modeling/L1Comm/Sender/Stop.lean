import L1Comm.Sender.Invariant
import L1Comm.Uv.Queue

/-!
`Stop` of a sender. The thread that leaves its loop passes the connect request
to `uv_close`, and libuv aborts. So a thread which is told to stop does not
return: whoever calls `Stop` closes the loop, if at all, while the thread still
uses it, and never comes back from joining the thread.
-/

namespace L1Comm.Sender

open Uv

def Event.IsCallback : Event → Prop
  | .connectCb .. | .writeCb .. | .timerCb .. | .closeCb _ => True
  | _ => False

/-- The last two calls of `Stop`. -/
def Event.EndsStop (e : Event) : Prop := e = .stopLoopClose ∨ e = .stopJoin

/-- What `Stop` is owed at these calls: the loop is closed after the thread has
returned, and it can be closed; and when the thread has been joined every
handle has had its close callback, and no callback could run any more if the
loop were run again. -/
def StopComplete (s : State) : Event → Prop
  | .stopLoopClose => s.worker.pc = .done ∧ loopCloseRet s.loop = 0
  | .stopJoin => (∀ h, Created s.trace h → .closeCb h ∈ s.trace) ∧
      ∀ e : Event, e.IsCallback → ¬ Enabled {s with worker.pc := .run} e
  | _ => True

/-- Only the calls of `Start` and `Stop` take the caller from one place to another. -/
theorem caller_next (s : State) (e : Event) : (next s e).worker.caller =
    match e with
    | .start => .started
    | .stopFlag => .flagged
    | .stopLoopClose => .joining
    | .stopJoin => .stopped
    | _ => s.worker.caller := by
  cases e with
  | body ret =>
      by_cases hstatus : s.conn.status = .disconnect <;> simp [next, body, hstatus]
  | exit =>
      rw [next]
      rcases exit_worker s with hsame | hsame <;> rw [hsame]
  | _ => rfl

/-- A worker whose thread, if it has been created, has not returned. -/
structure Unreturned (s : State) : Prop where
  wellFormed : WellFormed s
  not_done : s.worker.pc ≠ .done
  idle : s.worker.pc = .idle ↔ s.worker.caller = .stopped

theorem unreturned_initial (host : String) (port : Int) : Unreturned (initial host port) :=
  ⟨wellFormed_initial host port, by simp [initial], by simp [initial]⟩

namespace Unreturned

variable {s : State} {e : Event}

theorem not_join (h : Unreturned s) (henabled : Enabled s e) : e ≠ .stopJoin := by
  rintro rfl
  exact h.not_done henabled.2

protected theorem next (h : Unreturned s) (henabled : Enabled s e) : Unreturned (next s e) := by
  refine ⟨h.wellFormed.next henabled, h.wellFormed.not_done_next h.not_done henabled, ?_⟩
  rw [caller_next]
  have hidle := h.idle
  cases e with
  | start => simp [Sender.next]
  | enter | runEnd =>
      have hpc : s.worker.pc = _ := henabled
      simpa [Sender.next, Sender.enter, hpc] using hidle
  | test =>
      have hpc : s.worker.pc = .head := henabled
      have hcaller : s.worker.caller ≠ .stopped := by simpa [hpc] using hidle
      simp only [Sender.next]
      split <;> simp [hcaller]
  | body ret =>
      have hpc : s.worker.pc = .body := henabled
      simpa [Sender.next, Sender.body, hpc] using hidle
  | connectCb | writeCb | timerCb | closeCb => exact hidle
  | exit =>
      rw [Sender.next, exit_eq (h.wellFormed.connect_plain (.inr (.inr (.inr henabled)))).2]
      exact hidle
  | stopFlag =>
      have hcaller : s.worker.caller = .started := henabled
      simpa [Sender.next, hcaller] using hidle
  | stopLoopClose =>
      have hcaller : s.worker.caller = .flagged := henabled
      simpa [Sender.next, hcaller] using hidle
  | stopJoin => exact absurd rfl (h.not_join henabled)

theorem not_complete (h : Unreturned s) (henabled : Enabled s e) (hends : e.EndsStop) :
    ¬ StopComplete s e := by
  rcases hends with rfl | rfl
  · exact fun hcomplete => h.not_done hcomplete.1
  · exact absurd rfl (h.not_join henabled)

end Unreturned

theorem unreturned_run {host : String} {port : Int} {events : List Event}
    (hrun : machine.Runs (initial host port) events) :
    Unreturned (machine.after (initial host port) events) :=
  Machine.invariant (m := machine) (fun _ _ h henabled => h.next henabled.2)
    (unreturned_initial host port) hrun

/-- No `Stop` of any run closes the loop as it should, and none returns. -/
theorem stop_never_returns {host : String} {port : Int} {events : List Event}
    (hrun : machine.Runs (initial host port) events) :
    machine.Along (fun s e => (e.EndsStop → ¬ StopComplete s e) ∧ e ≠ .stopJoin)
      (initial host port) events :=
  Machine.along_of_invariant (m := machine) (I := Unreturned)
    (fun _ _ h henabled _ => h.next henabled.2)
    (fun _ _ h henabled _ => ⟨h.not_complete henabled.2, h.not_join henabled.2⟩)
    (unreturned_initial host port) hrun hrun

end L1Comm.Sender
