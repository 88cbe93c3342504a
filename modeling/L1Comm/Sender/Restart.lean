import L1Comm.Machine.Reach
import L1Comm.Sender.Stop

/-!
Starting a worker again after `Stop`. A second thread would find `conn_struct`
as the first one left it, but there is no second thread: `Start` is to be called
once `Stop` has returned, which it never does. The thread aborts the process
where it passes the connect request to `uv_close`, whatever the state of the
connection is when it is told to stop.
-/

namespace L1Comm.Sender

open Uv

/-- A thread that has not been told to stop enters its loop, and finds
`conn_struct` as the first thread of a process does. -/
def EntersAfresh (s : State) : Prop :=
  s.worker.caller = .started ∧ s.worker.pc = .head ∧
    s.conn.status = .disconnect ∧ s.conn.timer = none

/-- The worker can be brought to where its thread starts as in a fresh process. -/
def StartsAgain (s : State) : Prop := machine.Leads machine.enabled EntersAfresh s

/-- `Stop` has been called and has not returned. -/
structure Stopping (s : State) : Prop extends Unreturned s where
  caller : s.worker.caller = .flagged ∨ s.worker.caller = .joining

namespace Stopping

variable {s : State} {e : Event}

/-- The thread has been created, so it cannot be created again. -/
theorem not_start (h : Stopping s) (henabled : Enabled s e) : e ≠ .start := by
  rintro rfl
  have hstopped := h.idle.mp henabled
  rcases h.caller with hcaller | hcaller <;> simp [hcaller] at hstopped

protected theorem next (h : Stopping s) (henabled : Enabled s e) : Stopping (next s e) := by
  refine ⟨h.toUnreturned.next henabled, ?_⟩
  rw [caller_next]
  cases e with
  | start => exact absurd rfl (h.not_start henabled)
  | stopFlag => exact .inl rfl
  | stopLoopClose => exact .inr rfl
  | stopJoin => exact absurd rfl (h.not_join henabled)
  | _ => exact h.caller

end Stopping

theorem stopping_run {host : String} {port : Int} {events : List Event}
    (hrun : machine.Runs (initial host port) events) (hstop : .stopFlag ∈ events) :
    Stopping (machine.after (initial host port) events) := by
  obtain ⟨earlier, later, rfl⟩ := List.append_of_mem hstop
  obtain ⟨hearlier, henabled, hlater⟩ := (Machine.along_append earlier (.stopFlag :: later)).mp hrun
  have hflagged : Stopping (next (machine.after (initial host port) earlier) .stopFlag) :=
    ⟨(unreturned_run hearlier).next henabled.2, .inl rfl⟩
  rw [Machine.after_append, Machine.after_cons]
  exact Machine.invariant (m := machine) (fun _ _ h henabled => h.next henabled.2) hflagged hlater

/-- A sender on which `Stop` has been called, in whatever state of the thread
and the connection, cannot be started again: nothing leads to a thread that
starts afresh, nor is there another `Start`. -/
theorem never_starts_again {host : String} {port : Int} {events : List Event}
    (hrun : machine.Runs (initial host port) events) (hstop : .stopFlag ∈ events) :
    ¬ StartsAgain (machine.after (initial host port) events) ∧
      ∀ later, machine.Runs (machine.after (initial host port) events) later →
        .start ∉ later := by
  have hstopping := stopping_run hrun hstop
  constructor
  · refine Machine.not_leads (I := Stopping) (fun _ _ h henabled _ => h.next henabled.2) ?_
      hstopping
    rintro s h ⟨hstarted, -⟩
    rcases h.caller with hcaller | hcaller <;> simp [hcaller] at hstarted
  · intro later hlater hstart
    obtain ⟨before, after, rfl⟩ := List.append_of_mem hstart
    obtain ⟨hbefore, henabled, -⟩ := (Machine.along_append before (.start :: after)).mp hlater
    have hlast := Machine.invariant (m := machine) (I := Stopping)
      (fun _ _ h henabled => h.next henabled.2) hstopping hbefore
    exact hlast.not_start henabled.2 rfl

/-- A connection is up when `Stop` is called; the thread finishes its `uv_run`,
and leaves its loop. -/
def connectedStopRun : List Event :=
  [.start, .enter, .test, .body 0, .connectCb 0 1 0, .stopFlag, .runEnd, .stopLoopClose,
   .test, .exit]

theorem never_starts_again_connectedStopRun :
    ¬ StartsAgain (machine.after (initial "10.0.0.2" 3011) connectedStopRun) ∧
      ∀ later, machine.Runs (machine.after (initial "10.0.0.2" 3011) connectedStopRun) later →
        .start ∉ later :=
  never_starts_again (by decide) (by decide)

/-- The process has aborted, so that nothing follows. -/
theorem stop_ends_process :
    machine.Runs (initial "10.0.0.2" 3011) connectedStopRun ∧
      (machine.after (initial "10.0.0.2" 3011) connectedStopRun).loop.fate = .aborted ∧
      ¬ StartsAgain (machine.after (initial "10.0.0.2" 3011) connectedStopRun) := by
  refine ⟨by decide, by decide, ?_⟩
  rintro ⟨events, hrun, -, hcaller, -⟩
  cases events with
  | nil => exact absurd hcaller (by decide)
  | cons e rest => exact not_enabled_of_aborted _ e (by decide) hrun.1

end L1Comm.Sender
