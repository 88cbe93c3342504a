import L1Comm.Sender.Payloads

/-!
Null pointers. Three pointers of the sender start as null, `socket` and `timer`
of `conn_struct` and the local variable `socket`, and libuv takes none of the
three where it is null. The callbacks do not test them; they are safe because a
callback of a timer or of a write cannot come before a connect has succeeded,
and that cannot come before a turn of the loop has made a socket. The end of
`thread_task` does not test its `socket` either, but libuv does not come back
from the call before.
-/

namespace L1Comm.Sender

open Uv

/-- The call is handed no null pointer. -/
def NonNull : Call → Prop
  | .write _ p _ _ | .timerStop p | .close p | .free p => p ≠ none
  | _ => True

/-- Which pointer is null no longer while something is going on. A connect
needs the socket, a timer both, and a write has needed a timer. -/
structure Pointed (s : State) : Prop where
  wellFormed : WellFormed s
  connects : s.loop.connects ≠ [] → s.conn.socket ≠ none
  active : ∀ t, s.loop.active t = true → s.conn.timer ≠ none ∧ s.conn.socket ≠ none
  writes : s.loop.writes ≠ [] → s.conn.timer ≠ none

theorem pointed_initial (host : String) (port : Int) : Pointed (initial host port) := by
  refine ⟨wellFormed_initial host port, ?_, ?_, ?_⟩ <;> simp [initial]

/-- `conn_struct.timer` is never set back to null. -/
theorem timer_next_ne_none {s : State} {e : Event} (h : s.conn.timer ≠ none) :
    (next s e).conn.timer ≠ none := by
  rw [timer_next]
  split
  · exact Option.some_ne_none _
  · exact h

namespace Pointed

variable {s : State} {e : Event}

theorem connects_next (h : Pointed s) (hne : (next s e).loop.connects ≠ []) :
    (next s e).conn.socket ≠ none := by
  obtain ⟨c, hc⟩ := List.exists_mem_of_ne_nil _ hne
  apply socket_next_ne_none
  rcases mem_connects_next s e hc with hold | ⟨-, hwrites⟩
  · exact .inl (h.connects (List.ne_nil_of_mem hold))
  · exact .inr hwrites

/-- A timer is started by a connect that was pending. -/
theorem active_next (h : Pointed s) (henabled : Enabled s e) (t : Addr)
    (hactive : (next s e).loop.active t = true) :
    (next s e).conn.timer ≠ none ∧ (next s e).conn.socket ≠ none := by
  rcases Sender.active_next s e hactive with hold | ⟨-, hfresh, req, a, status, rfl⟩
  · obtain ⟨htimer, hsocket⟩ := h.active t hold
    exact ⟨timer_next_ne_none htimer, socket_next_ne_none (.inl hsocket)⟩
  · have hsocket := h.connects (List.ne_nil_of_mem henabled.2.1)
    refine ⟨?_, socket_next_ne_none (.inl hsocket)⟩
    by_cases hstatus : status < 0
    · rw [connectCb_failed req hstatus] at hfresh
      exact absurd hfresh (Nat.ne_of_lt (Nat.lt_succ_self _))
    · rw [connectCb_conn req hstatus]
      exact Option.some_ne_none _

/-- The timer whose callback writes is running. -/
theorem writes_next (h : Pointed s) (henabled : Enabled s e)
    (hne : (next s e).loop.writes ≠ []) : (next s e).conn.timer ≠ none := by
  apply timer_next_ne_none
  cases e with
  | timerCb t heap ret => exact (h.active t henabled.2).1
  | writeCb req a status => exact h.writes (List.ne_nil_of_mem henabled.2.1)
  | _ =>
      rw [Sender.writes_next s _ (by simp) (by simp)] at hne
      exact h.writes hne

protected theorem next (h : Pointed s) (henabled : Enabled s e) : Pointed (next s e) where
  wellFormed := h.wellFormed.next henabled
  connects := h.connects_next
  active := h.active_next henabled
  writes := h.writes_next henabled

theorem nonNull_calls (h : Pointed s) (henabled : Enabled s e) :
    ∀ c ∈ calls s e, NonNull c := by
  cases e with
  | body ret =>
      by_cases hstatus : s.conn.status = .disconnect
      · cases hsocket : s.worker.socket <;> simp [calls, NonNull, hstatus, hsocket]
      · simp [calls, hstatus]
  | connectCb req a status =>
      by_cases hstatus : status < 0
      · simp [calls, NonNull, hstatus]
      · cases htimer : s.conn.timer <;> simp [calls, NonNull, hstatus, htimer]
  | writeCb req a status =>
      obtain ⟨-, payload, -, hdata, -⟩ := h.wellFormed.writes_plain _ henabled.2.1
      have htimer := h.writes (List.ne_nil_of_mem henabled.2.1)
      by_cases hstatus : status < 0 <;> simp [calls, NonNull, hstatus, hdata, htimer]
  | timerCb t heap ret =>
      have hsocket := (h.active t henabled.2).2
      simp [calls, NonNull, hsocket]
  | exit =>
      have hlive : s.worker.pc.Live := .inr (.inr (.inr henabled))
      rw [calls_exit (h.wellFormed.connect_plain hlive).2]
      simp [NonNull]
  | _ => simp [calls, NonNull]

end Pointed

/-- A sender hands libuv and the allocator no null pointer, in any run. -/
theorem non_null {host : String} {port : Int} {events : List Event}
    (hrun : machine.Runs (initial host port) events) :
    ∀ c ∈ (machine.after (initial host port) events).trace, NonNull c := by
  refine (Machine.invariant (m := machine) (I := fun s => Pointed s ∧ ∀ c ∈ s.trace, NonNull c)
    ?_ ⟨pointed_initial host port, by simp [initial]⟩ hrun).2
  rintro s e ⟨hpointed, hpast⟩ ⟨-, henabled⟩
  refine ⟨hpointed.next henabled, ?_⟩
  change ∀ c ∈ (next s e).trace, NonNull c
  rw [trace_next, List.forall_mem_append]
  exact ⟨hpast, hpointed.nonNull_calls henabled⟩

/-- A connection whose heartbeat fails, and a `Stop`. -/
def failedWriteRun : List Event :=
  [.start, .enter, .test, .body 0, .connectCb 0 1 0, .timerCb 2 (fun _ => 0) 0,
   .writeCb 4 1 (-32), .runEnd, .stopFlag, .stopLoopClose, .test, .exit]

theorem non_null_failedWriteRun :
    machine.Runs (initial "10.0.0.2" 3011) failedWriteRun ∧
      ∀ c ∈ (machine.after (initial "10.0.0.2" 3011) failedWriteRun).trace, NonNull c :=
  ⟨by decide, non_null (by decide)⟩

end L1Comm.Sender
