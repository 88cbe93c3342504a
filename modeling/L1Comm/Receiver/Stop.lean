import L1Comm.Receiver.HandleProtocol
import L1Comm.Uv.Queue

/-!
`Stop` of a receiver. It calls `uv_loop_close` before it joins the thread, and
the thread itself closes the server after its last `uv_run`. A server that is
open when the loop ends is closing from there on, and stays in the loop; and
where an error has closed it before, libuv aborts when the thread closes it
again. So whatever else is in the loop, a `Stop` that returns has not closed it.
-/

namespace L1Comm.Receiver

open Uv

def Event.IsCallback : Event → Prop
  | .connectionCb .. | .readCb .. | .readErrorCb .. | .closeCb _ => True
  | _ => False

/-- The last two calls of `Stop`. -/
def Event.EndsStop (e : Event) : Prop := e = .stopLoopClose ∨ e = .stopJoin

/-- What `Stop` is owed at these calls: the loop is closed after the thread has
returned, and it can be closed; and when the thread has been joined every
handle has had its close callback, and no callback could run any more if the
loop were run again. -/
def StopComplete (s : State) : Event → Prop
  | .stopLoopClose => s.worker.pc = .done ∧ loopCloseRet s.loop = 0
  | .stopJoin => (∀ h, Created s.trace h → .closeCb h ∈ s.trace) ∧
      ∀ e : Event, e.IsCallback → ¬ Enabled {s with worker.pc := .run} e
  | _ => True

/-- A process that goes on: its trace is within the handle protocol and what the
library guarantees, and a thread that has returned has left its server closing. -/
structure Serving (s : State) : Prop where
  wellFormed : WellFormed s
  lawful : Lawful s
  guaranteed : guarantees.Runs {} s.trace
  done : s.worker.pc = .done → s.loop.stage s.worker.server = .closing

theorem serving_initial (host : String) (port : Int) (callback : Addr) :
    Serving (initial host port callback) :=
  ⟨wellFormed_initial host port callback, lawful_initial host port callback, trivial,
    by simp [initial]⟩

variable {s : State} {e : Event}

theorem done_of_next (henabled : Enabled s e) (hdone : (next s e).worker.pc = .done) :
    e = .exit ∨ e = .stopFlag ∨ e = .stopLoopClose := by
  cases e with
  | exit => exact .inl rfl
  | stopFlag => exact .inr (.inl rfl)
  | stopLoopClose => exact .inr (.inr rfl)
  | start | enter | runEnd | stopJoin => simp [next, enter] at hdone
  | test =>
      simp only [next] at hdone
      split at hdone <;> simp at hdone
  | connectionCb | readCb | readErrorCb | closeCb => simp [next, henabled.1] at hdone

namespace Serving

theorem accounted (h : Serving s) : Accounted s.trace s.loop :=
  h.lawful.replayed.accounted h.guaranteed

/-- Handles are initialised in new memory, and close callbacks come for
handles that are closing. -/
theorem guaranteed_calls (h : Serving s) (henabled : Enabled s e) :
    guarantees.Runs s.loop (calls s e) := by
  have hfresh := h.lawful.stage_fresh s.fresh le_rfl
  cases e with
  | enter ret => simp [calls, hfresh]
  | connectionCb server status ret =>
      by_cases hstatus : status = 0
      · by_cases hret : ret = 0 <;> simp [calls, hstatus, hret, hfresh]
      · simp [calls, hstatus]
  | readCb a nread buf => by_cases hnread : nread < 0 <;> simp [calls, hnread]
  | closeCb a => simp [calls, henabled.2]
  | _ => simp [calls]

/-- The server that the thread closes is open, since libuv would abort otherwise. -/
theorem done_next (h : Serving s) (henabled : Enabled s e)
    (halive : (next s e).loop.fate ≠ .aborted) (hdone : (next s e).worker.pc = .done) :
    (next s e).loop.stage (next s e).worker.server = .closing := by
  rcases done_of_next henabled hdone with rfl | rfl | rfl
  · have hopen : s.loop.stage s.worker.server = .opened := by
      by_contra hclosed
      exact halive (by simp [next, exit, hclosed])
    simp [next, exit, hopen]
  · exact h.done hdone
  · exact h.done hdone

theorem aborted_or_next (h : Serving s) (henabled : machine.enabled s e) :
    (next s e).loop.fate = .aborted ∨ Serving (next s e) := by
  rcases aborted_or_lawful_next ⟨h.wellFormed, h.lawful⟩ henabled with habort | ⟨hwf, hlawful⟩
  · exact .inl habort
  refine Classical.or_iff_not_imp_left.mpr fun halive => ⟨hwf, hlawful, ?_, ?_⟩
  · rw [trace_next]
    exact (h.lawful.replayed.runs_append rfl _).mpr
      ⟨h.guaranteed, h.guaranteed_calls henabled.2⟩
  · exact h.done_next henabled.2 halive

/-- The server of a thread that has returned is still in the loop, and has been
promised a close callback that has not come. -/
theorem server_left (h : Serving s) (hdone : s.worker.pc = .done) :
    s.worker.server ∈ s.loop.queue ∧ Created s.trace s.worker.server ∧
      .closeCb s.worker.server ∉ s.trace := by
  have hmem := h.accounted.mem_queue (.inr (h.done hdone))
  exact ⟨hmem, (h.accounted.queue _).mp hmem⟩

theorem not_complete (h : Serving s) (henabled : Enabled s e) (hends : e.EndsStop) :
    ¬ StopComplete s e := by
  rcases hends with rfl | rfl
  · rintro ⟨hdone, hret⟩
    have hmem := (h.server_left hdone).1
    rw [loopCloseRet_eq_zero.mp hret] at hmem
    exact List.not_mem_nil hmem
  · rintro ⟨hclosed, -⟩
    obtain ⟨-, hcreated, hopen⟩ := h.server_left henabled.2
    exact hopen (hclosed _ hcreated)

end Serving

/-- No `Stop` of any run is complete, neither when it closes the loop nor when
it returns. -/
theorem stop_never_complete {host : String} {port : Int} {callback : Addr} {events : List Event}
    (hrun : machine.Runs (initial host port callback) events) :
    machine.Along (fun s e => e.EndsStop → ¬ StopComplete s e)
      (initial host port callback) events :=
  Machine.along_until (m := machine) (I := Serving) not_enabled_of_aborted
    (fun _ _ h henabled => h.aborted_or_next henabled)
    (fun _ _ h henabled hends => h.not_complete henabled.2 hends)
    (serving_initial host port callback) hrun

end L1Comm.Receiver
