import L1Comm.Sender.Invariant
import Mathlib.Data.Set.Basic

/-!
The heartbeat timer and the connection status. Four pieces of code change one
of the two: `reconnect`, the two branches of `onConnect`, and
`sendHeartbeatCb`. Each of them relates the timer to the status except the
failure branch of `onConnect`, which sets the status to `-1` and leaves the
timer alone. That is right as long as the timer is not running, but a connect
of a socket that was replaced while it was pending is cancelled later, and by
then the connect of its successor may have started the timer.
-/

namespace L1Comm.Sender

open Uv

/-- The active timers are exactly `conn_struct.timer` while connected, and
none otherwise. -/
def TimersFollowStatus (s : State) : Prop :=
  if s.conn.status = .connected then
    ∃ t, s.conn.timer = some t ∧ {a | s.loop.active a = true} = {t}
  else {a | s.loop.active a = true} = ∅

/-- Whenever a timer can fire, the socket `onTimer` writes to is open and its
connect has succeeded. -/
def HeartbeatsConnected (s : State) : Prop :=
  ∀ t, s.loop.active t = true →
    ∃ h, s.conn.socket = some h ∧ s.loop.stage h = .opened ∧ s.loop.established h = true

/-- The step does not set the status to `-1` under a running timer. -/
def TimerSafe (s : State) : Event → Prop
  | .connectCb _ _ status => status < 0 → s.conn.status ≠ .connected
  | _ => True

/-- The invariant of the runs whose steps are all `TimerSafe`. -/
structure Timed (s : State) : Prop where
  active : ∀ t, s.loop.active t = true ↔
    s.conn.status = .connected ∧ s.conn.timer = some t
  connected : s.conn.status = .connected →
    s.conn.timer ≠ none ∧ ∃ h, s.Current h ∧ s.loop.established h = true

namespace Timed

variable {s : State}

theorem timersFollowStatus (h : Timed s) : TimersFollowStatus s := by
  unfold TimersFollowStatus
  split
  · next hstatus =>
    obtain ⟨t, ht⟩ := Option.ne_none_iff_exists'.mp (h.connected hstatus).1
    refine ⟨t, ht, ?_⟩
    ext a
    simp [h.active, hstatus, ht, eq_comm]
  · next hstatus =>
    ext a
    simp [h.active, hstatus]

theorem heartbeatsConnected (h : Timed s) (hwf : WellFormed s) : HeartbeatsConnected s := by
  intro t ht
  obtain ⟨a, hcurrent, hestablished⟩ := (h.connected ((h.active t).mp ht).1).2
  exact ⟨a, hcurrent.2.2, (hwf.socket_open hcurrent.1 a hcurrent.2.1).2, hestablished⟩

/-- While the status is not `1`, the invariant says that no timer is active. -/
theorem idle (h : Timed s) (hstatus : s.conn.status ≠ .connected) (t : Addr) :
    s.loop.active t ≠ true := by
  rw [ne_eq, h.active]
  exact fun hactive => hstatus hactive.1

theorem of_idle (hstatus : s.conn.status ≠ .connected) (hidle : ∀ t, s.loop.active t ≠ true) :
    Timed s := by
  constructor
  · intro t
    exact iff_of_false (hidle t) fun hactive => hstatus hactive.1
  · exact fun hconnected => absurd hconnected hstatus

/-- Most steps leave the timers and `conn_struct` alone. -/
theorem of_frame (h : Timed s) {s' : State} (hlive : s.worker.pc.Live → s'.worker.pc.Live)
    (hsocket : s'.worker.socket = s.worker.socket) (hconn : s'.conn = s.conn)
    (hactive : ∀ t, s'.loop.active t = true ↔ s.loop.active t = true)
    (hestablished : s'.loop.established = s.loop.established) : Timed s' := by
  constructor
  · intro t
    rw [hactive, hconn]
    exact h.active t
  · intro hconnected
    rw [hconn] at hconnected
    obtain ⟨htimer, a, ⟨hlive', hworker, hcurrent⟩, hup⟩ := h.connected hconnected
    rw [hconn, hestablished]
    refine ⟨htimer, a, ⟨hlive hlive', ?_, ?_⟩, hup⟩
    · rw [hsocket]
      exact hworker
    · rw [hconn]
      exact hcurrent

theorem body (h : Timed s) (ret : Int) : Timed (body s ret) := by
  by_cases hstatus : s.conn.status = .disconnect
  · rw [Sender.body, if_pos hstatus]
    apply of_idle
    · simp
    · intro t ht
      rw [reconnect_active] at ht
      exact h.idle (by simp [hstatus]) t ht.2
  · rw [Sender.body, if_neg hstatus]
    exact h.of_frame (fun _ => .inr (.inr (.inl rfl))) rfl rfl (fun _ => Iff.rfl) rfl

/-- The timer is the new one, and the connect was that of the current socket. -/
theorem connectCb_connected (h : Timed s) (hwf : WellFormed s) {req a : Addr} {status : Int}
    (hpending : ⟨req, a⟩ ∈ s.loop.connects) (hopen : s.loop.stage a = .opened)
    (hstatus : ¬ status < 0) : Timed (next s (.connectCb req a status)) := by
  constructor
  · intro t
    rw [connectCb_active req hstatus, connectCb_conn req hstatus]
    constructor
    · rintro (rfl | ⟨hother, hactive⟩)
      · exact ⟨rfl, rfl⟩
      · exact absurd ((h.active t).mp hactive).2 hother
    · exact fun hnew => .inl (Option.some.inj hnew.2)
  · intro _
    have hcurrent := hwf.socket_current a (hwf.connects_open _ hpending hopen) hopen
    rw [connectCb_conn req hstatus]
    refine ⟨Option.some_ne_none _, a, ?_, ?_⟩
    · rw [State.Current, connectCb_conn req hstatus]
      exact hcurrent
    · rw [connectCb_established, if_pos rfl]
      exact decide_eq_true (Int.not_lt.mp hstatus)

theorem connectCb (h : Timed s) (hwf : WellFormed s) {req a : Addr} {status : Int}
    (henabled : Enabled s (.connectCb req a status))
    (hok : TimerSafe s (.connectCb req a status)) :
    Timed (next s (.connectCb req a status)) := by
  obtain ⟨-, hpending, hreports⟩ := henabled
  by_cases hstatus : status < 0
  · rw [connectCb_failed req hstatus]
    exact of_idle (by simp) (h.idle (hok hstatus))
  · exact h.connectCb_connected hwf hpending (hreports.resolve_right hstatus) hstatus

theorem writeCb (h : Timed s) (req a : Addr) (status : Int) :
    Timed (next s (.writeCb req a status)) := by
  by_cases hstatus : status < 0
  · apply of_idle
    · simp [writeCb_conn, hstatus]
    · intro t ht
      rw [writeCb_active] at ht
      exact ht.1 ⟨hstatus, ((h.active t).mp ht.2).2⟩
  · refine h.of_frame id rfl ?_ ?_ (writeCb_established req status)
    · simp [writeCb_conn, hstatus]
    · simp [writeCb_active, hstatus]

/-- The process aborts with the timer as it is. -/
theorem exit (h : Timed s) (hwf : WellFormed s) (hexit : s.worker.pc = .exit) :
    Timed (exit s) := by
  have hlive : s.worker.pc.Live := by simp [Pc.Live, hexit]
  have hplain := (hwf.connect_plain hlive).2
  have hworker : (Sender.exit s).worker = s.worker := by rw [exit_eq hplain]
  refine h.of_frame ?_ ?_ (exit_conn s) (fun t => ?_) ?_
  · rw [hworker]
    exact id
  · rw [hworker]
  · rw [exit_active hplain, and_iff_right_iff_imp]
    exact fun hactive => hwf.timer_ne_connect hlive ((h.active t).mp hactive).2
  · rw [exit_eq hplain]
    rfl

/-- A thread that is not live has not left a connection behind. -/
theorem enter (h : Timed s) (hstart : s.worker.pc = .start) : Timed (enter s) := by
  have hdead : ¬ s.worker.pc.Live := by simp [Pc.Live, hstart]
  have hdown : s.conn.status ≠ .connected := by
    intro hconnected
    obtain ⟨-, a, hcurrent, -⟩ := h.connected hconnected
    exact hdead hcurrent.1
  exact of_idle hdown (h.idle hdown)

/-- A step of the thread that touches neither the loop nor `conn_struct`. -/
theorem of_worker (h : Timed s) (w : Worker) (hlive : s.worker.pc.Live → w.pc.Live)
    (hsocket : w.socket = s.worker.socket) : Timed {s with worker := w} :=
  h.of_frame hlive hsocket rfl (fun _ => Iff.rfl) rfl

protected theorem next (h : Timed s) (hwf : WellFormed s) {e : Event}
    (henabled : Enabled s e) (hok : TimerSafe s e) : Timed (next s e) := by
  cases e with
  | start =>
      have hidle : s.worker.pc = .idle := henabled
      exact h.of_worker _ (by simp [Pc.Live, hidle]) rfl
  | enter => exact h.enter henabled
  | test =>
      refine h.of_worker _ (fun _ => ?_) rfl
      dsimp only
      split <;> simp [Pc.Live]
  | body ret => exact h.body ret
  | connectCb req a status => exact h.connectCb hwf henabled hok
  | writeCb req a status => exact h.writeCb req a status
  | timerCb t heap ret =>
      refine h.of_frame id rfl rfl (fun t' => ?_) rfl
      rw [timerCb_active]
  | closeCb a => exact h.of_frame id rfl rfl (fun _ => Iff.rfl) rfl
  | runEnd => exact h.of_worker _ (fun _ => by simp [Pc.Live]) rfl
  | exit => exact h.exit hwf henabled
  | stopFlag => exact h.of_worker _ id rfl
  | stopLoopClose => exact h.of_frame id rfl rfl (fun _ => Iff.rfl) rfl
  | stopJoin =>
      have hdone : s.worker.pc = .done := henabled.2
      exact h.of_worker _ (by simp [Pc.Live, hdone]) rfl

/-- A step that is not `TimerSafe` breaks the property at once. -/
theorem fault (h : Timed s) {e : Event} (hbad : ¬ TimerSafe s e) :
    ¬ TimersFollowStatus (Sender.next s e) := by
  cases e with
  | connectCb req a status =>
      obtain ⟨hstatus, hconnected⟩ : status < 0 ∧ s.conn.status = .connected := by
        simpa [TimerSafe] using hbad
      obtain ⟨t, ht⟩ := Option.ne_none_iff_exists'.mp (h.connected hconnected).1
      have hactive : s.loop.active t = true := (h.active t).mpr ⟨hconnected, ht⟩
      intro hfollow
      rw [connectCb_failed req hstatus, TimersFollowStatus, if_neg (by simp)] at hfollow
      exact Set.notMem_empty t (hfollow ▸ hactive)
  | _ => exact absurd trivial hbad

end Timed

theorem timed_initial (host : String) (port : Int) : Timed (initial host port) := by
  constructor <;> simp [initial]

/-- In every state of a run the heartbeat timer runs exactly while connected,
and then onto an open connection, if and only if no failed connect is reported
while connected. -/
theorem heartbeat_timer_iff {host : String} {port : Int} {events : List Event}
    (hrun : machine.Runs (initial host port) events) :
    machine.Always (fun s => TimersFollowStatus s ∧ HeartbeatsConnected s)
        (initial host port) events ↔
      machine.Along TimerSafe (initial host port) events :=
  Machine.always_iff_along (I := fun s => WellFormed s ∧ Timed s)
    (fun _ _ h henabled hok => ⟨h.1.next henabled.2, h.2.next h.1 henabled.2 hok⟩)
    (fun _ h => ⟨h.2.timersFollowStatus, h.2.heartbeatsConnected h.1⟩)
    (fun _ _ h _ hbad hgood => h.2.fault hbad hgood.1)
    ⟨wellFormed_initial host port, timed_initial host port⟩ hrun

/-- A connection whose peer stalls with two heartbeats queued. The first fails
and the socket is replaced; the second is cancelled while the next connect is
pending, so this socket is replaced as well; its connect is cancelled after
the third has succeeded. -/
def stalledPeerRun : List Event :=
  [.start, .enter, .test, .body 0, .connectCb 0 1 0, .runEnd,
   .test, .body 0, .timerCb 2 (fun _ => 0) 0, .runEnd,
   .test, .body 0, .timerCb 2 (fun _ => 0) 0, .writeCb 4 1 (-32), .runEnd,
   .test, .body 0, .writeCb 6 1 (-125), .closeCb 1, .runEnd,
   .test, .body 0, .connectCb 0 8 0, .connectCb 0 7 (-125)]

theorem heartbeat_timer_iff_stalledPeerRun :
    machine.Always (fun s => TimersFollowStatus s ∧ HeartbeatsConnected s)
        (initial "10.0.0.2" 3011) stalledPeerRun ↔
      machine.Along TimerSafe (initial "10.0.0.2" 3011) stalledPeerRun :=
  heartbeat_timer_iff (by decide)

/-- At the end of the run the status is `-1` and the timer of the third
connection runs. -/
theorem heartbeat_timer_outlives_status :
    machine.Runs (initial "10.0.0.2" 3011) stalledPeerRun ∧
      ¬ machine.Always (fun s => TimersFollowStatus s ∧ HeartbeatsConnected s)
        (initial "10.0.0.2" 3011) stalledPeerRun := by
  refine ⟨by decide, fun h => ?_⟩
  have hstatus : (machine.after (initial "10.0.0.2" 3011) stalledPeerRun).conn.status ≠
      .connected := by decide
  have hactive : (machine.after (initial "10.0.0.2" 3011) stalledPeerRun).loop.active 9 =
      true := by decide
  have hfollow := h.last.1
  rw [TimersFollowStatus, if_neg hstatus] at hfollow
  exact Set.notMem_empty 9 (hfollow ▸ hactive)

end L1Comm.Sender
