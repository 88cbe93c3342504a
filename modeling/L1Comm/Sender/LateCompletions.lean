import L1Comm.Sender.Invariant

/-!
Completions of a replaced socket. `uv_close` completes every request that is
still pending on a socket, and libuv runs their callbacks in a later `uv_run`,
when `conn_struct` may already be about the next socket. The callbacks do not
look at which socket their request belongs to. All they report for a closed
socket are failures, so a late one sets the status to `-1` and, if it is a
write, stops the timer; it is harmless only where the status is `-1` already.
-/

namespace L1Comm.Sender

open Uv

/-- The event is a callback of a socket that has been replaced. -/
def Late (s : State) : Event → Prop
  | .connectCb _ h _ => s.conn.socket ≠ some h
  | .writeCb _ h _ => s.conn.socket ≠ some h
  | _ => False

/-- What a step may do to the connection state: a late callback changes
neither the status nor a timer, a connection is lost only by a failed write on
the current socket, and a connect attempt ends only by its own outcome. -/
structure Undisturbed (s : State) (e : Event) : Prop where
  late : Late s e → (next s e).conn.status = s.conn.status ∧
    (next s e).loop.active = s.loop.active
  lost : s.conn.status = .connected → (next s e).conn.status = .disconnect →
    ∃ req h status, e = .writeCb req h status ∧ s.conn.socket = some h ∧ status < 0
  settled : s.conn.status = .connecting → (next s e).conn.status ≠ .connecting →
    ∃ req h status, e = .connectCb req h status ∧ s.conn.socket = some h ∧
      (next s e).conn.status = if status < 0 then .disconnect else .connected

/-- A late callback finds the status at `-1` already. -/
def LateHarmless (s : State) (e : Event) : Prop :=
  Late s e → s.conn.status = .disconnect

/-- The invariant of the runs in which late callbacks are harmless: only the
timer of a live connection runs, and nothing is written while connecting. -/
structure Quiescent (s : State) : Prop where
  active : ∀ t, s.loop.active t = true →
    s.conn.status = .connected ∧ s.conn.timer = some t
  writes : s.conn.status = .connecting →
    ∀ c ∈ s.loop.writes, s.conn.socket ≠ some c.handle

theorem quiescent_initial (host : String) (port : Int) : Quiescent (initial host port) := by
  constructor <;> simp [initial]

variable {s : State}

/-- For a replaced socket libuv reports failures only. -/
theorem late_connectCb_failed (h : WellFormed s) {req a : Addr} {status : Int}
    (henabled : Enabled s (.connectCb req a status))
    (hlate : s.conn.socket ≠ some a) : status < 0 :=
  henabled.2.2.resolve_left fun hopen => hlate (h.connects_open _ henabled.2.1 hopen)

theorem late_writeCb_failed (h : WellFormed s) {req a : Addr} {status : Int}
    (henabled : Enabled s (.writeCb req a status))
    (hlate : s.conn.socket ≠ some a) : status < 0 :=
  henabled.2.2.2.resolve_left fun hopen => hlate (h.writes_open _ henabled.2.1 hopen)

namespace Quiescent

/-- Most steps leave `conn_struct` alone and at most stop a timer. -/
theorem of_frame (h : Quiescent s) {s' : State} (hconn : s'.conn = s.conn)
    (hactive : ∀ t, s'.loop.active t = true → s.loop.active t = true)
    (hwrites : ∀ c ∈ s'.loop.writes, c ∈ s.loop.writes) : Quiescent s' := by
  constructor
  · intro t ht
    rw [hconn]
    exact h.active t (hactive t ht)
  · intro hconnecting c hc
    rw [hconn] at hconnecting ⊢
    exact h.writes hconnecting c (hwrites c hc)

theorem body (h : Quiescent s) (hwf : WellFormed s) (ret : Int) :
    Quiescent (next s (.body ret)) := by
  by_cases hstatus : s.conn.status = .disconnect
  · rw [next, Sender.body, if_pos hstatus]
    constructor
    · intro t ht
      rw [reconnect_active] at ht
      have hconnected := (h.active t ht.2).1
      rw [hstatus] at hconnected
      exact absurd hconnected (by simp)
    · intro _ c hc hsocket
      rw [reconnect_writes] at hc
      rw [reconnect_conn] at hsocket
      have hlt := (hwf.writes_lt c hc).1
      rw [← Option.some.inj hsocket] at hlt
      exact Nat.lt_irrefl _ hlt
  · rw [next, Sender.body, if_neg hstatus]
    exact h.of_frame rfl (fun _ ht => ht) (fun _ hc => hc)

/-- No connect is pending on a current socket that is connected, and a late
callback comes while the status is `-1`. -/
theorem not_connected_of_connectCb (hwf : WellFormed s) {req a : Addr} {status : Int}
    (hpending : ⟨req, a⟩ ∈ s.loop.connects)
    (hok : LateHarmless s (.connectCb req a status)) : s.conn.status ≠ .connected := by
  intro hconnected
  by_cases hsocket : s.conn.socket = some a
  · exact hwf.connected_quiet hconnected _ hpending hsocket
  · have hdown := hok hsocket
    rw [hconnected] at hdown
    exact absurd hdown (by simp)

theorem connectCb (h : Quiescent s) (hwf : WellFormed s) {req a : Addr} {status : Int}
    (henabled : Enabled s (.connectCb req a status))
    (hok : LateHarmless s (.connectCb req a status)) :
    Quiescent (next s (.connectCb req a status)) := by
  have hdown := not_connected_of_connectCb hwf henabled.2.1 hok
  by_cases hstatus : status < 0
  · rw [connectCb_failed req hstatus]
    constructor
    · exact fun t ht => absurd (h.active t ht).1 hdown
    · exact fun hconnecting => absurd hconnecting (by simp)
  · constructor
    · intro t ht
      rw [connectCb_active req hstatus] at ht
      rw [connectCb_conn req hstatus]
      rcases ht with rfl | ⟨-, hold⟩
      · exact ⟨rfl, rfl⟩
      · exact absurd (h.active t hold).1 hdown
    · intro hconnecting
      rw [connectCb_conn req hstatus] at hconnecting
      exact absurd hconnecting (by simp)

theorem writeCb (h : Quiescent s) (req a : Addr) (status : Int) :
    Quiescent (next s (.writeCb req a status)) := by
  by_cases hstatus : status < 0
  · constructor
    · intro t ht
      rw [writeCb_active] at ht
      exact absurd ⟨hstatus, (h.active t ht.2).2⟩ ht.1
    · intro hconnecting
      simp [writeCb_conn, hstatus] at hconnecting
  · refine h.of_frame ?_ ?_ ?_
    · simp [writeCb_conn, hstatus]
    · intro t ht
      exact (writeCb_active req status |>.mp ht).2
    · rw [writeCb_writes]
      exact fun c hc => (List.mem_filter.mp hc).1

theorem timerCb (h : Quiescent s) {t : Addr} (hactive : s.loop.active t = true) (heap : Payload)
    (ret : Int) : Quiescent (next s (.timerCb t heap ret)) := by
  have hconnected := (h.active t hactive).1
  constructor
  · intro t' ht'
    rw [timerCb_active] at ht'
    exact h.active t' ht'
  · intro hconnecting
    have hsame : s.conn.status = .connecting := hconnecting
    rw [hconnected] at hsame
    exact absurd hsame (by simp)

protected theorem next (h : Quiescent s) (hwf : WellFormed s) {e : Event}
    (henabled : Enabled s e) (hok : LateHarmless s e) : Quiescent (next s e) := by
  cases e with
  | body ret => exact h.body hwf ret
  | connectCb req a status => exact h.connectCb hwf henabled hok
  | writeCb req a status => exact h.writeCb req a status
  | timerCb t heap ret => exact h.timerCb henabled.2 heap ret
  | exit =>
      refine h.of_frame (exit_conn s) ?_ ?_
      · exact fun t ht => exit_active_le s ht
      · rw [Sender.next, exit_writes]
        exact fun _ hc => hc
  | enter => exact ⟨h.active, h.writes⟩
  | closeCb | stopLoopClose => exact h.of_frame rfl (fun _ ht => ht) (fun _ hc => hc)
  | start | test | runEnd | stopFlag | stopJoin => exact ⟨h.active, h.writes⟩

end Quiescent

theorem undisturbed_connectCb (hwf : WellFormed s) {req a : Addr} {status : Int}
    (henabled : Enabled s (.connectCb req a status))
    (hok : LateHarmless s (.connectCb req a status)) :
    Undisturbed s (.connectCb req a status) := by
  constructor
  · intro hlate
    rw [connectCb_failed req (late_connectCb_failed hwf henabled hlate)]
    exact ⟨(hok hlate).symm, rfl⟩
  · intro hconnected hlost
    by_cases hsocket : s.conn.socket = some a
    · exact absurd hsocket (hwf.connected_quiet hconnected _ henabled.2.1)
    · simp [hok hsocket] at hconnected
  · intro hconnecting hsettled
    by_cases hsocket : s.conn.socket = some a
    · refine ⟨req, a, status, rfl, hsocket, ?_⟩
      by_cases hfailed : status < 0
      · rw [connectCb_failed req hfailed, if_pos hfailed]
      · rw [connectCb_conn req hfailed, if_neg hfailed]
    · simp [hok hsocket] at hconnecting

theorem undisturbed_writeCb (h : Quiescent s) (hwf : WellFormed s) {req a : Addr}
    {status : Int} (henabled : Enabled s (.writeCb req a status))
    (hok : LateHarmless s (.writeCb req a status)) :
    Undisturbed s (.writeCb req a status) := by
  constructor
  · intro hlate
    have hfailed := late_writeCb_failed hwf henabled hlate
    constructor
    · simp [writeCb_conn, hfailed, hok hlate]
    · funext t
      have hidle : s.loop.active t ≠ true := by
        intro hactive
        have hconnected := (h.active t hactive).1
        rw [hok hlate] at hconnected
        exact absurd hconnected (by simp)
      rw [Bool.eq_iff_iff, writeCb_active]
      exact and_iff_right_of_imp fun hactive => absurd hactive hidle
  · intro hconnected hlost
    by_cases hsocket : s.conn.socket = some a
    · by_cases hfailed : status < 0
      · exact ⟨req, a, status, rfl, hsocket, hfailed⟩
      · simp [writeCb_conn, hfailed, hconnected] at hlost
    · simp [hok hsocket] at hconnected
  · intro hconnecting hsettled
    by_cases hsocket : s.conn.socket = some a
    · exact absurd hsocket (h.writes hconnecting _ henabled.2.1)
    · simp [hok hsocket] at hconnecting

/-- Every step but a callback of a request is undisturbed by what it is. -/
theorem undisturbed (h : Quiescent s) (hwf : WellFormed s) {e : Event}
    (henabled : Enabled s e) (hok : LateHarmless s e) : Undisturbed s e := by
  cases e with
  | connectCb req a status => exact undisturbed_connectCb hwf henabled hok
  | writeCb req a status => exact undisturbed_writeCb h hwf henabled hok
  | body ret =>
      refine ⟨False.elim, ?_, ?_⟩
      all_goals
        intro hstatus
        simp [next, body, hstatus]
  | start | enter | test | timerCb | closeCb | runEnd | exit | stopFlag | stopLoopClose
  | stopJoin =>
      refine ⟨False.elim, ?_, ?_⟩
      all_goals
        intro hstatus
        simp [next, enter, onTimer, onClose, hstatus]

/-- A late callback sets the status to `-1`, so it leaves the status alone
only where it was `-1` before. -/
theorem lateHarmless_of_undisturbed (hwf : WellFormed s) {e : Event}
    (henabled : Enabled s e) (h : Undisturbed s e) : LateHarmless s e := by
  intro hlate
  have hkept := (h.late hlate).1
  cases e with
  | connectCb req a status =>
      rw [← hkept, connectCb_failed req (late_connectCb_failed hwf henabled hlate)]
  | writeCb req a status =>
      rw [← hkept, writeCb_conn]
      exact if_pos (late_writeCb_failed hwf henabled hlate)
  | _ => exact hlate.elim

/-- In a run no completion of a replaced socket disturbs the current
connection if and only if each of them comes while the status is `-1`. -/
theorem late_completions_iff {host : String} {port : Int} {events : List Event}
    (hrun : machine.Runs (initial host port) events) :
    machine.Along Undisturbed (initial host port) events ↔
      machine.Along LateHarmless (initial host port) events :=
  Machine.along_iff_along (m := machine) (I := fun s => WellFormed s ∧ Quiescent s)
    (fun _ _ h henabled hok => ⟨h.1.next henabled.2, h.2.next h.1 henabled.2 hok⟩)
    (fun _ _ h henabled hok => undisturbed h.2 h.1 henabled.2 hok)
    (fun _ _ h henabled hq => lateHarmless_of_undisturbed h.1 henabled.2 hq)
    ⟨wellFormed_initial host port, quiescent_initial host port⟩ hrun

/-- Two heartbeats are queued when the first one fails; the new connection is
up before the second is cancelled. -/
def flappingRun : List Event :=
  [.start, .enter, .test, .body 0, .connectCb 0 1 0, .runEnd,
   .test, .body 0, .timerCb 2 (fun _ => 0) 0, .runEnd,
   .test, .body 0, .timerCb 2 (fun _ => 0) 0, .writeCb 4 1 (-32), .runEnd,
   .test, .body 0, .connectCb 0 7 0, .writeCb 6 1 (-125)]

theorem late_completions_iff_flappingRun :
    machine.Along Undisturbed (initial "10.0.0.2" 3011) flappingRun ↔
      machine.Along LateHarmless (initial "10.0.0.2" 3011) flappingRun :=
  late_completions_iff (by decide)

/-- The cancelled write of the first socket takes the status of the second,
healthy connection from `1` to `-1`. -/
theorem late_completion_disturbs :
    machine.Runs (initial "10.0.0.2" 3011) flappingRun ∧
      ¬ machine.Along Undisturbed (initial "10.0.0.2" 3011) flappingRun := by
  refine ⟨by decide, fun h => ?_⟩
  have hlast := ((Machine.along_append flappingRun.dropLast [.writeCb 6 1 (-125)]).mp h).2.1
  exact absurd (hlast.late (by unfold Late; decide)).1 (by decide)

end L1Comm.Sender
