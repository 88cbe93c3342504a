import L1Comm.Sender.Invariant

/-!
The sender and libuv's handle protocol. Three steps of the source break it.
`exit` passes the connect request to `uv_close`, and libuv aborts. `onConnect`
releases the previous timer, which it has stopped but not closed. `reconnect`
passes the one connect request to `uv_tcp_connect` again, also while the
connect of the socket it has just closed is pending. Everything else the
sender does is within the protocol.
-/

namespace L1Comm.Sender

open Uv

/-- The step is none of the three that break the protocol. -/
def ProtocolSafe (s : State) : Event → Prop
  | .exit => False
  | .connectCb _ _ status => 0 ≤ status → s.conn.timer = none
  | .body _ => s.conn.status = .disconnect →
      ∀ c ∈ s.loop.connects, c.req ≠ s.worker.connect
  | _ => True

/-- The invariant of the runs whose steps are all `ProtocolSafe`: the trace is
within the protocol, and `conn_struct.timer` is an open handle. -/
structure Lawful (s : State) : Prop where
  replayed : s.Replayed
  legal : protocol.Runs {} s.trace
  timer_open : ∀ t, s.conn.timer = some t → s.loop.stage t = .opened

theorem lawful_initial (host : String) (port : Int) : Lawful (initial host port) where
  replayed := rfl
  legal := trivial
  timer_open := by simp [initial]

namespace Lawful

variable {s : State}

theorem legal_next (h : Lawful s) {e : Event} (hcalls : protocol.Runs s.loop (calls s e)) :
    protocol.Runs {} (next s e).trace :=
  (runs_next rfl h.replayed e).mpr ⟨h.legal, hcalls⟩

/-- The socket that is closed is open, and the connect request is free. -/
theorem reconnect (h : Lawful s) (hwf : WellFormed s) {ret : Int} (hbody : s.worker.pc = .body)
    (hstatus : s.conn.status = .disconnect) (hok : ProtocolSafe s (.body ret)) :
    Lawful (next s (.body ret)) := by
  have hlive : s.worker.pc.Live := by simp [Pc.Live, hbody]
  have hreuse := hok hstatus
  refine ⟨replayed_next h.replayed _, h.legal_next ?_, ?_⟩
  · cases hsocket : s.worker.socket with
    | none => simpa [calls, hstatus, hsocket] using hreuse
    | some old =>
        have hopen := (hwf.socket_open hlive old hsocket).2
        simpa [calls, hstatus, hsocket, hopen] using hreuse
  · intro t ht
    rw [next, body, if_pos hstatus, reconnect_conn] at ht
    rw [next, body, if_pos hstatus, hwf.reconnect_timer_stage hlive ret ht]
    exact h.timer_open t ht

theorem body (h : Lawful s) (hwf : WellFormed s) {ret : Int} (hbody : s.worker.pc = .body)
    (hok : ProtocolSafe s (.body ret)) : Lawful (next s (.body ret)) := by
  by_cases hstatus : s.conn.status = .disconnect
  · exact h.reconnect hwf hbody hstatus hok
  · rw [next, Sender.body, if_neg hstatus]
    exact ⟨h.replayed, h.legal, h.timer_open⟩

theorem connectCb (h : Lawful s) {req a : Addr} {status : Int}
    (hok : ProtocolSafe s (.connectCb req a status)) :
    Lawful (next s (.connectCb req a status)) := by
  refine ⟨replayed_next h.replayed _, h.legal_next ?_, ?_⟩
  · by_cases hstatus : status < 0
    · simp [calls, hstatus]
    · have htimer := hok (by omega)
      simp [calls, hstatus, htimer]
  · by_cases hstatus : status < 0
    · rw [connectCb_failed req hstatus]
      exact h.timer_open
    · intro t ht
      rw [connectCb_conn req hstatus] at ht
      rw [connectCb_stage req hstatus, if_pos (Option.some.inj ht)]

/-- What is released is the memory of a request and its payload. -/
theorem writeCb (h : Lawful s) (hwf : WellFormed s) {req a : Addr} {status : Int}
    (henabled : Enabled s (.writeCb req a status)) :
    Lawful (next s (.writeCb req a status)) := by
  obtain ⟨hplain, payload, -, hdata, hpayload⟩ := hwf.writes_plain _ henabled.2.1
  refine ⟨replayed_next h.replayed _, h.legal_next ?_, ?_⟩
  · by_cases hstatus : status < 0 <;> simp [calls, hstatus, hdata, hplain, hpayload]
  · intro t ht
    rw [writeCb_conn] at ht
    rw [hwf.writeCb_stage henabled.2.1]
    exact h.timer_open t ht

theorem closeCb (h : Lawful s) {a : Addr} (henabled : Enabled s (.closeCb a)) :
    Lawful (next s (.closeCb a)) := by
  have hclosing : s.loop.stage a = .closing := henabled.2.1
  refine ⟨replayed_next h.replayed _, h.legal_next ?_, ?_⟩
  · simp [calls]
  · intro t ht
    have hopen := h.timer_open t ht
    have hother : a ≠ t := by
      rintro rfl
      rw [hclosing] at hopen
      exact absurd hopen (by simp)
    rw [closeCb_stage, if_neg hother]
    exact hopen

theorem timerCb (h : Lawful s) (t : Addr) (heap : Payload) (ret : Int) :
    Lawful (next s (.timerCb t heap ret)) := by
  refine ⟨replayed_next h.replayed _, h.legal_next ?_, ?_⟩
  · simp [calls]
  · intro t' ht'
    rw [timerCb_stage]
    exact h.timer_open t' ht'

protected theorem next (h : Lawful s) (hwf : WellFormed s) {e : Event}
    (henabled : Enabled s e) (hok : ProtocolSafe s e) : Lawful (next s e) := by
  cases e with
  | body ret => exact h.body hwf henabled hok
  | connectCb req a status => exact h.connectCb hok
  | writeCb req a status => exact h.writeCb hwf henabled
  | timerCb t heap ret => exact h.timerCb t heap ret
  | closeCb a => exact h.closeCb henabled
  | exit => exact hok.elim
  | enter | stopLoopClose =>
      refine ⟨replayed_next h.replayed _, h.legal_next ?_, h.timer_open⟩
      simp [calls]
  | start | test | runEnd | stopFlag | stopJoin => exact ⟨h.replayed, h.legal, h.timer_open⟩

/-- Each of the three steps makes a call outside the protocol. -/
theorem fault (h : Lawful s) (hwf : WellFormed s) {e : Event} (henabled : Enabled s e)
    (hbad : ¬ ProtocolSafe s e) : ¬ protocol.Runs {} (Sender.next s e).trace := by
  rw [runs_next rfl h.replayed]
  rintro ⟨-, hlegal⟩
  cases e with
  | exit =>
      have hlive : s.worker.pc.Live := by simp [Pc.Live, show s.worker.pc = .exit from henabled]
      have hplain := (hwf.connect_plain hlive).2
      simp [calls, hplain] at hlegal
  | connectCb req a status =>
      obtain ⟨hstatus, htimer⟩ : 0 ≤ status ∧ s.conn.timer ≠ none := by
        simpa [ProtocolSafe] using hbad
      obtain ⟨t, ht⟩ := Option.ne_none_iff_exists'.mp htimer
      have hopen := h.timer_open t ht
      have hfailed : ¬ status < 0 := by omega
      simp [calls, hfailed, ht, hopen] at hlegal
  | body ret =>
      obtain ⟨hstatus, c, hc, hreq⟩ : s.conn.status = .disconnect ∧
          ∃ c ∈ s.loop.connects, c.req = s.worker.connect := by
        simpa [ProtocolSafe] using hbad
      cases hsocket : s.worker.socket with
      | none =>
          simp [calls, hstatus, hsocket] at hlegal
          exact hlegal c hc hreq
      | some old =>
          simp [calls, hstatus, hsocket] at hlegal
          exact hlegal.2 c hc hreq
  | _ => exact absurd trivial hbad

end Lawful

/-- The trace of a run is within libuv's handle protocol if and only if the
thread has not left its loop, no connect has succeeded when there was a timer
already, and no turn of the loop has reconnected with a connect pending. -/
theorem handle_protocol_iff {host : String} {port : Int} {events : List Event}
    (hrun : machine.Runs (initial host port) events) :
    protocol.Runs {} (machine.after (initial host port) events).trace ↔
      machine.Along ProtocolSafe (initial host port) events :=
  Machine.last_iff_along (m := machine) (I := fun s => WellFormed s ∧ Lawful s)
    (fun s e _ hlegal => hlegal.of_prefix (trace_grows s e))
    (fun _ _ h henabled hok => ⟨h.1.next henabled.2, h.2.next h.1 henabled.2 hok⟩)
    (fun _ h => h.2.legal)
    (fun _ _ h henabled hbad => h.2.fault h.1 henabled.2 hbad)
    ⟨wellFormed_initial host port, lawful_initial host port⟩ hrun

/-- A connection, a heartbeat whose write fails, and the next connection. -/
def reconnectRun : List Event :=
  [.start, .enter, .test, .body 0, .connectCb 0 1 0, .runEnd,
   .test, .body 0, .timerCb 2 (fun _ => 0) 0, .writeCb 4 1 (-32), .runEnd,
   .test, .body 0, .connectCb 0 5 0]

theorem handle_protocol_iff_reconnectRun :
    protocol.Runs {} (machine.after (initial "10.0.0.2" 3011) reconnectRun).trace ↔
      machine.Along ProtocolSafe (initial "10.0.0.2" 3011) reconnectRun :=
  handle_protocol_iff (by decide)

/-- The second connection releases the timer of the first, which was never
closed. -/
theorem reconnect_breaks_protocol :
    machine.Runs (initial "10.0.0.2" 3011) reconnectRun ∧
      ¬ protocol.Runs {} (machine.after (initial "10.0.0.2" 3011) reconnectRun).trace := by
  refine ⟨by decide, ?_⟩
  simp [reconnectRun, machine, initial, next, enter, body, reconnect, onConnect, onTimer,
    sendHeartbeatCb, Process.closeUnlessNull, Process.dropTimer]

end L1Comm.Sender
