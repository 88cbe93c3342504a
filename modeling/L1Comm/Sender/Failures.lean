import L1Comm.Sender.Invariant

/-!
Failures of the current connection and the reconnect loop. libuv reports a
failure of an asynchronous operation through the callback of its request, and
refuses an operation through the return value of the call, in which case the
callback never runs. The callbacks set the status to `-1`, which the next turn
of the loop acts on. The return values of `uv_tcp_connect` and `uv_write` are
not looked at, so a refused operation leaves no mark in the state.
-/

namespace L1Comm.Sender

open Uv

/-- With this event libuv reports a failure for `conn_struct.socket`, the
socket that `reconnect` connects and `onTimer` writes to. -/
def Fails (s : State) : Event → Prop
  | .body ret => s.conn.status = .disconnect ∧ ret ≠ 0
  | .timerCb _ _ ret => ret ≠ 0
  | .connectCb _ h status => s.conn.socket = some h ∧ status < 0
  | .writeCb _ h status => s.conn.socket = some h ∧ status < 0
  | _ => False

/-- The worker is at the test of its loop. -/
def AtHead (s : State) : Prop := s.worker.pc = .head

/-- A turn of the loop from this state ends its calls with an attempt to
connect to the worker's address. -/
def StartsAttempt (s : State) : Prop :=
  ∀ ret, ∃ calls socket, (body s ret).trace =
    s.trace ++ calls ++ [.connect s.worker.connect socket s.worker.dest ret]

/-- Every failure reported in the run finds the status at `-1` when the loop
is next at its head, so that this turn of the loop connects again. -/
def FailuresReachHead (s : State) (events : List Event) : Prop :=
  ∀ earlier e later, earlier ++ e :: later <+: events →
    Fails (machine.after s earlier) e →
    machine.EndsFirst AtHead (machine.after s (earlier ++ [e])) later →
    (machine.after s (earlier ++ e :: later)).conn.status = .disconnect ∧
      StartsAttempt (machine.after s (earlier ++ e :: later))

/-- The trace entry refuses a write on the socket or reports one failed. -/
@[simp] def FailsWrite (h : Addr) : Call → Prop
  | .write _ stream _ ret => stream = some h ∧ ret ≠ 0
  | .writeCb _ socket status => socket = h ∧ status < 0
  | _ => False

def WriteFailed (trace : List Call) (h : Addr) : Prop := ∃ c ∈ trace, FailsWrite h c

/-- What the status promises at the head of the loop: while connecting, the
callback of the current connect is still to come, and while connected, no
write on the current socket has failed. -/
structure StatusKept (s : State) : Prop where
  connecting : s.conn.status = .connecting →
    ∃ c ∈ s.loop.connects, s.conn.socket = some c.handle
  connected : s.conn.status = .connected →
    ∀ h, s.conn.socket = some h → ¬ WriteFailed s.trace h

/-- The calls into libuv that this event makes are not refused. -/
def Accepted (s : State) : Event → Prop
  | .body ret => s.conn.status = .disconnect → ret = 0
  | .timerCb _ _ ret => ret = 0
  | _ => True

/-- The invariant of the runs in which no call is refused. A failed write
belongs to a socket whose connect is over, so it cannot be followed by a
successful connect of the same socket. -/
structure Tracked (s : State) : Prop extends StatusKept s where
  failed_lt : ∀ h, WriteFailed s.trace h → h < s.fresh
  failed_connected : ∀ c ∈ s.loop.connects, ¬ WriteFailed s.trace c.handle

@[simp] theorem writeFailed_nil (h : Addr) : ¬ WriteFailed [] h := by
  simp [WriteFailed]

@[simp] theorem writeFailed_append (first second : List Call) (h : Addr) :
    WriteFailed (first ++ second) h ↔ WriteFailed first h ∨ WriteFailed second h := by
  simp [WriteFailed, or_and_right, exists_or]

@[simp] theorem writeFailed_cons (c : Call) (rest : List Call) (h : Addr) :
    WriteFailed (c :: rest) h ↔ FailsWrite h c ∨ WriteFailed rest h := by
  simp [WriteFailed]

@[simp] theorem not_writeFailed_close (socket : Ptr) (h : Addr) :
    ¬ WriteFailed (socket.toList.map (fun h => .close (some h))) h := by
  cases socket <;> simp

@[simp] theorem not_writeFailed_dropTimer (timer : Ptr) (h : Addr) :
    ¬ WriteFailed (timer.toList.flatMap (fun t => [.timerStop (some t), .free (some t)])) h := by
  cases timer <;> simp

/-- The step makes or reports a failed write on the socket. -/
def FailsNow (s : State) (h : Addr) : Event → Prop
  | .timerCb _ _ ret => s.conn.socket = some h ∧ ret ≠ 0
  | .writeCb _ socket status => socket = h ∧ status < 0
  | _ => False

theorem writeFailed_next (s : State) (e : Event) (h : Addr) :
    WriteFailed (next s e).trace h ↔ WriteFailed s.trace h ∨ FailsNow s h e := by
  rw [trace_next, writeFailed_append]
  apply or_congr_right
  cases e with
  | body ret => by_cases hstatus : s.conn.status = .disconnect <;> simp [calls, FailsNow, hstatus]
  | connectCb req a status => by_cases hstatus : status < 0 <;> simp [calls, FailsNow, hstatus]
  | writeCb req a status => by_cases hstatus : status < 0 <;> simp [calls, FailsNow, hstatus]
  | exit =>
      simp only [calls]
      split_ifs <;> simp [FailsNow]
  | _ => simp [calls, FailsNow]

theorem writeFailed_next_of_not {s : State} {e : Event} {h : Addr} (hnot : ¬ FailsNow s h e) :
    WriteFailed (next s e).trace h ↔ WriteFailed s.trace h :=
  (writeFailed_next s e h).trans (or_iff_left hnot)

theorem tracked_initial (host : String) (port : Int) : Tracked (initial host port) := by
  refine ⟨⟨?_, ?_⟩, ?_, ?_⟩ <;> simp [initial]

namespace Tracked

variable {s : State}

/-- Most steps leave the status, the socket and the connects alone, and no
write fails in them. -/
theorem of_frame (h : Tracked s) {e : Event} (hstatus : (next s e).conn.status = s.conn.status)
    (hsocket : (next s e).conn.socket = s.conn.socket)
    (hfresh : s.fresh ≤ (next s e).fresh)
    (hconnects : (next s e).loop.connects = s.loop.connects)
    (hfails : ∀ a, ¬ FailsNow s a e) : Tracked (next s e) := by
  have hfailed (a : Addr) := writeFailed_next_of_not (hfails a)
  refine ⟨⟨?_, ?_⟩, ?_, ?_⟩
  · rw [hstatus, hsocket, hconnects]
    exact h.connecting
  · intro hconnected a ha
    rw [hstatus] at hconnected
    rw [hsocket] at ha
    rw [hfailed]
    exact h.connected hconnected a ha
  · intro a ha
    exact Nat.lt_of_lt_of_le (h.failed_lt a ((hfailed a).mp ha)) hfresh
  · intro c hc
    rw [hconnects] at hc
    rw [hfailed]
    exact h.failed_connected c hc

/-- The new connect is accepted, and nothing has been written to its socket. -/
theorem reconnect (h : Tracked s) (hstatus : s.conn.status = .disconnect) :
    Tracked (next s (.body 0)) := by
  have hfailed (a : Addr) : WriteFailed (next s (.body 0)).trace a ↔ WriteFailed s.trace a :=
    writeFailed_next_of_not id
  have hnext : next s (.body 0) = {Sender.reconnect s 0 with worker.pc := .run} := by
    rw [next, body, if_pos hstatus]
  refine ⟨⟨?_, ?_⟩, ?_, ?_⟩
  · intro _
    rw [hnext]
    refine ⟨⟨s.worker.connect, s.fresh⟩, ?_, ?_⟩
    · exact (mem_reconnect_connects s 0).mpr (.inr ⟨rfl, rfl⟩)
    · rw [reconnect_conn]
  · intro hconnected
    rw [hnext, reconnect_conn] at hconnected
    exact absurd hconnected (by simp)
  · intro a ha
    have hlt := h.failed_lt a ((hfailed a).mp ha)
    rw [hnext, reconnect_fresh]
    exact Nat.lt_succ_of_lt hlt
  · intro c hc
    rw [hfailed]
    rw [hnext] at hc
    rcases (mem_reconnect_connects s 0).mp hc with hold | ⟨-, rfl⟩
    · exact h.failed_connected c hold
    · exact fun hnew => Nat.lt_irrefl _ (h.failed_lt _ hnew)

theorem body (h : Tracked s) {ret : Int} (hok : Accepted s (.body ret)) :
    Tracked (next s (.body ret)) := by
  by_cases hstatus : s.conn.status = .disconnect
  · rw [show ret = 0 from hok hstatus]
    exact h.reconnect hstatus
  · refine h.of_frame ?_ ?_ ?_ ?_ (fun _ => id)
    all_goals rw [next, Sender.body, if_neg hstatus]

/-- Of a connect that is pending no write has failed, so none has on a socket
that gets connected. -/
theorem connectCb (h : Tracked s) (hwf : WellFormed s) {req a : Addr} {status : Int}
    (henabled : Enabled s (.connectCb req a status)) :
    Tracked (next s (.connectCb req a status)) := by
  obtain ⟨-, hpending, hreports⟩ := henabled
  have hfailed (b : Addr) :
      WriteFailed (next s (.connectCb req a status)).trace b ↔ WriteFailed s.trace b :=
    writeFailed_next_of_not id
  have hconnects : ∀ c ∈ (next s (.connectCb req a status)).loop.connects,
      ¬ WriteFailed (next s (.connectCb req a status)).trace c.handle := by
    intro c hc
    rw [connectCb_connects] at hc
    rw [hfailed]
    exact h.failed_connected c (List.mem_filter.mp hc).1
  by_cases hstatus : status < 0
  · refine ⟨⟨?_, ?_⟩, ?_, hconnects⟩
    · rw [connectCb_failed req hstatus]
      exact fun hconnecting => absurd hconnecting (by simp)
    · rw [connectCb_failed req hstatus]
      exact fun hconnected => absurd hconnected (by simp)
    · intro b hb
      rw [connectCb_failed req hstatus]
      exact h.failed_lt b ((hfailed b).mp hb)
  · have hcurrent := hwf.connects_open _ hpending (hreports.resolve_right hstatus)
    refine ⟨⟨?_, ?_⟩, ?_, hconnects⟩
    · rw [connectCb_conn req hstatus]
      exact fun hconnecting => absurd hconnecting (by simp)
    · intro _ b hb
      rw [connectCb_conn req hstatus, hcurrent] at hb
      obtain rfl := Option.some.inj hb
      rw [hfailed]
      exact h.failed_connected _ hpending
    · intro b hb
      rw [connectCb_fresh req hstatus]
      exact Nat.lt_succ_of_lt (h.failed_lt b ((hfailed b).mp hb))

/-- A write fails only once the connect of its socket is over. -/
theorem writeCb (h : Tracked s) (hwf : WellFormed s) {req a : Addr} {status : Int}
    (henabled : Enabled s (.writeCb req a status)) :
    Tracked (next s (.writeCb req a status)) := by
  obtain ⟨-, hpending, hquiet, -⟩ := henabled
  by_cases hstatus : status < 0
  · refine ⟨⟨?_, ?_⟩, ?_, ?_⟩
    · rw [writeCb_conn, if_pos hstatus]
      exact fun hconnecting => absurd hconnecting (by simp)
    · rw [writeCb_conn, if_pos hstatus]
      exact fun hconnected => absurd hconnected (by simp)
    · intro b hb
      rw [writeCb_fresh]
      rcases (writeFailed_next ..).mp hb with hold | ⟨rfl, -⟩
      · exact h.failed_lt b hold
      · exact (hwf.writes_lt _ hpending).1
    · intro c hc hb
      rw [writeCb_connects] at hc
      rcases (writeFailed_next ..).mp hb with hold | ⟨hsame, -⟩
      · exact h.failed_connected c hc hold
      · exact hquiet c hc hsame.symm
  · refine h.of_frame ?_ ?_ ?_ (writeCb_connects req status) (fun _ hfails => hstatus hfails.2)
    · rw [writeCb_conn, if_neg hstatus]
    · rw [writeCb_conn]
    · rw [writeCb_fresh]

theorem timerCb (h : Tracked s) {t : Addr} {heap : Payload} {ret : Int}
    (hok : Accepted s (.timerCb t heap ret)) : Tracked (next s (.timerCb t heap ret)) :=
  h.of_frame rfl rfl (Nat.le_add_right s.fresh 2) (timerCb_connects t heap ret)
    (fun _ hfails => hfails.2 hok)

protected theorem next (h : Tracked s) (hwf : WellFormed s) {e : Event}
    (henabled : Enabled s e) (hok : Accepted s e) : Tracked (next s e) := by
  cases e with
  | body ret => exact h.body hok
  | connectCb req a status => exact h.connectCb hwf henabled
  | writeCb req a status => exact h.writeCb hwf henabled
  | timerCb t heap ret => exact h.timerCb hok
  | enter => exact h.of_frame rfl rfl (Nat.le_succ _) rfl (fun _ => id)
  | exit =>
      refine h.of_frame ?_ ?_ ?_ (exit_connects s) (fun _ => id)
      · rw [Sender.next, exit_conn]
      · rw [Sender.next, exit_conn]
      · rw [Sender.next, exit_fresh]
  | closeCb | stopLoopClose => exact h.of_frame rfl rfl (Nat.le_refl _) rfl (fun _ => id)
  | start | test | runEnd | stopFlag | stopJoin =>
      exact ⟨⟨h.connecting, h.connected⟩, h.failed_lt, h.failed_connected⟩

end Tracked

theorem startsAttempt_of_disconnect {s : State} (hstatus : s.conn.status = .disconnect) :
    StartsAttempt s := by
  intro ret
  exact ⟨s.worker.socket.toList.map (fun h => .close (some h)) ++
    [.malloc s.fresh, .tcpInit s.fresh], s.fresh, by simp [body, reconnect, hstatus]⟩

/-- After a failure of the current connection, until the loop is at its head:
no socket whose connect is pending is open, so no success can be reported. -/
structure Down (s : State) : Prop where
  status : s.conn.status = .disconnect
  running : s.worker.pc = .run ∨ s.worker.pc = .head
  closed : ∀ c ∈ s.loop.connects, s.loop.stage c.handle ≠ .opened

theorem Down.next {s : State} (h : Down s) (hwf : WellFormed s) {e : Event} (hnot : ¬ AtHead s)
    (henabled : Enabled s e) : Down (next s e) := by
  obtain ⟨hstatus, hrunning, hclosed⟩ := h
  have hpc : s.worker.pc = .run := hrunning.resolve_right hnot
  cases e with
  | connectCb req a status =>
      obtain ⟨-, hpending, hreports⟩ := henabled
      have hfailed : status < 0 := hreports.resolve_left (hclosed _ hpending)
      rw [connectCb_failed req hfailed]
      exact ⟨rfl, .inl hpc, fun c hc => hclosed c (List.mem_filter.mp hc).1⟩
  | writeCb req a status =>
      refine ⟨?_, .inl hpc, ?_⟩
      · rw [writeCb_conn]
        simp [hstatus]
      · intro c hc
        rw [writeCb_connects] at hc
        rw [hwf.writeCb_stage henabled.2.1]
        exact hclosed c hc
  | timerCb t heap ret =>
      refine ⟨hstatus, .inl hpc, ?_⟩
      intro c hc
      rw [timerCb_connects] at hc
      rw [timerCb_stage]
      exact hclosed c hc
  | closeCb a =>
      refine ⟨hstatus, .inl hpc, ?_⟩
      intro c hc
      rw [closeCb_stage]
      split
      · simp
      · exact hclosed c hc
  | runEnd => exact ⟨hstatus, .inr rfl, hclosed⟩
  | stopFlag | stopLoopClose => exact ⟨hstatus, .inl hpc, hclosed⟩
  | start | enter | test | body | exit => simp [Enabled, hpc] at henabled
  | stopJoin => simp [Enabled, hpc] at henabled

/-- A failure reported for the current socket leaves no open socket with a
connect pending: the connect that failed is over, and a write fails only
after the connect of its socket. -/
theorem down_of_fails {s : State} (h : WellFormed s) {e : Event} (henabled : Enabled s e)
    (hok : Accepted s e) (hfails : Fails s e) : Down (next s e) := by
  cases e with
  | connectCb req a status =>
      obtain ⟨hsocket, hfailed⟩ := hfails
      obtain ⟨hpc, hpending, -⟩ := henabled
      rw [connectCb_failed req hfailed]
      refine ⟨rfl, .inl hpc, ?_⟩
      intro c hc hopen
      obtain ⟨hold, hother⟩ := List.mem_filter.mp hc
      have hcurrent := h.connects_open c hold hopen
      have hhandle : c.handle = a := Option.some.inj (hcurrent.symm.trans hsocket)
      exact of_decide_eq_true hother (h.connects_unique c hold _ hpending hhandle)
  | writeCb req a status =>
      obtain ⟨hsocket, hfailed⟩ := hfails
      obtain ⟨hpc, hpending, hquiet, -⟩ := henabled
      refine ⟨?_, .inl hpc, ?_⟩
      · rw [writeCb_conn, if_pos hfailed]
      · intro c hc hopen
        rw [writeCb_connects] at hc
        rw [h.writeCb_stage hpending] at hopen
        have hcurrent := h.connects_open c hc hopen
        exact hquiet c hc (Option.some.inj (hcurrent.symm.trans hsocket))
  | body ret => exact absurd (hok hfails.1) hfails.2
  | timerCb t heap ret => exact absurd hok hfails
  | _ => exact hfails.elim

theorem failuresReachHead {host : String} {port : Int} {events : List Event}
    (hrun : machine.Runs (initial host port) events)
    (hok : machine.Along Accepted (initial host port) events) :
    FailuresReachHead (initial host port) events := by
  intro earlier e later htaken hfails hend
  have hrun' := (Machine.along_append earlier (e :: later)).mp (hrun.of_prefix htaken)
  have hok' := (Machine.along_append earlier (e :: later)).mp (hok.of_prefix htaken)
  have hwf := wellFormed_run hrun'.1
  have hdown := down_of_fails hwf hrun'.2.1.2 hok'.2.1 hfails
  rw [Machine.after_append] at hend
  obtain ⟨-, hlast⟩ := Machine.ends_first (m := machine) (I := fun s => WellFormed s ∧ Down s)
    (fun _ _ h hnot henabled => ⟨h.1.next henabled.2, h.2.next h.1 hnot henabled.2⟩)
    ⟨hwf.next hrun'.2.1.2, hdown⟩ hrun'.2.2 hend
  rw [Machine.after_append, Machine.after_cons]
  exact ⟨hlast.status, startsAttempt_of_disconnect hlast.status⟩

/-- While no call into libuv is refused, no failure of the current connection
is lost, and at the head of the loop the status tells the truth about it. -/
theorem failure_never_lost {host : String} {port : Int} {events : List Event}
    (hrun : machine.Runs (initial host port) events)
    (hok : machine.Along Accepted (initial host port) events) :
    FailuresReachHead (initial host port) events ∧
      machine.Always (fun s => AtHead s → StatusKept s) (initial host port) events := by
  refine ⟨failuresReachHead hrun hok, ?_⟩
  refine Machine.always_along (I := fun s => WellFormed s ∧ Tracked s)
    (fun s e h henabled hok => ⟨h.1.next henabled.2, h.2.next h.1 henabled.2 hok⟩)
    (fun s h _ => h.2.toStatusKept)
    ⟨wellFormed_initial host port, tracked_initial host port⟩ hrun hok

/-- A refused connection, a second attempt that succeeds, and a heartbeat whose
write fails. -/
def failingRun : List Event :=
  [.start, .enter, .test, .body 0, .connectCb 0 1 (-111), .runEnd,
   .test, .body 0, .connectCb 0 2 0, .runEnd,
   .test, .body 0, .timerCb 3 (fun _ => 0) 0, .writeCb 5 2 (-32), .runEnd]

theorem failure_never_lost_failingRun :
    FailuresReachHead (initial "10.0.0.2" 3011) failingRun ∧
      machine.Always (fun s => AtHead s → StatusKept s) (initial "10.0.0.2" 3011)
        failingRun :=
  failure_never_lost (by decide) (by simp [failingRun, Accepted])

/-- The first turn of the loop with a network that is unreachable, so that
`uv_tcp_connect` returns `-101` at once. -/
def unreachableRun : List Event := [.start, .enter, .test, .body (-101), .runEnd]

/-- The refused attempt is lost: at the head of the loop the status is still
`0`, and no connect is pending that could change it. -/
theorem failure_lost_when_refused :
    machine.Runs (initial "10.0.0.2" 3011) unreachableRun ∧
      ¬ FailuresReachHead (initial "10.0.0.2" 3011) unreachableRun ∧
      ¬ machine.Always (fun s => AtHead s → StatusKept s) (initial "10.0.0.2" 3011)
        unreachableRun := by
  refine ⟨by decide, fun h => ?_, fun h => ?_⟩
  · have hend : machine.EndsFirst AtHead
        (machine.after (initial "10.0.0.2" 3011) [.start, .enter, .test, .body (-101)])
        [.runEnd] :=
      (Machine.endsFirst_singleton _).mpr ⟨rfl, by unfold AtHead; decide⟩
    have hseen := h [.start, .enter, .test] (.body (-101)) [.runEnd] (List.prefix_refl _)
      ⟨rfl, by decide⟩ hend
    exact absurd hseen.1 (by decide)
  · obtain ⟨c, hc, -⟩ := (h.last rfl).connecting rfl
    have hnone : (machine.after (initial "10.0.0.2" 3011) unreachableRun).loop.connects = [] := by
      decide
    simp [hnone] at hc

end L1Comm.Sender
