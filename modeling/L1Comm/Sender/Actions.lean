import L1Comm.Sender.Invariant

/-!
What a step of a sender does, as one can see it from outside: the connects,
closes and writes it makes, the stores into `conn_struct`, the timers and the
pending connects it leaves, and what it makes of its thread.
-/

namespace L1Comm.Sender

open Uv

inductive Action where
  | connect (h : Addr) (peer : SockAddr)
  | close (p : Ptr)
  | write (stream : Ptr)
  deriving DecidableEq

@[simp] def action : Call → Option Action
  | .connect _ h peer _ => some (.connect h peer)
  | .close p => some (.close p)
  | .write _ stream _ _ => some (.write stream)
  | _ => none

def actions (trace : List Call) : List Action := trace.filterMap action

/-- The actions of one step. -/
def newActions (s : State) : Event → List Action
  | .body _ =>
      if s.conn.status = .disconnect then
        s.worker.socket.toList.map (fun h => .close (some h)) ++ [.connect s.fresh s.worker.dest]
      else []
  | .timerCb .. => [.write s.conn.socket]
  | .exit =>
      .close (some s.worker.connect) ::
        if (s.toProcess.call (.close (some s.worker.connect))).loop.fate = .aborted then []
        else [.close s.worker.socket]
  | _ => []

/-- The status after a step depends on the status before it and the event. -/
def statusAfter (status : Status) : Event → Status
  | .body _ => if status = .disconnect then .connecting else status
  | .connectCb _ _ ret => if ret < 0 then .disconnect else .connected
  | .writeCb _ _ ret => if ret < 0 then .disconnect else status
  | _ => status

/-- Whether a step stores `conn_struct.status`. -/
def writesStatus (status : Status) : Event → Bool
  | .body _ => status = .disconnect
  | .connectCb .. => true
  | .writeCb _ _ ret => ret < 0
  | _ => false

/-- Whether a step stores `conn_struct.socket`. -/
def writesSocket (status : Status) : Event → Bool
  | .body _ => status = .disconnect
  | _ => false

/-- Whether a step starts a timer, which it stores in `conn_struct.timer`. -/
def startsTimer : Event → Bool
  | .connectCb _ _ ret => 0 ≤ ret
  | _ => false

/-- Whether a step stops the timer of `conn_struct`. -/
def stopsTimer : Event → Bool
  | .connectCb _ _ ret => 0 ≤ ret
  | .writeCb _ _ ret => ret < 0
  | _ => false

/-- The handle that a step initialises. -/
def newHandle (s : State) (e : Event) : Ptr :=
  if writesSocket s.conn.status e = true ∨ startsTimer e = true then some s.fresh else none

/-- The handle whose life the step ends. -/
def closedHandle : Event → Ptr
  | .closeCb h => some h
  | _ => none

section Steps

variable (s : State) (e : Event)

theorem actions_next : actions (next s e).trace = actions s.trace ++ newActions s e := by
  have haction (c : Call) (hc : ¬ isSocketCall c) : action c = none := by
    cases c <;> simp_all
  rw [actions, filterMap_trace_next s e haction, ← actions]
  apply congrArg (actions s.trace ++ ·)
  cases e with
  | body ret =>
      by_cases hstatus : s.conn.status = .disconnect
      · cases hsocket : s.worker.socket <;>
          simp [socketCalls, newActions, hstatus, hsocket, List.filterMap_cons]
      · simp [socketCalls, newActions, hstatus]
  | exit =>
      simp only [socketCalls, newActions]
      split_ifs <;> rfl
  | _ => rfl

theorem status_next : (next s e).conn.status = statusAfter s.conn.status e := by
  cases e with
  | body ret =>
      by_cases hstatus : s.conn.status = .disconnect <;> simp [statusAfter, next, body, hstatus]
  | connectCb req a status =>
      rw [statusAfter]
      split
      · next hstatus => rw [connectCb_failed req hstatus]
      · next hstatus => rw [connectCb_conn req hstatus]
  | writeCb req a status => rw [writeCb_conn, statusAfter]
  | exit =>
      rw [next, exit_conn]
      rfl
  | timerCb => rfl
  | _ => rfl

theorem socket_next : (next s e).conn.socket =
    if writesSocket s.conn.status e then some s.fresh else s.conn.socket := by
  cases e with
  | body ret =>
      by_cases hstatus : s.conn.status = .disconnect <;> simp [writesSocket, next, body, hstatus]
  | connectCb req a status =>
      by_cases hstatus : status < 0
      · rw [connectCb_failed req hstatus]
        rfl
      · rw [connectCb_conn req hstatus]
        rfl
  | writeCb req a status =>
      rw [writeCb_conn]
      rfl
  | exit =>
      rw [next, exit_conn]
      rfl
  | _ => rfl

theorem statusAfter_of_not_writes {status : Status} {e : Event}
    (h : writesStatus status e = false) : statusAfter status e = status := by
  cases e <;> simp_all [writesStatus, statusAfter]

/-- A connect becomes pending only by the turn of the loop that calls it. -/
theorem mem_connects_next {c : Pending} (h : c ∈ (next s e).loop.connects) :
    c ∈ s.loop.connects ∨ c.handle = s.fresh ∧ writesSocket s.conn.status e = true := by
  cases e with
  | body ret =>
      by_cases hstatus : s.conn.status = .disconnect
      · rw [next, body, if_pos hstatus] at h
        rcases (mem_reconnect_connects s ret).mp h with hold | ⟨-, rfl⟩
        · exact .inl hold
        · exact .inr ⟨rfl, by simp [writesSocket, hstatus]⟩
      · rw [next, body, if_neg hstatus] at h
        exact .inl h
  | connectCb req a status =>
      rw [connectCb_connects] at h
      exact .inl (List.mem_filter.mp h).1
  | writeCb req a status =>
      rw [writeCb_connects] at h
      exact .inl h
  | timerCb t heap ret =>
      rw [timerCb_connects] at h
      exact .inl h
  | exit =>
      rw [next, exit_connects] at h
      exact .inl h
  | _ => exact .inl h

/-- A timer is started only by a connect that succeeds. -/
theorem active_next {t : Addr} (h : (next s e).loop.active t = true) :
    s.loop.active t = true ∨
      t = s.fresh ∧ (next s e).fresh = s.fresh + 1 ∧
        ∃ req a status, e = .connectCb req a status := by
  cases e with
  | body ret =>
      by_cases hstatus : s.conn.status = .disconnect
      · rw [next, body, if_pos hstatus, reconnect_active] at h
        exact .inl h.2
      · rw [next, body, if_neg hstatus] at h
        exact .inl h
  | connectCb req a status =>
      by_cases hstatus : status < 0
      · rw [connectCb_failed req hstatus] at h
        exact .inl h
      · rw [connectCb_active req hstatus] at h
        rcases h with hnew | ⟨-, hold⟩
        · exact .inr ⟨hnew.symm, connectCb_fresh req hstatus, req, a, status, rfl⟩
        · exact .inl hold
  | writeCb req a status =>
      rw [writeCb_active] at h
      exact .inl h.2
  | timerCb t' heap ret =>
      rw [timerCb_active] at h
      exact .inl h
  | exit => exact .inl (exit_active_le s h)
  | _ => exact .inl h

theorem fresh_next_of_writesSocket (h : writesSocket s.conn.status e = true) :
    (next s e).fresh = s.fresh + 1 := by
  cases e with
  | body ret =>
      have hstatus : s.conn.status = .disconnect := by simpa [writesSocket] using h
      rw [next, body, if_pos hstatus, reconnect_fresh]
  | _ => simp [writesSocket] at h

theorem timer_next : (next s e).conn.timer =
    if startsTimer e then some s.fresh else s.conn.timer := by
  cases e with
  | body ret =>
      by_cases hstatus : s.conn.status = .disconnect <;>
        simp [startsTimer, next, body, hstatus]
  | connectCb req a status =>
      by_cases hstatus : status < 0
      · rw [connectCb_failed req hstatus]
        simp [startsTimer, hstatus]
      · rw [connectCb_conn req hstatus]
        simp [startsTimer, Int.not_lt.mp hstatus]
  | writeCb req a status =>
      rw [writeCb_conn]
      rfl
  | exit =>
      rw [next, exit_conn]
      rfl
  | _ => rfl

theorem fresh_next_of_startsTimer (h : startsTimer e = true) :
    (next s e).fresh = s.fresh + 1 := by
  cases e with
  | connectCb req a status =>
      have hstatus : ¬ status < 0 := by simpa [startsTimer] using h
      rw [connectCb_fresh req hstatus]
  | _ => simp [startsTimer] at h

/-- Of the timers a step stops at most the one that `conn_struct` names, and
it starts at most a new one. -/
theorem active_next_iff {t : Addr}
    (hsocket : s.loop.active t = true → s.worker.socket ≠ some t)
    (hconnect : s.loop.active t = true → e = .exit → s.worker.connect ≠ t)
    (hplain : e = .exit → s.loop.stage s.worker.connect = .uninitialised) :
    (next s e).loop.active t = true ↔
      startsTimer e = true ∧ s.fresh = t ∨
        s.loop.active t = true ∧ ¬ (stopsTimer e = true ∧ s.conn.timer = some t) := by
  cases e with
  | body ret =>
      by_cases hstatus : s.conn.status = .disconnect
      · rw [next, body, if_pos hstatus, reconnect_active, and_iff_right_of_imp hsocket]
        simp [startsTimer, stopsTimer]
      · rw [next, body, if_neg hstatus]
        simp [startsTimer, stopsTimer]
  | connectCb req a status =>
      by_cases hstatus : status < 0
      · rw [connectCb_failed req hstatus]
        simp [startsTimer, stopsTimer, hstatus]
      · rw [connectCb_active req hstatus]
        simp [startsTimer, stopsTimer, Int.not_lt.mp hstatus, and_comm]
  | writeCb req a status =>
      rw [writeCb_active]
      simp [startsTimer, stopsTimer, and_comm]
  | timerCb t' heap ret =>
      rw [timerCb_active]
      simp [startsTimer, stopsTimer]
  | exit =>
      rw [next, exit_active (hplain rfl), and_iff_right_of_imp fun hactive => hconnect hactive rfl]
      simp [startsTimer, stopsTimer]
  | start | enter | test | closeCb | runEnd | stopFlag | stopLoopClose | stopJoin =>
      simp [startsTimer, stopsTimer, next, enter, onClose]

theorem queue_next : (next s e).loop.queue =
    (closedHandle e).elim s.loop.queue s.loop.queue.erase ++ (newHandle s e).toList := by
  cases e with
  | body ret =>
      by_cases hstatus : s.conn.status = .disconnect
      · cases hsocket : s.worker.socket <;>
          simp [newHandle, closedHandle, writesSocket, startsTimer, next, body, reconnect,
            Process.closeUnlessNull, hstatus, hsocket]
      · simp [newHandle, closedHandle, writesSocket, startsTimer, next, body, hstatus]
  | connectCb req a status =>
      by_cases hstatus : status < 0
      · rw [connectCb_failed req hstatus]
        simp [newHandle, closedHandle, writesSocket, startsTimer, hstatus]
      · simp [newHandle, closedHandle, writesSocket, startsTimer, next, onConnect, hstatus,
          Int.not_lt.mp hstatus]
  | writeCb req a status =>
      by_cases hstatus : status < 0 <;>
        simp [newHandle, closedHandle, writesSocket, startsTimer, next, sendHeartbeatCb, hstatus]
  | timerCb t heap ret => simp [newHandle, closedHandle, writesSocket, startsTimer, next, onTimer]
  | exit =>
      simp only [newHandle, closedHandle, writesSocket, startsTimer, next, exit]
      split_ifs <;> simp_all
  | start | enter | test | closeCb | runEnd | stopFlag | stopLoopClose | stopJoin =>
      simp [newHandle, closedHandle, writesSocket, startsTimer, next, enter, onClose]

/-- A heartbeat is written with a request that is new. -/
theorem mem_writes_next {c : Pending} (h : c ∈ (next s e).loop.writes) :
    c ∈ s.loop.writes ∨ c.req = s.fresh + 1 ∧ ∃ t heap ret, e = .timerCb t heap ret := by
  cases e with
  | timerCb t heap ret =>
      rcases (mem_timerCb_writes t heap ret).mp h with hold | ⟨-, hreq, -⟩
      · exact .inl hold
      · exact .inr ⟨hreq, t, heap, ret, rfl⟩
  | body ret =>
      by_cases hstatus : s.conn.status = .disconnect
      · rw [next, body, if_pos hstatus] at h
        rw [reconnect_writes] at h
        exact .inl h
      · rw [next, body, if_neg hstatus] at h
        exact .inl h
  | connectCb req a status =>
      rw [connectCb_writes] at h
      exact .inl h
  | writeCb req a status => exact .inl ((mem_writeCb_writes req status).mp h).1
  | exit =>
      rw [next, exit_writes] at h
      exact .inl h
  | _ => exact .inl h

/-- And its payload is new as well. -/
theorem data_next_some {a payload : Addr} (h : (next s e).data a = some payload) :
    s.data a = some payload ∨ payload = s.fresh ∧ ∃ t heap ret, e = .timerCb t heap ret := by
  cases e with
  | timerCb t heap ret =>
      by_cases ha : a = s.fresh + 1
      · have hnew : s.fresh = payload := by simpa [next, onTimer, ha] using h
        exact .inr ⟨hnew.symm, t, heap, ret, rfl⟩
      · simp [next, onTimer, Function.update_of_ne ha] at h
        exact .inl h
  | body ret =>
      by_cases hstatus : s.conn.status = .disconnect <;> simp [next, body, hstatus] at h <;>
        exact .inl h
  | connectCb req b status =>
      by_cases hstatus : status < 0
      · rw [connectCb_failed req hstatus] at h
        exact .inl h
      · rw [connectCb_data req hstatus] at h
        exact .inl h
  | writeCb req b status =>
      rw [writeCb_data] at h
      exact .inl h
  | exit =>
      rw [next, exit_data] at h
      exact .inl h
  | _ => exact .inl h

end Steps

section Stages

variable {s : State} {e : Event} {a : Addr}

/-- Memory that has been allocated does not become a handle. -/
theorem plain_next (hlt : a < s.fresh) (hclose : e ≠ .closeCb a)
    (hplain : s.loop.stage a = .uninitialised) : (next s e).loop.stage a = .uninitialised := by
  cases e with
  | body ret =>
      by_cases hstatus : s.conn.status = .disconnect
      · rw [next, body, if_pos hstatus, reconnect_stage]
        simp [Nat.ne_of_gt hlt, hplain]
      · rw [next, body, if_neg hstatus]
        exact hplain
  | connectCb req b status =>
      by_cases hstatus : status < 0
      · rw [connectCb_failed req hstatus]
        exact hplain
      · rw [connectCb_stage req hstatus]
        simp [Nat.ne_of_gt hlt, hplain]
  | writeCb req b status =>
      by_cases hstatus : status < 0 <;> simp [next, sendHeartbeatCb, hstatus, hplain]
  | timerCb t heap ret =>
      rw [timerCb_stage]
      exact hplain
  | closeCb b =>
      have hne : b ≠ a := fun hsame => hclose (hsame ▸ rfl)
      rw [closeCb_stage, if_neg hne]
      exact hplain
  | exit =>
      simp only [next, exit]
      split_ifs <;> simp [hplain]
  | _ => exact hplain

/-- Nor does a handle become other memory again. -/
theorem used_next (h : s.Replayed) (e : Event) (hused : s.loop.stage a ≠ .uninitialised) :
    (next s e).loop.stage a ≠ .uninitialised := by
  rw [loop_next h]
  exact s.loop.not_plain_after hused

/-- What has not been allocated is no handle. -/
theorem blank_next (hblank : ∀ b, s.fresh ≤ b → s.loop.stage b = .uninitialised)
    (hclose : ∀ b, e = .closeCb b → b < s.fresh) (ha : (next s e).fresh ≤ a) :
    (next s e).loop.stage a = .uninitialised := by
  have hle := Nat.le_trans (fresh_le_next s e) ha
  have hplain := hblank a hle
  cases e with
  | body ret =>
      by_cases hstatus : s.conn.status = .disconnect
      · have hlt : s.fresh < a := by simpa [next, body, hstatus, Nat.succ_le_iff] using ha
        rw [next, body, if_pos hstatus, reconnect_stage]
        simp [Nat.ne_of_lt hlt, hplain]
      · rw [next, body, if_neg hstatus]
        exact hplain
  | connectCb req b status =>
      by_cases hstatus : status < 0
      · rw [connectCb_failed req hstatus]
        exact hplain
      · have hlt : s.fresh < a := by rwa [connectCb_fresh req hstatus] at ha
        rw [connectCb_stage req hstatus]
        simp [Nat.ne_of_lt hlt, hplain]
  | writeCb req b status =>
      by_cases hstatus : status < 0 <;> simp [next, sendHeartbeatCb, hstatus, hplain]
  | timerCb t heap ret =>
      rw [timerCb_stage]
      exact hplain
  | closeCb b =>
      have hne : b ≠ a := Nat.ne_of_lt (Nat.lt_of_lt_of_le (hclose b rfl) hle)
      rw [closeCb_stage, if_neg hne]
      exact hplain
  | exit =>
      simp only [next, exit]
      split_ifs <;> simp [hplain]
  | _ => exact hplain

/-- An open handle stays open, unless the step closes it or releases it. -/
theorem opened_next (hlt : a < s.fresh)
    (hsocket : writesSocket s.conn.status e = true → s.worker.socket ≠ some a)
    (htimer : s.conn.timer ≠ some a)
    (hwrite : ∀ req h status, e = .writeCb req h status → req ≠ a ∧ s.data req ≠ some a)
    (hclose : e ≠ .closeCb a)
    (hexit : e = .exit → s.loop.stage s.worker.connect = .uninitialised)
    (hopen : s.loop.stage a = .opened) : (next s e).loop.stage a = .opened := by
  cases e with
  | body ret =>
      by_cases hstatus : s.conn.status = .disconnect
      · have hkept := hsocket (by simp [writesSocket, hstatus])
        rw [next, body, if_pos hstatus, reconnect_stage]
        simp [Nat.ne_of_gt hlt, hkept, hopen]
      · rw [next, body, if_neg hstatus]
        exact hopen
  | connectCb req b status =>
      by_cases hstatus : status < 0
      · rw [connectCb_failed req hstatus]
        exact hopen
      · rw [connectCb_stage req hstatus]
        simp [Nat.ne_of_gt hlt, htimer, hopen]
  | writeCb req b status =>
      obtain ⟨hreq, hpayload⟩ := hwrite req b status rfl
      by_cases hstatus : status < 0 <;>
        simp [next, sendHeartbeatCb, hstatus, hreq, hpayload, hopen]
  | timerCb t heap ret =>
      rw [timerCb_stage]
      exact hopen
  | closeCb b =>
      have hne : b ≠ a := fun hsame => hclose (hsame ▸ rfl)
      rw [closeCb_stage, if_neg hne]
      exact hopen
  | exit =>
      rw [next, exit_stage (hexit rfl)]
      exact hopen
  | _ => exact hopen

/-- A step that makes a handle leaves it open. -/
theorem newHandle_opened (h : newHandle s e = some a) : (next s e).loop.stage a = .opened := by
  cases e with
  | body ret =>
      by_cases hstatus : s.conn.status = .disconnect
      · have hnew : s.fresh = a := by simpa [newHandle, writesSocket, hstatus] using h
        rw [next, body, if_pos hstatus, reconnect_stage, if_pos hnew]
      · simp [newHandle, writesSocket, startsTimer, hstatus] at h
  | connectCb req b status =>
      obtain ⟨hstatus, hnew⟩ : 0 ≤ status ∧ s.fresh = a := by
        simpa [newHandle, writesSocket, startsTimer] using h
      rw [connectCb_stage req (Int.not_lt.mpr hstatus), if_pos hnew]
  | _ => simp [newHandle, writesSocket, startsTimer] at h

end Stages

/-- The handle whose callback the event is. -/
def Event.handle : Event → Ptr
  | .connectCb _ h _ | .writeCb _ h _ | .closeCb h => some h
  | .timerCb t _ _ => some t
  | _ => none

/-- The address of the object. -/
def Worker.address (w : Worker) : SockAddr := ⟨w.host, w.port⟩

section Workers

variable {s s' : State} {e : Event}

/-- What a step makes of the thread depends on the thread, the allocator and,
in a turn of the loop, the status. At its end both processes abort. -/
theorem worker_next_congr (hworker : s.worker = s'.worker) (hfresh : s.fresh = s'.fresh)
    (hstatus : ∀ ret, e = .body ret →
      (s.conn.status = .disconnect ↔ s'.conn.status = .disconnect))
    (hexit : e = .exit → s.loop.stage s.worker.connect = .uninitialised ∧
      s'.loop.stage s'.worker.connect = .uninitialised) :
    (next s e).worker = (next s' e).worker := by
  cases e with
  | exit =>
      obtain ⟨hplain, hplain'⟩ := hexit rfl
      rw [next, next, exit_eq hplain, exit_eq hplain']
      exact hworker
  | body ret =>
      by_cases hdown : s'.conn.status = .disconnect
      · have hsame := (hstatus ret rfl).mpr hdown
        simp [next, body, reconnect, hsame, hdown, hworker, hfresh]
      · have hup : s.conn.status ≠ .disconnect := mt (hstatus ret rfl).mp hdown
        simp [next, body, hup, hdown, hworker]
  | _ => simp [next, enter, hworker, hfresh]

theorem address_next : (next s e).worker.address = s.worker.address := by
  cases e with
  | body ret =>
      by_cases hstatus : s.conn.status = .disconnect <;>
        simp [Worker.address, next, body, reconnect, hstatus]
  | exit =>
      rw [next]
      rcases exit_worker s with hsame | hsame
      · rw [hsame]
      · rw [hsame]
        rfl
  | _ => rfl

/-- Between the start and the end of its loop a thread connects to the
address of its object. -/
theorem dest_next (henabled : e.handle = none → Enabled s e)
    (h : s.worker.pc.Live → s.worker.dest = s.worker.address)
    (hlive : (next s e).worker.pc.Live) :
    (next s e).worker.dest = s.worker.address := by
  cases e with
  | enter => rfl
  | test => exact h (.inl (henabled rfl))
  | body ret =>
      have hbody : s.worker.pc.Live := .inr (.inl (henabled rfl))
      by_cases hstatus : s.conn.status = .disconnect
      · simpa [next, body, reconnect, hstatus] using h hbody
      · simpa [next, body, hstatus] using h hbody
  | connectCb | writeCb | timerCb | closeCb => exact h hlive
  | runEnd => exact h (.inr (.inr (.inl (henabled rfl))))
  | stopFlag | stopLoopClose => exact h hlive
  | exit =>
      rw [next] at hlive ⊢
      rcases exit_worker s with hsame | hsame
      · rw [hsame] at hlive ⊢
        exact h hlive
      · simp [hsame, Pc.Live] at hlive
  | start | stopJoin => simp [next, Pc.Live] at hlive

/-- How much a step allocates depends on the status alone. -/
theorem fresh_next_congr (hfresh : s.fresh = s'.fresh)
    (hstatus : ∀ ret, e = .body ret →
      (s.conn.status = .disconnect ↔ s'.conn.status = .disconnect)) :
    (next s e).fresh = (next s' e).fresh := by
  cases e with
  | body ret =>
      by_cases hdown : s'.conn.status = .disconnect
      · have hsame := (hstatus ret rfl).mpr hdown
        simp [next, body, hsame, hdown, hfresh]
      · have hup : s.conn.status ≠ .disconnect := mt (hstatus ret rfl).mp hdown
        simp [next, body, hup, hdown, hfresh]
  | connectCb req a status =>
      by_cases hstatus : status < 0
      · rw [connectCb_failed req hstatus, connectCb_failed req hstatus]
        exact hfresh
      · rw [connectCb_fresh req hstatus, connectCb_fresh req hstatus, hfresh]
  | writeCb req a status => rw [writeCb_fresh, writeCb_fresh, hfresh]
  | timerCb t heap ret => exact congrArg (· + 2) hfresh
  | enter => exact congrArg (· + 1) hfresh
  | exit => rw [next, next, exit_fresh, exit_fresh, hfresh]
  | _ => exact hfresh

/-- The thread's socket is the one it had, or the one it has just made. -/
theorem worker_socket_next {a : Addr} (ha : (next s e).worker.socket = some a) :
    writesSocket s.conn.status e = false ∧ s.worker.socket = some a ∨
      writesSocket s.conn.status e = true ∧ s.fresh = a := by
  cases e with
  | body ret =>
      by_cases hstatus : s.conn.status = .disconnect
      · exact .inr (by simpa [writesSocket, next, body, hstatus] using ha)
      · exact .inl (by simpa [writesSocket, next, body, hstatus] using ha)
  | enter => cases ha
  | exit =>
      rw [next] at ha
      rcases exit_worker s with hsame | hsame <;> rw [hsame] at ha <;> exact .inl ⟨rfl, ha⟩
  | _ => exact .inl ⟨rfl, ha⟩

theorem worker_connect_next (henter : e ≠ .enter) :
    (next s e).worker.connect = s.worker.connect := by
  cases e with
  | enter => exact absurd rfl henter
  | body ret => by_cases hstatus : s.conn.status = .disconnect <;> simp [next, body, hstatus]
  | exit =>
      rw [next]
      rcases exit_worker s with hsame | hsame <;> rw [hsame]
  | _ => rfl

/-- The thread comes into its loop from the beginning of `thread_task`. -/
theorem live_of_next (henabled : e.handle = none → Enabled s e)
    (hlive : (next s e).worker.pc.Live) : s.worker.pc.Live ∨ e = .enter := by
  cases e with
  | enter => exact .inr rfl
  | test => exact .inl (.inl (henabled rfl))
  | body => exact .inl (.inr (.inl (henabled rfl)))
  | runEnd => exact .inl (.inr (.inr (.inl (henabled rfl))))
  | exit => exact .inl (.inr (.inr (.inr (henabled rfl))))
  | start | stopJoin => simp [next, Pc.Live] at hlive
  | connectCb | writeCb | timerCb | closeCb | stopFlag | stopLoopClose => exact .inl hlive

theorem newActions_exit (hplain : s.loop.stage s.worker.connect = .uninitialised) :
    newActions s .exit = [.close (some s.worker.connect)] := by
  simp [newActions, hplain]

theorem newActions_congr (hworker : s.worker = s'.worker) (hfresh : s.fresh = s'.fresh)
    (hstatus : ∀ ret, e = .body ret →
      (s.conn.status = .disconnect ↔ s'.conn.status = .disconnect))
    (hsocket : ∀ t heap ret, e = .timerCb t heap ret → s.conn.socket = s'.conn.socket)
    (hexit : e = .exit → s.loop.stage s.worker.connect = .uninitialised ∧
      s'.loop.stage s'.worker.connect = .uninitialised) :
    newActions s e = newActions s' e := by
  cases e with
  | body ret => simp only [newActions, hworker, hfresh, hstatus ret rfl]
  | timerCb t heap ret => rw [newActions, newActions, hsocket t heap ret rfl]
  | exit =>
      obtain ⟨hplain, hplain'⟩ := hexit rfl
      rw [newActions_exit hplain, newActions_exit hplain', hworker]
  | _ => rfl

theorem connect_mem_newActions (h : writesSocket s.conn.status e = true) :
    .connect s.fresh s.worker.dest ∈ newActions s e := by
  cases e with
  | body ret =>
      have hstatus : s.conn.status = .disconnect := by simpa [writesSocket] using h
      simp [newActions, hstatus]
  | _ => simp [writesSocket] at h

/-- `conn_struct.socket` is never set back to null. -/
theorem socket_next_ne_none
    (h : s.conn.socket ≠ none ∨ writesSocket s.conn.status e = true) :
    (next s e).conn.socket ≠ none := by
  rw [socket_next]
  split
  · exact Option.some_ne_none _
  · next hkeeps => exact h.resolve_right hkeeps

end Workers

section Statuses

variable {status status' : Status} {e : Event}

theorem statusAfter_eq_of_writes
    (hstatus : ∀ ret, e = .body ret → (status = .disconnect ↔ status' = .disconnect))
    (hwrites : writesStatus status' e = true) : statusAfter status e = statusAfter status' e := by
  cases e with
  | body ret =>
      have hdown : status' = .disconnect := by simpa [writesStatus] using hwrites
      rw [hdown, (hstatus ret rfl).mpr hdown]
  | connectCb => rfl
  | writeCb req h ret =>
      have hfailed : ret < 0 := by simpa [writesStatus] using hwrites
      simp [statusAfter, hfailed]
  | _ => simp [writesStatus] at hwrites

theorem writesSocket_congr
    (hstatus : ∀ ret, e = .body ret → (status = .disconnect ↔ status' = .disconnect)) :
    writesSocket status e = writesSocket status' e := by
  cases e with
  | body ret => simp only [writesSocket, hstatus ret rfl]
  | _ => rfl

theorem writesStatus_congr
    (hstatus : ∀ ret, e = .body ret → (status = .disconnect ↔ status' = .disconnect)) :
    writesStatus status e = writesStatus status' e := by
  cases e with
  | body ret => simp only [writesStatus, hstatus ret rfl]
  | _ => rfl

/-- A worker that has not connected stays disconnected. -/
theorem statusAfter_disconnect (hkeeps : writesSocket .disconnect e = false)
    (hconnect : ∀ req h ret, e ≠ .connectCb req h ret) :
    statusAfter .disconnect e = .disconnect := by
  cases e with
  | body ret => simp [writesSocket] at hkeeps
  | connectCb req h ret => exact absurd rfl (hconnect req h ret)
  | writeCb => simp [statusAfter]
  | _ => rfl

end Statuses

end L1Comm.Sender
