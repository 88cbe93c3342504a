import L1Comm.Sender.Model
import Mathlib.Tactic.Common

/-!
What a step of a worker makes of the parts of its state. Each lemma is about
one step and one part; the proofs about runs use these and do not look into
the definitions of the steps again.
-/

namespace L1Comm.Sender

open Uv

section Trace

variable (s : State) (e : Event)

/-- The entries that a step adds to the trace. -/
def calls : Event → List Call
  | .enter => [.malloc s.fresh]
  | .body ret =>
      if s.conn.status = .disconnect then
        s.worker.socket.toList.map (fun h => .close (some h)) ++
          [.malloc s.fresh, .tcpInit s.fresh,
            .connect s.worker.connect s.fresh s.worker.dest ret]
      else []
  | .connectCb req h status =>
      .connectCb req h status ::
        if status < 0 then []
        else
          s.conn.timer.toList.flatMap (fun t => [.timerStop (some t), .free (some t)]) ++
            [.malloc s.fresh, .timerInit s.fresh, .timerStart s.fresh]
  | .writeCb req h status =>
      .writeCb req h status ::
        ((if status < 0 then [.timerStop s.conn.timer] else []) ++
          [.free (s.data req), .free (some req)])
  | .timerCb t heap ret =>
      [.timerCb t, .malloc s.fresh, .malloc (s.fresh + 1),
        .write (s.fresh + 1) s.conn.socket
          {L1Response.ofBytes heap with dbw0 := BitVec.ofNat 16 s.num}.toBytes ret]
  | .closeCb h => [.closeCb h, .free (some h)]
  | .exit =>
      let p := s.toProcess.call (.close (some s.worker.connect))
      .close (some s.worker.connect) ::
        if p.loop.fate = .aborted then []
        else .close s.worker.socket ::
          if (p.call (.close s.worker.socket)).loop.fate = .aborted then []
          else s.conn.timer.toList.flatMap (fun t => [.timerStop (some t), .free (some t)])
  | .stopLoopClose => [.loopClose (loopCloseRet s.loop)]
  | .start | .test | .runEnd | .stopFlag | .stopJoin => []

theorem trace_next : (next s e).trace = s.trace ++ calls s e := by
  cases e with
  | body ret =>
      by_cases hstatus : s.conn.status = .disconnect
      · simp [next, body, reconnect, calls, hstatus]
      · simp [next, body, calls, hstatus]
  | connectCb req h status =>
      by_cases hstatus : status < 0 <;> simp [next, onConnect, calls, hstatus]
  | writeCb req h status =>
      by_cases hstatus : status < 0 <;> simp [next, sendHeartbeatCb, calls, hstatus]
  | timerCb t heap ret => simp [next, onTimer, calls, NumGenerator.getNum]
  | exit =>
      simp only [next, exit, calls]
      split_ifs <;> simp
  | enter | closeCb | stopLoopClose => simp [next, enter, onClose, calls]
  | start | test | runEnd | stopFlag | stopJoin => exact (List.append_nil _).symm

/-- The calls that are about sockets and requests, and neither about a timer,
nor memory, nor a callback. -/
@[simp] def isSocketCall : Call → Bool
  | .tcpInit _ | .connect .. | .write .. | .close _ => true
  | _ => false

/-- Those of a step. -/
def socketCalls : Event → List Call
  | .body ret =>
      if s.conn.status = .disconnect then
        s.worker.socket.toList.map (fun h => .close (some h)) ++
          [.tcpInit s.fresh, .connect s.worker.connect s.fresh s.worker.dest ret]
      else []
  | .timerCb _ heap ret =>
      [.write (s.fresh + 1) s.conn.socket
        {L1Response.ofBytes heap with dbw0 := BitVec.ofNat 16 s.num}.toBytes ret]
  | .exit =>
      .close (some s.worker.connect) ::
        if (s.toProcess.call (.close (some s.worker.connect))).loop.fate = .aborted then []
        else [.close s.worker.socket]
  | _ => []

theorem filter_calls : (calls s e).filter isSocketCall = socketCalls s e := by
  cases e with
  | body ret =>
      by_cases hstatus : s.conn.status = .disconnect
      · simp [calls, socketCalls, hstatus, List.filter_map, Function.comp_def]
      · simp [calls, socketCalls, hstatus]
  | connectCb req h status =>
      by_cases hstatus : status < 0
      · simp [calls, socketCalls, hstatus]
      · cases htimer : s.conn.timer <;> simp [calls, socketCalls, hstatus, htimer]
  | writeCb req h status => by_cases hstatus : status < 0 <;> simp [calls, socketCalls, hstatus]
  | exit =>
      simp only [calls, socketCalls]
      split_ifs <;> cases htimer : s.conn.timer <;> simp [List.filter_cons]
  | timerCb t heap ret => simp [calls, socketCalls, List.filter_cons]
  | _ => simp [calls, socketCalls]

/-- What a step adds to the part of the trace that such calls make up. -/
theorem filterMap_trace_next {α : Type*} {f : Call → Option α}
    (hf : ∀ c, ¬ isSocketCall c → f c = none) :
    (next s e).trace.filterMap f = s.trace.filterMap f ++ (socketCalls s e).filterMap f := by
  rw [trace_next, List.filterMap_append, ← filter_calls, List.filterMap_filter]
  apply congrArg (s.trace.filterMap f ++ ·)
  apply List.filterMap_congr
  intro c _
  split
  · rfl
  · next hc => exact hf c hc

/-- No step takes anything back from the trace. -/
theorem trace_grows : s.trace <+: (next s e).trace := by
  rw [trace_next]
  exact List.prefix_append _ _

end Trace

variable {s : State} {a b : Addr}

section Reconnect

variable (s : State) (ret : Int)

@[simp] theorem reconnect_fresh : (reconnect s ret).fresh = s.fresh + 1 := by
  simp [reconnect]

@[simp] theorem reconnect_data : (reconnect s ret).data = s.data := by
  simp [reconnect]

@[simp] theorem reconnect_conn : (reconnect s ret).conn =
    {s.conn with
      socket := some s.fresh, connect := some s.worker.connect, status := .connecting} := by
  simp [reconnect]

@[simp] theorem reconnect_worker :
    (reconnect s ret).worker = {s.worker with socket := some s.fresh} := by
  simp [reconnect]

@[simp] theorem reconnect_writes : (reconnect s ret).loop.writes = s.loop.writes := by
  simp [reconnect]

theorem mem_reconnect_connects {c : Pending} : c ∈ (reconnect s ret).loop.connects ↔
    c ∈ s.loop.connects ∨ ret = 0 ∧ c = ⟨s.worker.connect, s.fresh⟩ := by
  rw [reconnect]
  simp only [Process.call_loop, Loop.mem_connects_connect]
  simp

/-- The socket of the last connection is closed and a new one initialised. -/
theorem reconnect_stage : (reconnect s ret).loop.stage b =
    if s.fresh = b then .opened
    else if s.worker.socket = some b ∧ s.loop.stage b = .opened then .closing
    else s.loop.stage b := by
  simp [reconnect]

theorem reconnect_fate (hopen : ∀ h, s.worker.socket = some h → s.loop.stage h = .opened) :
    (reconnect s ret).loop.fate = s.loop.fate := by
  simpa [reconnect] using Process.closeUnlessNull_fate
    {s.toProcess with conn.status := .connecting} s.worker.socket hopen

theorem reconnect_active : (reconnect s ret).loop.active b = true ↔
    s.worker.socket ≠ some b ∧ s.loop.active b = true := by
  simp [reconnect]

end Reconnect

section ConnectCb

variable (req : Addr) {status : Int}

theorem connectCb_failed (hstatus : status < 0) : next s (.connectCb req a status) =
    {s with
      toProcess := {s.toProcess.call (.connectCb req a status) with
        conn.status := .disconnect}} := by
  rw [next, onConnect, if_pos hstatus]

theorem connectCb_fresh (hstatus : ¬ status < 0) :
    (next s (.connectCb req a status)).fresh = s.fresh + 1 := by
  simp [next, onConnect, hstatus]

theorem connectCb_data (hstatus : ¬ status < 0) :
    (next s (.connectCb req a status)).data = s.data := by
  simp [next, onConnect, hstatus]

theorem connectCb_conn (hstatus : ¬ status < 0) : (next s (.connectCb req a status)).conn =
    {s.conn with status := .connected, timer := some s.fresh} := by
  simp [next, onConnect, hstatus]

/-- The timer of the last connection is released and a new one initialised. -/
theorem connectCb_stage (hstatus : ¬ status < 0) :
    (next s (.connectCb req a status)).loop.stage b =
      if s.fresh = b then .opened
      else if s.conn.timer = some b ∧ s.loop.stage b ≠ .uninitialised then .released
      else s.loop.stage b := by
  simp [next, onConnect, hstatus]
  rfl

/-- It is stopped, and the new one is started. -/
theorem connectCb_active (hstatus : ¬ status < 0) :
    (next s (.connectCb req a status)).loop.active b = true ↔
      s.fresh = b ∨ s.conn.timer ≠ some b ∧ s.loop.active b = true := by
  by_cases hb : s.fresh = b <;> simp [next, onConnect, hstatus, hb]

variable (status)

theorem connectCb_connects : (next s (.connectCb req a status)).loop.connects =
    s.loop.connects.filter (· ≠ ⟨req, a⟩) := by
  by_cases hstatus : status < 0 <;> simp [next, onConnect, hstatus]

theorem connectCb_established : (next s (.connectCb req a status)).loop.established b =
    if a = b then decide (0 ≤ status) else s.loop.established b := by
  by_cases hstatus : status < 0 <;> simp [next, onConnect, hstatus]

theorem connectCb_writes : (next s (.connectCb req a status)).loop.writes = s.loop.writes := by
  by_cases hstatus : status < 0 <;> simp [next, onConnect, hstatus]

end ConnectCb

section WriteCb

variable (req : Addr) (status : Int)

theorem writeCb_conn : (next s (.writeCb req a status)).conn =
    {s.conn with status := if status < 0 then .disconnect else s.conn.status} := by
  by_cases hstatus : status < 0 <;> simp [next, sendHeartbeatCb, hstatus]

theorem writeCb_fresh : (next s (.writeCb req a status)).fresh = s.fresh := by
  by_cases hstatus : status < 0 <;> simp [next, sendHeartbeatCb, hstatus]

theorem writeCb_data : (next s (.writeCb req a status)).data = s.data := by
  by_cases hstatus : status < 0 <;> simp [next, sendHeartbeatCb, hstatus]

theorem writeCb_connects : (next s (.writeCb req a status)).loop.connects = s.loop.connects := by
  by_cases hstatus : status < 0 <;> simp [next, sendHeartbeatCb, hstatus]

theorem writeCb_writes : (next s (.writeCb req a status)).loop.writes =
    s.loop.writes.filter (· ≠ ⟨req, a⟩) := by
  by_cases hstatus : status < 0 <;> simp [next, sendHeartbeatCb, hstatus]

theorem mem_writeCb_writes {c : Pending} :
    c ∈ (next s (.writeCb req a status)).loop.writes ↔ c ∈ s.loop.writes ∧ c ≠ ⟨req, a⟩ := by
  rw [writeCb_writes, List.mem_filter, decide_eq_true_iff]

theorem writeCb_established :
    (next s (.writeCb req a status)).loop.established = s.loop.established := by
  funext b
  by_cases hstatus : status < 0 <;> simp [next, sendHeartbeatCb, hstatus]

theorem writeCb_active : (next s (.writeCb req a status)).loop.active b = true ↔
    ¬ (status < 0 ∧ s.conn.timer = some b) ∧ s.loop.active b = true := by
  by_cases hstatus : status < 0 <;> simp [next, sendHeartbeatCb, hstatus]

/-- The memory released is that of the request and of the payload. -/
theorem writeCb_stage {payload : Addr} (hdata : s.data req = some payload)
    (hreq : s.loop.stage req = .uninitialised)
    (hpayload : s.loop.stage payload = .uninitialised) :
    (next s (.writeCb req a status)).loop.stage b = s.loop.stage b := by
  have hfrees (l : Loop SockAddr) (hl : l.stage = s.loop.stage) :
      ((l.after (.free (some payload) : Call)).after (.free (some req) : Call)).stage =
        s.loop.stage := by
    have hfirst : (l.after (.free (some payload) : Call)).stage = s.loop.stage :=
      (l.stage_free_plain payload (by rw [hl, hpayload])).trans hl
    exact (Loop.stage_free_plain _ req (by rw [hfirst, hreq])).trans hfirst
  apply congrFun
  simp only [next, sendHeartbeatCb]
  split
  all_goals
    simp only [Process.call_loop, Process.call_data, hdata]
    exact hfrees _ rfl

end WriteCb

section TimerCb

variable (t : Addr) (heap : Payload) (ret : Int)

theorem timerCb_stage : (next s (.timerCb t heap ret)).loop.stage b = s.loop.stage b := by
  simp [next, onTimer]

theorem timerCb_active : (next s (.timerCb t heap ret)).loop.active b = s.loop.active b := by
  simp [next, onTimer]

theorem timerCb_connects : (next s (.timerCb t heap ret)).loop.connects = s.loop.connects := by
  simp [next, onTimer]

theorem mem_timerCb_writes {c : Pending} :
    c ∈ (next s (.timerCb t heap ret)).loop.writes ↔
      c ∈ s.loop.writes ∨ ret = 0 ∧ c.req = s.fresh + 1 ∧ s.conn.socket = some c.handle := by
  rw [next, onTimer]
  simp only [Process.call_loop, Loop.mem_writes_write]
  simp

end TimerCb

theorem closeCb_stage : (next s (.closeCb a)).loop.stage b =
    if a = b then .released else s.loop.stage b := by
  by_cases hab : a = b <;> simp [next, onClose, hab]

section Exit

variable (s)

@[simp] theorem exit_fresh : (exit s).fresh = s.fresh := by
  simp only [exit]
  split_ifs <;> simp

@[simp] theorem exit_data : (exit s).data = s.data := by
  simp only [exit]
  split_ifs <;> simp

@[simp] theorem exit_num : (exit s).num = s.num := by
  simp only [exit]
  split_ifs <;> simp

@[simp] theorem exit_conn : (exit s).conn = s.conn := by
  simp only [exit]
  split_ifs <;> simp

@[simp] theorem exit_connects : (exit s).loop.connects = s.loop.connects := by
  simp only [exit]
  split_ifs <;> simp

@[simp] theorem exit_writes : (exit s).loop.writes = s.loop.writes := by
  simp only [exit]
  split_ifs <;> simp

theorem exit_active_le (h : (exit s).loop.active b = true) : s.loop.active b = true := by
  simp only [exit] at h
  split_ifs at h <;> simp_all

/-- Of the thread only the place changes. -/
theorem exit_worker :
    (exit s).worker = s.worker ∨ (exit s).worker = {s.worker with pc := .done} := by
  simp only [exit]
  split_ifs <;> simp

variable {s} (hplain : s.loop.stage s.worker.connect = .uninitialised)

include hplain

/-- The connect request is no handle, so libuv aborts and nothing else is done. -/
theorem exit_eq :
    exit s = {s with toProcess := s.toProcess.call (.close (some s.worker.connect))} := by
  simp [exit, hplain]

theorem exit_fate : (exit s).loop.fate = .aborted := by
  simp [exit_eq hplain, hplain]

theorem calls_exit : calls s .exit = [.close (some s.worker.connect)] := by
  simp [calls, hplain]

theorem exit_stage : (exit s).loop.stage b = s.loop.stage b := by
  rw [exit_eq hplain]
  simp only [Process.call_loop, Loop.after_stage, Loop.stageAfter]
  refine if_neg ?_
  rintro ⟨hb, hopen⟩
  obtain rfl := Option.some.inj hb
  rw [hplain] at hopen
  cases hopen

theorem exit_active : (exit s).loop.active b = true ↔
    s.worker.connect ≠ b ∧ s.loop.active b = true := by
  simp [exit_eq hplain]

end Exit

/-- What becomes of the loop and the process in a step: the end of
`thread_task` aborts, and `Stop` destroys a loop without handles. -/
def nextFate (l : Loop SockAddr) : Event → Fate
  | .exit => .aborted
  | .stopLoopClose => if l.queue = [] ∧ l.fate = .usable then .destroyed else l.fate
  | _ => l.fate

theorem fate_next (s : State) (e : Event)
    (hsocket : ∀ ret, e = .body ret → ∀ h, s.worker.socket = some h → s.loop.stage h = .opened)
    (hconnect : e = .exit → s.loop.stage s.worker.connect = .uninitialised) :
    (next s e).loop.fate = nextFate s.loop e := by
  cases e with
  | body ret =>
      by_cases hstatus : s.conn.status = .disconnect
      · rw [next, body, if_pos hstatus]
        exact reconnect_fate s ret (hsocket ret rfl)
      · rw [next, body, if_neg hstatus]
        rfl
  | connectCb req a status =>
      by_cases hstatus : status < 0 <;> simp [next, onConnect, nextFate, hstatus]
  | writeCb req a status =>
      by_cases hstatus : status < 0 <;> simp [next, sendHeartbeatCb, nextFate, hstatus]
  | timerCb t heap ret => simp [next, onTimer, nextFate]
  | exit => exact exit_fate (hconnect rfl)
  | stopLoopClose => simp [next, nextFate, loopCloseRet_eq_zero]
  | start | enter | test | closeCb | runEnd | stopFlag | stopJoin => rfl

theorem fresh_le_next (s : State) (e : Event) : s.fresh ≤ (next s e).fresh := by
  cases e with
  | body ret =>
      by_cases hstatus : s.conn.status = .disconnect <;> simp [next, body, hstatus]
  | connectCb req a status =>
      by_cases hstatus : status < 0
      · rw [connectCb_failed req hstatus]
        exact Nat.le_refl _
      · rw [connectCb_fresh req hstatus]
        exact Nat.le_succ _
  | writeCb req a status => rw [writeCb_fresh]
  | exit => rw [next, exit_fresh]
  | timerCb => exact Nat.le_add_right s.fresh 2
  | enter => exact Nat.le_succ _
  | _ => exact Nat.le_refl _

end L1Comm.Sender
