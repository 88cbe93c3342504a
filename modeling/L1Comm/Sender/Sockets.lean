import L1Comm.Sender.Failures

/-!
The sockets of one sender over its whole life. Each reconnection closes the
socket of the last one and makes a new one, which both the local variable of
the thread and `conn_struct.socket` then name. Nothing else in the loop makes
or closes a socket, whatever the callbacks do to the status.
-/

namespace L1Comm.Sender

open Uv

@[simp] def socket? : Call → Option Addr
  | .tcpInit h => some h
  | _ => none

/-- The sockets created so far, in order. -/
def sockets (trace : List Call) : List Addr := trace.filterMap socket?

/-- How often `uv_close` has been called on the handle. -/
def closes (trace : List Call) (h : Addr) : Nat := trace.count (.close (some h))

/-- Every socket but the latest has been closed once, the latest has not been
closed, and it is the one that both pointers name. -/
structure OneOpenSocket (s : State) : Prop where
  closed : ∀ h ∈ sockets s.trace,
    closes s.trace h = if (sockets s.trace).getLast? = some h then 0 else 1
  socket : s.worker.socket = (sockets s.trace).getLast?
  conn : s.conn.socket = (sockets s.trace).getLast?
  disconnect : sockets s.trace = [] → s.conn.status = .disconnect

/-- The sockets that a step creates. -/
def newSockets (s : State) : Event → List Addr
  | .body _ => if s.conn.status = .disconnect then [s.fresh] else []
  | _ => []

/-- The handles that a turn of the loop closes. -/
def newCloses (s : State) : Event → List Addr
  | .body _ => if s.conn.status = .disconnect then s.worker.socket.toList else []
  | _ => []

section Steps

variable (s : State) (e : Event)

theorem sockets_next : sockets (next s e).trace = sockets s.trace ++ newSockets s e := by
  have hsocket (c : Call) (hc : ¬ isSocketCall c) : socket? c = none := by
    cases c <;> simp_all
  rw [sockets, filterMap_trace_next s e hsocket, ← sockets]
  apply congrArg (sockets s.trace ++ ·)
  cases e with
  | body ret =>
      by_cases hstatus : s.conn.status = .disconnect
      · cases hlatest : s.worker.socket <;>
          simp [socketCalls, newSockets, hstatus, hlatest, List.filterMap_cons]
      · simp [socketCalls, newSockets, hstatus]
  | exit =>
      simp only [socketCalls]
      split_ifs <;> rfl
  | _ => rfl

theorem closes_next (hexit : e ≠ .exit) (h : Addr) :
    closes (next s e).trace h = closes s.trace h + (newCloses s e).count h := by
  have hcalls : (calls s e).count (.close (some h)) =
      (socketCalls s e).count (.close (some h)) := by
    rw [← filter_calls, List.count_filter]
    rfl
  rw [trace_next, closes, List.count_append, hcalls]
  apply congrArg (closes s.trace h + ·)
  cases e with
  | body ret =>
      by_cases hstatus : s.conn.status = .disconnect
      · cases hsocket : s.worker.socket <;>
          simp [socketCalls, newCloses, hstatus, hsocket, List.count_cons]
      · simp [socketCalls, newCloses, hstatus]
  | exit => exact absurd rfl hexit
  | timerCb t heap ret => simp [socketCalls, newCloses]
  | _ => rfl

end Steps

/-- The thread has been created and has not left its loop. -/
def Looping (s : State) : Prop :=
  s.worker.pc = .start ∨ s.worker.pc = .head ∨ s.worker.pc = .body ∨ s.worker.pc = .run

structure SocketsKept (s : State) : Prop where
  sockets_lt : ∀ h ∈ sockets s.trace, h < s.fresh
  closes_fresh : ∀ h, s.fresh ≤ h → closes s.trace h = 0
  /-- Without a socket there is no connect that could succeed. -/
  unconnected : sockets s.trace = [] → s.conn.status = .disconnect ∧ s.loop.connects = []
  start : s.worker.pc = .start → sockets s.trace = [] ∧ s.conn.socket = none
  oneOpen : s.worker.pc.Live → OneOpenSocket s

namespace SocketsKept

variable {s : State} {e : Event}

/-- Most steps create and close nothing. -/
theorem of_frame (h : SocketsKept s) (hexit : e ≠ .exit) (hnew : newSockets s e = [])
    (hcloses : newCloses s e = []) (hsocket : (next s e).worker.socket = s.worker.socket)
    (hconn : (next s e).conn.socket = s.conn.socket)
    (hstart : (next s e).worker.pc = .start → s.worker.pc = .start)
    (hlive : (next s e).worker.pc.Live → s.worker.pc.Live)
    (hunconnected : s.conn.status = .disconnect → s.loop.connects = [] →
      (next s e).conn.status = .disconnect ∧ (next s e).loop.connects = []) :
    SocketsKept (next s e) := by
  have hsockets : sockets (next s e).trace = sockets s.trace := by
    rw [sockets_next, hnew, List.append_nil]
  have hcount (a : Addr) : closes (next s e).trace a = closes s.trace a := by
    rw [closes_next s e hexit, hcloses]
    rfl
  have hfresh := fresh_le_next s e
  constructor
  · intro a ha
    rw [hsockets] at ha
    exact Nat.lt_of_lt_of_le (h.sockets_lt a ha) hfresh
  · intro a ha
    rw [hcount]
    exact h.closes_fresh a (Nat.le_trans hfresh ha)
  · intro hnone
    rw [hsockets] at hnone
    obtain ⟨hstatus, hconnects⟩ := h.unconnected hnone
    exact hunconnected hstatus hconnects
  · intro hpc
    rw [hsockets, hconn]
    exact h.start (hstart hpc)
  · intro hpc
    obtain ⟨hclosed, hworker, hshared, hdown⟩ := h.oneOpen (hlive hpc)
    constructor
    · intro a ha
      rw [hsockets] at ha ⊢
      rw [hcount, hclosed a ha]
    · rw [hsocket, hsockets, hworker]
    · rw [hconn, hsockets, hshared]
    · intro hnone
      rw [hsockets] at hnone
      exact (hunconnected (hdown hnone) (h.unconnected hnone).2).1

/-- The socket of the last connection is closed, and the new one is in its place. -/
theorem reconnect (h : SocketsKept s) (hbody : s.worker.pc = .body)
    (hstatus : s.conn.status = .disconnect) (ret : Int) :
    SocketsKept (next s (.body ret)) := by
  obtain ⟨hclosed, hworker, -, -⟩ := h.oneOpen (.inr (.inl hbody))
  have hsockets : sockets (next s (.body ret)).trace = sockets s.trace ++ [s.fresh] := by
    rw [sockets_next, newSockets, if_pos hstatus]
  have hlatest : (sockets (next s (.body ret)).trace).getLast? = some s.fresh := by
    rw [hsockets, List.getLast?_concat]
  have hcount (a : Addr) : closes (next s (.body ret)).trace a =
      closes s.trace a + if (sockets s.trace).getLast? = some a then 1 else 0 := by
    rw [closes_next s _ (by simp), newCloses, if_pos hstatus, hworker]
    cases hlast : (sockets s.trace).getLast? <;> simp [List.count_cons]
  have hfresh : (next s (.body ret)).fresh = s.fresh + 1 := by
    simp [next, body, hstatus]
  constructor
  · intro a ha
    rw [hsockets] at ha
    rw [hfresh]
    rcases List.mem_append.mp ha with hold | hnew
    · exact Nat.lt_succ_of_lt (h.sockets_lt a hold)
    · rw [List.mem_singleton.mp hnew]
      exact Nat.lt_succ_self _
  · intro a ha
    rw [hfresh] at ha
    have hother : (sockets s.trace).getLast? ≠ some a := by
      intro hlast
      have hlt := h.sockets_lt a (List.mem_of_getLast? hlast)
      exact Nat.lt_irrefl _ (Nat.lt_trans hlt ha)
    rw [hcount, if_neg hother, h.closes_fresh a (Nat.le_of_succ_le ha)]
  · intro hnone
    rw [hsockets] at hnone
    exact absurd hnone (by simp)
  · intro hpc
    simp [next, body] at hpc
  · intro _
    constructor
    · intro a ha
      rw [hlatest, hcount]
      rw [hsockets] at ha
      rcases List.mem_append.mp ha with hold | hnew
      · have hne : s.fresh ≠ a := Nat.ne_of_gt (h.sockets_lt a hold)
        rw [hclosed a hold]
        by_cases hlast : (sockets s.trace).getLast? = some a <;> simp [hlast, hne]
      · obtain rfl := List.mem_singleton.mp hnew
        have hother : (sockets s.trace).getLast? ≠ some s.fresh := fun hlast =>
          Nat.lt_irrefl _ (h.sockets_lt _ (List.mem_of_getLast? hlast))
        rw [if_neg hother, h.closes_fresh s.fresh le_rfl, if_pos rfl]
    · rw [hlatest]
      simp [next, body, hstatus]
    · rw [hlatest]
      simp [next, body, hstatus]
    · intro hnone
      rw [hsockets] at hnone
      exact absurd hnone (by simp)

theorem enter (h : SocketsKept s) (hstart : s.worker.pc = .start) :
    SocketsKept (next s .enter) := by
  obtain ⟨hnone, hsocket⟩ := h.start hstart
  have hsockets : sockets (next s .enter).trace = [] := by
    rw [sockets_next, hnone]
    rfl
  obtain ⟨hstatus, hconnects⟩ := h.unconnected hnone
  constructor
  · simp [hsockets]
  · intro a ha
    rw [closes_next s _ (by simp), h.closes_fresh a (Nat.le_of_succ_le ha)]
    rfl
  · exact fun _ => ⟨hstatus, hconnects⟩
  · intro hpc
    cases hpc
  · intro _
    constructor
    · simp [hsockets]
    · rw [hsockets]
      rfl
    · rw [hsockets]
      exact hsocket
    · exact fun _ => hstatus

/-- A callback finds the status at `-1` as long as there is no socket. -/
theorem connectCb (h : SocketsKept s) {req a : Addr} {status : Int}
    (henabled : Enabled s (.connectCb req a status)) :
    SocketsKept (next s (.connectCb req a status)) := by
  refine h.of_frame (by simp) rfl rfl rfl ?_ id id ?_
  · by_cases hstatus : status < 0
    · rw [connectCb_failed req hstatus]
      rfl
    · rw [connectCb_conn req hstatus]
  · intro _ hnone
    have hpending := henabled.2.1
    rw [hnone] at hpending
    exact absurd hpending List.not_mem_nil

/-- Until the thread leaves its loop. -/
protected theorem next (h : SocketsKept s) (henabled : Enabled s e) (hstart : e ≠ .start)
    (hexit : e ≠ .exit) (hjoin : e ≠ .stopJoin) : SocketsKept (next s e) := by
  cases e with
  | start => exact absurd rfl hstart
  | exit => exact absurd rfl hexit
  | stopJoin => exact absurd rfl hjoin
  | enter => exact h.enter henabled
  | test =>
      have hlive : s.worker.pc.Live := .inl henabled
      refine h.of_frame (by simp) rfl rfl rfl rfl ?_ (fun _ => hlive) fun hs hc => ⟨hs, hc⟩
      dsimp only [next]
      split <;> simp
  | body ret =>
      by_cases hstatus : s.conn.status = .disconnect
      · exact h.reconnect henabled hstatus ret
      · have hlive : s.worker.pc.Live := .inr (.inl henabled)
        refine h.of_frame (by simp) ?_ ?_ ?_ ?_ ?_ (fun _ => hlive) ?_
        all_goals simp [next, body, newSockets, newCloses, hstatus]
  | connectCb req a status => exact h.connectCb henabled
  | writeCb req a status =>
      refine h.of_frame (by simp) rfl rfl rfl ?_ id id ?_
      · rw [writeCb_conn]
      · intro hstatus hconnects
        rw [writeCb_conn, writeCb_connects, hstatus, hconnects]
        exact ⟨ite_self _, rfl⟩
  | timerCb t heap ret =>
      refine h.of_frame (by simp) rfl rfl rfl rfl id id ?_
      intro hstatus hconnects
      exact ⟨hstatus, (timerCb_connects t heap ret).trans hconnects⟩
  | runEnd =>
      have hlive : s.worker.pc.Live := .inr (.inr (.inl henabled))
      exact h.of_frame (by simp) rfl rfl rfl rfl (by simp [next]) (fun _ => hlive)
        fun hs hc => ⟨hs, hc⟩
  | closeCb | stopFlag | stopLoopClose =>
      exact h.of_frame (by simp) rfl rfl rfl rfl id id fun hs hc => ⟨hs, hc⟩

/-- A thread that is created without a socket in the process. -/
theorem initial (host : String) (port : Int) :
    SocketsKept (next (Sender.initial host port) .start) := by
  constructor <;> simp [Sender.next, Sender.initial, sockets, closes, Pc.Live]

end SocketsKept

variable {s : State} {e : Event}

/-- A thread that is created once leaves its loop once. -/
theorem looping_of_next (henabled : Enabled s e) (hstart : e ≠ .start)
    (h : Looping (next s e)) : Looping s ∧ e ≠ .exit ∧ e ≠ .stopJoin := by
  cases e with
  | start => exact absurd rfl hstart
  | enter => exact ⟨.inl henabled, by simp⟩
  | test => exact ⟨.inr (.inl henabled), by simp⟩
  | body ret => exact ⟨.inr (.inr (.inl henabled)), by simp⟩
  | runEnd => exact ⟨.inr (.inr (.inr henabled)), by simp⟩
  | exit =>
      have hpc : s.worker.pc = .exit := henabled
      rw [Looping, next] at h
      rcases exit_worker s with hsame | hsame <;> simp [hsame, hpc] at h
  | stopJoin => simp [Looping, next] at h
  | connectCb | writeCb | timerCb | closeCb | stopFlag | stopLoopClose => exact ⟨h, by simp⟩

theorem next_of_initial {host : String} {port : Int} (h : Enabled (initial host port) e) :
    e = .start := by
  cases e <;> simp_all [Enabled, initial]

/-- In every run of a worker that is started once in a fresh process, at every
head of the loop each socket created so far other than the latest has been
closed exactly once, and the latest is open and the one both pointers name. -/
theorem one_open_socket {host : String} {port : Int} {events : List Event}
    (hrun : machine.Runs (initial host port) events) (honce : events.count .start ≤ 1) :
    machine.Always (fun s => AtHead s → OneOpenSocket s) (initial host port) events := by
  cases events with
  | nil =>
      intro taken htaken hhead
      rw [List.prefix_nil.mp htaken] at hhead
      cases hhead
  | cons e rest =>
      obtain rfl := next_of_initial hrun.1.2
      rw [List.count_cons_self] at honce
      have hstarts : ∀ e ∈ rest, e ≠ .start := by
        rintro e he rfl
        have hpos := List.count_pos_iff.mpr he
        omega
      have hok := Machine.along_of_forall_mem (m := machine)
        (s := next (initial host port) .start) hstarts
      refine (Machine.always_cons _ _).mpr ⟨(fun hhead => nomatch hhead), ?_⟩
      refine Machine.always_along (m := machine) (I := fun s => Looping s → SocketsKept s) ?_ ?_
        (fun _ => .initial host port) hrun.2 hok
      · intro s e h henabled hstart hnext
        obtain ⟨hlooping, hexit, hjoin⟩ := looping_of_next henabled.2 hstart hnext
        exact (h hlooping).next henabled.2 hstart hexit hjoin
      · intro s h hhead
        exact (h (.inr (.inl hhead))).oneOpen (.inl hhead)

/-- Two reconnections: one after a refused connect, one after a failed write,
with the completions of the replaced sockets in between. -/
def threeSocketsRun : List Event :=
  [.start, .enter, .test, .body 0, .connectCb 0 1 (-111), .runEnd,
   .test, .body 0, .closeCb 1, .connectCb 0 2 0, .runEnd,
   .test, .body 0, .timerCb 3 (fun _ => 0) 0, .timerCb 3 (fun _ => 0) 0, .writeCb 5 2 (-32),
   .runEnd,
   .test, .body 0, .writeCb 7 2 (-125), .closeCb 2, .runEnd]

theorem one_open_socket_threeSocketsRun :
    machine.Always (fun s => AtHead s → OneOpenSocket s) (initial "10.0.0.2" 3011)
      threeSocketsRun :=
  one_open_socket (by decide) (by decide)

end L1Comm.Sender
