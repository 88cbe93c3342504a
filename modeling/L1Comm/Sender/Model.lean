import L1Comm.Worker
import L1Comm.Wire.L1
import L1Comm.Wire.NumGenerator

/-!
`l1_send_worker.cc`: the worker thread that keeps one connection to L1 and
sends a heartbeat on it. The connection state is the global `conn_struct`; it,
the loop, the heap and the number generator are shared by the whole process
and make up `Process`. What belongs to one `L1SendWorker` object and its
thread is a `Worker`.

The events of the model are the steps that can interleave: the calls of
`Start` and `Stop` in the caller's thread, the parts of `thread_task` between
two points where the other thread or libuv may act, and the callbacks libuv
runs inside `uv_run`. What the environment decides (return codes, statuses,
the content of fresh memory, which callback is next) is an argument of the
event. `Start` is called on a worker whose previous thread, if any, has been
joined by `Stop`.
-/

namespace L1Comm.Sender

open Uv

/-- The values of `conn_struct.status`: `-1`, `0` and `1`. -/
inductive Status where
  | disconnect | connecting | connected
  deriving DecidableEq, Repr

/-- The bytes of an `L1Response`. -/
abbrev Payload := Fin L1Response.size → WORD

abbrev Call := Uv.Call SockAddr Payload

structure ConnStruct where
  socket : Ptr := none
  connect : Ptr := none
  dest : Option SockAddr := none
  timer : Ptr := none
  status : Status := .disconnect

/-- The state all sender objects of a process share: the global `conn_struct`,
`num_` of `NumGenerator<unsigned short>`, the `data` members of the requests
and the loop of `GetLoop`. -/
structure Process extends Runtime SockAddr Payload where
  conn : ConnStruct := {}
  num : Nat := 0
  data : Addr → Ptr := fun _ => none

namespace Process

def call (p : Process) (c : Call) : Process := {p with toRuntime := p.toRuntime.call c}

def malloc (p : Process) : Process := {p with toRuntime := p.toRuntime.malloc}

variable (p : Process) (c : Call)

@[simp] theorem call_loop : (p.call c).loop = p.loop.after c := rfl

@[simp] theorem call_trace : (p.call c).trace = p.trace ++ [c] := rfl

@[simp] theorem call_fresh : (p.call c).fresh = p.fresh := rfl

@[simp] theorem call_conn : (p.call c).conn = p.conn := rfl

@[simp] theorem call_num : (p.call c).num = p.num := rfl

@[simp] theorem call_data : (p.call c).data = p.data := rfl

@[simp] theorem malloc_loop : p.malloc.loop = p.loop := rfl

@[simp] theorem malloc_trace : p.malloc.trace = p.trace ++ [.malloc p.fresh] := rfl

@[simp] theorem malloc_fresh : p.malloc.fresh = p.fresh + 1 := rfl

@[simp] theorem malloc_conn : p.malloc.conn = p.conn := rfl

@[simp] theorem malloc_num : p.malloc.num = p.num := rfl

@[simp] theorem malloc_data : p.malloc.data = p.data := rfl

end Process

/-- `std::numeric_limits<unsigned short>::max()`. -/
def numMax : Nat := 65535

namespace Process

/-- `uv_close` under a null check. -/
def closeUnlessNull (p : Process) (socket : Ptr) : Process :=
  match socket with
  | none => p
  | some h => p.call (.close (some h))

/-- The timer of `conn_struct` is stopped and its memory released, under a
null check; the pointer stays. -/
def dropTimer (p : Process) : Process :=
  match p.conn.timer with
  | none => p
  | some timer => (p.call (.timerStop (some timer))).call (.free (some timer))

section Fields

variable (p : Process) (socket : Ptr) (a : Addr)

@[simp] theorem closeUnlessNull_conn : (p.closeUnlessNull socket).conn = p.conn := by
  cases socket <;> rfl

@[simp] theorem closeUnlessNull_num : (p.closeUnlessNull socket).num = p.num := by
  cases socket <;> rfl

@[simp] theorem closeUnlessNull_data : (p.closeUnlessNull socket).data = p.data := by
  cases socket <;> rfl

@[simp] theorem closeUnlessNull_fresh : (p.closeUnlessNull socket).fresh = p.fresh := by
  cases socket <;> rfl

@[simp] theorem closeUnlessNull_stage : (p.closeUnlessNull socket).loop.stage a =
    Loop.stageAfter p.loop.stage a (.close socket : Call) := by
  cases socket <;> simp [closeUnlessNull]

@[simp] theorem closeUnlessNull_active : (p.closeUnlessNull socket).loop.active a =
    Loop.activeAfter p.loop.active a (.close socket : Call) := by
  cases socket <;> simp [closeUnlessNull]

@[simp] theorem closeUnlessNull_established :
    (p.closeUnlessNull socket).loop.established = p.loop.established := by
  cases socket <;> rfl

@[simp] theorem closeUnlessNull_peer : (p.closeUnlessNull socket).loop.peer = p.loop.peer := by
  cases socket <;> rfl

@[simp] theorem closeUnlessNull_connects :
    (p.closeUnlessNull socket).loop.connects = p.loop.connects := by
  cases socket <;> rfl

@[simp] theorem closeUnlessNull_writes :
    (p.closeUnlessNull socket).loop.writes = p.loop.writes := by
  cases socket <;> rfl

theorem closeUnlessNull_fate (hopen : ∀ h, socket = some h → p.loop.stage h = .opened) :
    (p.closeUnlessNull socket).loop.fate = p.loop.fate := by
  cases socket with
  | none => rfl
  | some h => simp [closeUnlessNull, hopen h rfl]

@[simp] theorem closeUnlessNull_trace : (p.closeUnlessNull socket).trace =
    p.trace ++ socket.toList.map (fun h => .close (some h)) := by
  cases socket <;> simp [closeUnlessNull]

@[simp] theorem dropTimer_conn : p.dropTimer.conn = p.conn := by
  unfold dropTimer; split <;> rfl

@[simp] theorem dropTimer_num : p.dropTimer.num = p.num := by
  unfold dropTimer; split <;> rfl

@[simp] theorem dropTimer_data : p.dropTimer.data = p.data := by
  unfold dropTimer; split <;> rfl

@[simp] theorem dropTimer_fresh : p.dropTimer.fresh = p.fresh := by
  unfold dropTimer; split <;> rfl

@[simp] theorem dropTimer_loop : p.dropTimer.loop =
    (p.loop.after (.timerStop p.conn.timer : Call)).after (.free p.conn.timer : Call) := by
  unfold dropTimer
  split
  · simp_all; rfl
  · simp_all

@[simp] theorem dropTimer_trace : p.dropTimer.trace =
    p.trace ++ p.conn.timer.toList.flatMap
      (fun t => [.timerStop (some t), .free (some t)]) := by
  unfold dropTimer; split <;> simp_all

end Fields

end Process

/-! ## The callbacks -/

def onClose (p : Process) (handle : Addr) : Process := p.call (.free (some handle))

def sendHeartbeatCb (p : Process) (req : Addr) (status : Int) : Process :=
  let p :=
    if status < 0 then
      {p with conn.status := .disconnect}.call (.timerStop p.conn.timer)
    else p
  (p.call (.free (p.data req))).call (.free (some req))

/-- `heap` is what `malloc` leaves in the payload, `ret` what `uv_write`
returns; the source does not look at it. -/
def onTimer (p : Process) (heap : Payload) (ret : Int) : Process :=
  let socket := p.conn.socket
  let payload := p.fresh
  let p := p.malloc
  let (num, next) := NumGenerator.getNum numMax p.num
  let p := {p with num := next}
  let response := {L1Response.ofBytes heap with dbw0 := BitVec.ofNat 16 num}
  let req := p.fresh
  let p := p.malloc
  let p := {p with data := Function.update p.data req (some payload)}
  p.call (.write req socket response.toBytes ret)

def onConnect (p : Process) (status : Int) : Process :=
  if status < 0 then {p with conn.status := .disconnect}
  else
    let p := {p with conn.status := .connected}
    let p := p.dropTimer
    let timer := p.fresh
    let p := {p.malloc with conn.timer := some timer}
    (p.call (.timerInit timer)).call (.timerStart timer)

/-! ## The worker -/

/-- Where the worker thread is: not created, created, at the test of the loop,
past the test, inside `uv_run`, past the loop, returned. -/
inductive Pc where
  | idle | start | head | body | run | exit | done
  deriving DecidableEq, Repr

/-- One `L1SendWorker` object with the local variables of its thread. -/
structure Worker where
  host : String
  port : Int
  stop : Bool := false
  caller : Caller := .stopped
  pc : Pc := .idle
  connect : Addr := 0
  socket : Ptr := none
  dest : SockAddr := ⟨"", 0⟩

/-- The shared state as one worker sees it, with the worker. -/
structure State extends Process where
  worker : Worker

/-- `thread_task` up to its loop. -/
def enter (s : State) : State :=
  let connect := s.fresh
  let dest : SockAddr := ⟨s.worker.host, s.worker.port⟩
  {toProcess := {s.malloc with conn.dest := some dest}
   worker := {s.worker with connect := connect, socket := none, dest := dest, pc := .head}}

/-- The branch of the loop taken when the status is `-1`; `ret` is what
`uv_tcp_connect` returns. The source does not look at it. -/
def reconnect (s : State) (ret : Int) : State :=
  let p := {s.toProcess with conn.status := .connecting}
  let p := p.closeUnlessNull s.worker.socket
  let socket := p.fresh
  let p := p.malloc.call (.tcpInit socket)
  let p := {p with conn.socket := some socket, conn.connect := some s.worker.connect}
  {toProcess := p.call (.connect s.worker.connect socket s.worker.dest ret)
   worker := {s.worker with socket := some socket}}

/-- The body of the loop up to `uv_run`. -/
def body (s : State) (ret : Int) : State :=
  let s := if s.conn.status = .disconnect then reconnect s ret else s
  {s with worker.pc := .run}

/-- `thread_task` after its loop, as far as libuv lets it come. -/
def exit (s : State) : State :=
  let p := s.toProcess.call (.close (some s.worker.connect))
  if p.loop.fate = .aborted then {s with toProcess := p}
  else
    let p := p.call (.close s.worker.socket)
    if p.loop.fate = .aborted then {s with toProcess := p}
    else {toProcess := p.dropTimer, worker := {s.worker with pc := .done}}

/-! ## The machine -/

inductive Event where
  | start
  | enter
  | test
  | body (ret : Int)
  | connectCb (req h : Addr) (status : Int)
  | writeCb (req h : Addr) (status : Int)
  | timerCb (timer : Addr) (heap : Payload) (ret : Int)
  | closeCb (h : Addr)
  | runEnd
  | exit
  | stopFlag
  | stopLoopClose
  | stopJoin
  deriving DecidableEq

/-- The steps that call libuv on the loop. The end of `thread_task` is about
its handles, and `uv_ip4_addr` and `uv_thread_join` about neither. -/
def Event.usesLoop : Event → Bool
  | .start | .enter | .test | .exit | .stopFlag | .stopJoin => false
  | .body _ | .connectCb .. | .writeCb .. | .timerCb .. | .closeCb _ | .runEnd
  | .stopLoopClose => true

/-- Whether libuv may report this status for a request of the handle: after
`uv_close` only failures are reported. -/
def Reports (l : Loop SockAddr) (h : Addr) (status : Int) : Prop :=
  l.stage h = .opened ∨ status < 0

instance (l : Loop SockAddr) (h : Addr) (status : Int) : Decidable (Reports l h status) :=
  inferInstanceAs (Decidable (_ ∨ _))

/-- When an event can happen. libuv runs callbacks only inside `uv_run`, and a
write completes only after the connect of its socket has; the close callback
comes after all others of the handle. -/
def Enabled (s : State) : Event → Prop
  | .start => s.worker.pc = .idle
  | .enter => s.worker.pc = .start
  | .test => s.worker.pc = .head
  | .body _ => s.worker.pc = .body
  | .connectCb req h status =>
      s.worker.pc = .run ∧ ⟨req, h⟩ ∈ s.loop.connects ∧
        Reports s.loop h status
  | .writeCb req h status =>
      s.worker.pc = .run ∧ ⟨req, h⟩ ∈ s.loop.writes ∧
        (∀ c ∈ s.loop.connects, c.handle ≠ h) ∧
        Reports s.loop h status
  | .timerCb timer _ _ => s.worker.pc = .run ∧ s.loop.active timer = true
  | .closeCb h =>
      s.worker.pc = .run ∧ s.loop.stage h = .closing ∧ s.loop.Quiet h
  | .runEnd => s.worker.pc = .run
  | .exit => s.worker.pc = .exit
  | .stopFlag => s.worker.caller = .started
  | .stopLoopClose => s.worker.caller = .flagged
  | .stopJoin => s.worker.caller = .joining ∧ s.worker.pc = .done

def next (s : State) : Event → State
  | .start => {s with worker.stop := false, worker.caller := .started, worker.pc := .start}
  | .enter => enter s
  | .test => {s with worker.pc := if s.worker.stop = false then .body else .exit}
  | .body ret => body s ret
  | .connectCb req h status =>
      {s with toProcess := onConnect (s.toProcess.call (.connectCb req h status)) status}
  | .writeCb req h status =>
      {s with toProcess := sendHeartbeatCb (s.toProcess.call (.writeCb req h status)) req status}
  | .timerCb timer heap ret =>
      {s with toProcess := onTimer (s.toProcess.call (.timerCb timer)) heap ret}
  | .closeCb h => {s with toProcess := onClose (s.toProcess.call (.closeCb h)) h}
  | .runEnd => {s with worker.pc := .head}
  | .exit => exit s
  | .stopFlag => {s with worker.stop := true, worker.caller := .flagged}
  | .stopLoopClose =>
      {s with
        toProcess := s.toProcess.call (.loopClose (loopCloseRet s.loop))
        worker.caller := .joining}
  | .stopJoin => {s with worker.caller := .stopped, worker.pc := .idle}

/-- One worker object in a process of its own. -/
def machine : Machine State Event where
  enabled s e := s.loop.Permits e.usesLoop ∧ Enabled s e
  next := next

theorem not_enabled_of_aborted (s : State) (e : Event) (h : s.loop.fate = .aborted) :
    ¬ machine.enabled s e :=
  fun henabled => henabled.1.not_aborted h

/-- A fresh process with a worker that has not been started. -/
def initial (host : String) (port : Int) : State where
  worker := {host := host, port := port}

instance (s : State) (e : Event) : Decidable (Enabled s e) := by
  cases e <;> dsimp only [Enabled] <;> infer_instance

instance (s : State) (e : Event) : Decidable (machine.enabled s e) :=
  inferInstanceAs (Decidable (_ ∧ _))

end L1Comm.Sender
