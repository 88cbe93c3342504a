import L1Comm.Worker
import L1Comm.Wire.L1

/-!
`l1_receive_worker.cc`: the worker thread that listens for L1, reads requests
and calls the user's function for each signal. The events are, as for the
sender, the calls of `Start` and `Stop`, the parts of `thread_task` between
two points where the other side may act, and the callbacks.

A read is one event: libuv asks for a buffer, fills in what has arrived and
hands it to `on_read`. The buffer is larger than what has arrived, and the
bytes behind are those the allocator left; an event carries all of them. The
end of a stream and other failures come with such a buffer or with a null one.
`conn_struct` has no counterpart here: what a client needs to know is in the
`data` member of its handle.
-/

namespace L1Comm.Receiver

open Uv

/-- What `alloc_buffer` provides, after libuv has read into it. libuv asks for
64 KiB, so a request fits. -/
structure Buffer where
  base : List WORD
  room : L1Request.size ≤ base.length
  deriving DecidableEq

/-- `*(L1Request *)(buf->base)`. -/
def Buffer.request (buf : Buffer) : L1Request :=
  .ofBytes fun i => buf.base.get ⟨i, Nat.lt_of_lt_of_le i.isLt buf.room⟩

abbrev Call := Uv.Call SockAddr Buffer

/-- The loop of `GetLoop`, the `data` members of the handles, how often the
user's function has been called, and the heartbeat numbers printed. -/
structure Process extends Runtime SockAddr Buffer where
  data : Addr → Ptr := fun _ => none
  invoked : Nat := 0
  reported : List DWORD := []

namespace Process

def call (p : Process) (c : Call) : Process := {p with toRuntime := p.toRuntime.call c}

def malloc (p : Process) : Process := {p with toRuntime := p.toRuntime.malloc}

variable (p : Process) (c : Call)

@[simp] theorem call_loop : (p.call c).loop = p.loop.after c := rfl

@[simp] theorem call_trace : (p.call c).trace = p.trace ++ [c] := rfl

@[simp] theorem call_fresh : (p.call c).fresh = p.fresh := rfl

@[simp] theorem call_data : (p.call c).data = p.data := rfl

@[simp] theorem call_invoked : (p.call c).invoked = p.invoked := rfl

@[simp] theorem malloc_loop : p.malloc.loop = p.loop := rfl

@[simp] theorem malloc_trace : p.malloc.trace = p.trace ++ [.malloc p.fresh] := rfl

@[simp] theorem malloc_fresh : p.malloc.fresh = p.fresh + 1 := rfl

@[simp] theorem malloc_data : p.malloc.data = p.data := rfl

@[simp] theorem malloc_invoked : p.malloc.invoked = p.invoked := rfl

end Process

/-! ## The callbacks -/

/-- The address of the buffer is the one that was `fresh`. -/
def allocBuffer (p : Process) : Process := p.malloc

def onClose (p : Process) (handle : Addr) : Process := p.call (.free (some handle))

/-- The part of `on_read` about the request: the user's function is called for
a signal, and other heartbeats are only reported. -/
def handleRequest (p : Process) (stream : Addr) (req : L1Request) : Process :=
  if p.data stream ≠ none ∧ req.getRequestType = .heartbeatAndSignal ∧
      req.getSignalType = .inPlace then
    {p with invoked := p.invoked + 1, reported := p.reported ++ [req.getHeartbeatSeqNum]}
  else if req.getRequestType = .heartbeat then
    {p with reported := p.reported ++ [req.getHeartbeatSeqNum]}
  else p

/-- The branch of `on_read` for a failure, which does not look at the buffer. -/
@[simp] def onReadError (p : Process) (stream : Addr) : Process := p.call (.close (some stream))

/-- A length other than that of a request is reported and makes no difference. -/
def onRead (p : Process) (stream : Addr) (nread : Int) (base : Addr) (buf : Buffer) : Process :=
  if nread < 0 then onReadError p stream
  else (handleRequest p stream buf.request).call (.free (some base))

section HandleRequest

variable (p : Process) (stream : Addr) (req : L1Request)

theorem handleRequest_toRuntime : (handleRequest p stream req).toRuntime = p.toRuntime := by
  unfold handleRequest
  split_ifs <;> rfl

@[simp] theorem handleRequest_loop : (handleRequest p stream req).loop = p.loop :=
  congrArg Runtime.loop (handleRequest_toRuntime p stream req)

@[simp] theorem handleRequest_trace : (handleRequest p stream req).trace = p.trace :=
  congrArg Runtime.trace (handleRequest_toRuntime p stream req)

@[simp] theorem handleRequest_fresh : (handleRequest p stream req).fresh = p.fresh :=
  congrArg Runtime.fresh (handleRequest_toRuntime p stream req)

@[simp] theorem handleRequest_data : (handleRequest p stream req).data = p.data := by
  unfold handleRequest
  split_ifs <;> rfl

end HandleRequest

/-- `ret` is what `uv_accept` returns. -/
def onConnection (p : Process) (server : Addr) (status ret : Int) : Process :=
  if status ≠ 0 then p.call (.close (some server))
  else
    let client := p.fresh
    let p := p.malloc.call (.tcpInit client)
    let p := p.call (.accept server client ret)
    if ret = 0 then
      {p with data := Function.update p.data client (p.data server)}.call (.readStart client)
    else p.call (.close (some client))

/-! ## The worker -/

/-- Where the worker thread is: not created, created, at the test of the loop,
inside `uv_run`, past the loop, returned. -/
inductive Pc where
  | idle | start | head | run | exit | done
  deriving DecidableEq, Repr

/-- One `L1ReceiveWorker` object, `callback` being the address of its `cb_`,
with the local variable of its thread. -/
structure Worker where
  host : String
  port : Int
  callback : Addr
  stop : Bool := false
  caller : Caller := .stopped
  pc : Pc := .idle
  server : Addr := 0

structure State extends Process where
  worker : Worker

/-- `thread_task` up to its loop; `ret` is what `uv_listen` returns. An error
is reported and the loop entered all the same. -/
def enter (s : State) (ret : Int) : State :=
  let server := s.fresh
  let p := s.toProcess.malloc.call (.tcpInit server)
  let p := p.call (.bind server ⟨s.worker.host, s.worker.port⟩)
  let p := p.call (.listen server ret)
  {toProcess := {p with data := Function.update p.data server (some s.worker.callback)}
   worker := {s.worker with server := server, pc := .head}}

/-- `thread_task` after its loop; where libuv aborts in the call, nothing follows. -/
def exit (s : State) : State where
  toProcess := s.toProcess.call (.close (some s.worker.server))
  worker := {s.worker with pc := .done}

/-! ## The machine -/

inductive Event where
  | start
  | enter (ret : Int)
  | test
  | connectionCb (server : Addr) (status ret : Int)
  | readCb (h : Addr) (nread : Int) (buf : Buffer)
  | readErrorCb (h : Addr) (nread : Int)
  | closeCb (h : Addr)
  | runEnd
  | exit
  | stopFlag
  | stopLoopClose
  | stopJoin
  deriving DecidableEq

/-- The steps that call libuv on the loop. The end of `thread_task` is about its
server, and `uv_thread_join` about neither. -/
def Event.usesLoop : Event → Bool
  | .start | .test | .exit | .stopFlag | .stopJoin => false
  | .enter _ | .connectionCb .. | .readCb .. | .readErrorCb .. | .closeCb _ | .runEnd
  | .stopLoopClose => true

/-- When an event can happen. Callbacks run only inside `uv_run`: connections
are reported for a socket that listens, data for one that reads, up to the
size of the buffer, and so are failures, with a buffer or without one. -/
def Enabled (s : State) : Event → Prop
  | .start => s.worker.pc = .idle
  | .enter _ => s.worker.pc = .start
  | .test => s.worker.pc = .head
  | .connectionCb server _ _ => s.worker.pc = .run ∧ s.loop.listening server = true
  | .readCb h nread buf =>
      s.worker.pc = .run ∧ s.loop.reading h = true ∧ nread ≤ buf.base.length
  | .readErrorCb h nread => s.worker.pc = .run ∧ s.loop.reading h = true ∧ nread < 0
  | .closeCb h => s.worker.pc = .run ∧ s.loop.stage h = .closing
  | .runEnd => s.worker.pc = .run
  | .exit => s.worker.pc = .exit
  | .stopFlag => s.worker.caller = .started
  | .stopLoopClose => s.worker.caller = .flagged
  | .stopJoin => s.worker.caller = .joining ∧ s.worker.pc = .done

def next (s : State) : Event → State
  | .start => {s with worker.stop := false, worker.caller := .started, worker.pc := .start}
  | .enter ret => enter s ret
  | .test => {s with worker.pc := if s.worker.stop = false then .run else .exit}
  | .connectionCb server status ret =>
      {s with
        toProcess := onConnection (s.toProcess.call (.connectionCb server status))
          server status ret}
  | .readCb h nread buf =>
      let base := s.fresh
      {s with
        toProcess := onRead ((allocBuffer s.toProcess).call (.readCb h nread buf))
          h nread base buf}
  | .readErrorCb h nread =>
      {s with toProcess := onReadError (s.toProcess.call (.readErrorCb h nread)) h}
  | .closeCb h => {s with toProcess := onClose (s.toProcess.call (.closeCb h)) h}
  | .runEnd => {s with worker.pc := .head}
  | .exit => exit s
  | .stopFlag => {s with worker.stop := true, worker.caller := .flagged}
  | .stopLoopClose =>
      {s with
        toProcess := s.toProcess.call (.loopClose (loopCloseRet s.loop))
        worker.caller := .joining}
  | .stopJoin => {s with worker.caller := .stopped, worker.pc := .idle}

/-- One worker object in a process of its own. -/
def machine : Machine State Event where
  enabled s e := s.loop.Permits e.usesLoop ∧ Enabled s e
  next := next

theorem not_enabled_of_aborted (s : State) (e : Event) (h : s.loop.fate = .aborted) :
    ¬ machine.enabled s e :=
  fun henabled => henabled.1.not_aborted h

/-- A fresh process with a worker that has not been started. -/
def initial (host : String) (port : Int) (callback : Addr) : State where
  fresh := callback + 1
  worker := {host := host, port := port, callback := callback}

instance (s : State) (e : Event) : Decidable (Enabled s e) := by
  cases e <;> dsimp only [Enabled] <;> infer_instance

instance (s : State) (e : Event) : Decidable (machine.enabled s e) :=
  inferInstanceAs (Decidable (_ ∧ _))

end L1Comm.Receiver
