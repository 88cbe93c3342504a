import L1Comm.Receiver.Buffers
import L1Comm.Receiver.Stop
import L1Comm.Sender.Payloads
import L1Comm.Sender.Stop

/-!
What is asked of both workers alike: that memory is given back, and that `Stop`
leaves nothing behind. Each theorem says of a run of a receiver and of a run of
a sender when they do, and is followed by the runs on which they fail.
-/

namespace L1Comm

open Uv

/-! ## Memory -/

/-- The buffers of a receiver are each given back once, and the payloads and
requests of a sender each released once unless pending, if and only if no read
reports the end of a stream or an error, and `uv_write` accepts every heartbeat. -/
theorem memory_returned_iff {host host' : String} {port port' : Int} {callback : Addr}
    {events : List Receiver.Event} {events' : List Sender.Event}
    (hreceiver : Receiver.machine.Runs (Receiver.initial host port callback) events)
    (hsender : Sender.machine.Runs (Sender.initial host' port') events') :
    ((Receiver.machine.recording Receiver.buffers).Always Receiver.BuffersReturned
          (Receiver.initial host port callback, []) events ↔
        Receiver.machine.Along (fun _ => Receiver.DeliversData)
          (Receiver.initial host port callback) events) ∧
      ((Sender.machine.recording Sender.allocated).Always Sender.PairsReturned
          (Sender.initial host' port', []) events' ↔
        Sender.machine.Along (fun _ => Sender.WriteAccepted)
          (Sender.initial host' port') events') :=
  ⟨Receiver.buffers_returned_iff hreceiver, Sender.payloads_returned_iff hsender⟩

/-- A client sends a request and closes the connection. -/
def Receiver.disconnectRun : List Receiver.Event :=
  [.start, .enter 0, .test, .connectionCb 1 0 0, .readCb 2 8 (flagged 3),
   .readCb 2 (-4095) (flagged 0)]

/-- The connection is established, and a heartbeat is refused with `EPIPE`. -/
def Sender.refusedRun : List Sender.Event :=
  [.start, .enter, .test, .body 0, .connectCb 0 1 0, .timerCb 2 (fun _ => 0) 0,
   .timerCb 2 (fun _ => 0) (-32)]

theorem memory_returned_iff_disconnectRun :
    ((Receiver.machine.recording Receiver.buffers).Always Receiver.BuffersReturned
          (Receiver.initial "10.0.0.1" 3001 0, []) Receiver.disconnectRun ↔
        Receiver.machine.Along (fun _ => Receiver.DeliversData)
          (Receiver.initial "10.0.0.1" 3001 0) Receiver.disconnectRun) ∧
      ((Sender.machine.recording Sender.allocated).Always Sender.PairsReturned
          (Sender.initial "10.0.0.2" 3011, []) Sender.refusedRun ↔
        Sender.machine.Along (fun _ => Sender.WriteAccepted)
          (Sender.initial "10.0.0.2" 3011) Sender.refusedRun) :=
  memory_returned_iff (by decide) (by decide)

/-- The buffer of the last read is lost, and so are the payload and the request
of the heartbeat that was refused. -/
theorem memory_lost :
    Receiver.machine.Runs (Receiver.initial "10.0.0.1" 3001 0) Receiver.disconnectRun ∧
      ¬ (Receiver.machine.recording Receiver.buffers).Always Receiver.BuffersReturned
        (Receiver.initial "10.0.0.1" 3001 0, []) Receiver.disconnectRun ∧
      Sender.machine.Runs (Sender.initial "10.0.0.2" 3011) Sender.refusedRun ∧
      ¬ (Sender.machine.recording Sender.allocated).Always Sender.PairsReturned
        (Sender.initial "10.0.0.2" 3011, []) Sender.refusedRun := by
  refine ⟨by decide, fun h => ?_, by decide, fun h => ?_⟩
  · have honce := h.last 4 (by decide)
    exact absurd honce (by decide)
  · have hpair := h.last (5, 6) (by decide)
    have hdone : ¬ Sender.InFlight (Sender.machine.after (Sender.initial "10.0.0.2" 3011)
        Sender.refusedRun) 6 := by
      unfold Sender.InFlight
      decide
    exact absurd (hpair.settled hdone).1 (by decide)

/-! ## Stop -/

/-- No `Stop` is complete. That of a receiver closes the loop too early or in
vain, and if it returns it leaves the server in the loop; that of a sender
closes the loop likewise and does not return. -/
theorem stops_never_complete {host host' : String} {port port' : Int} {callback : Addr}
    {events : List Receiver.Event} {events' : List Sender.Event}
    (hreceiver : Receiver.machine.Runs (Receiver.initial host port callback) events)
    (hsender : Sender.machine.Runs (Sender.initial host' port') events') :
    Receiver.machine.Along (fun s e => e.EndsStop → ¬ Receiver.StopComplete s e)
        (Receiver.initial host port callback) events ∧
      Sender.machine.Along (fun s e => (e.EndsStop → ¬ Sender.StopComplete s e) ∧ e ≠ .stopJoin)
        (Sender.initial host' port') events' :=
  ⟨Receiver.stop_never_complete hreceiver, Sender.stop_never_returns hsender⟩

/-- One turn of the loop, and `Stop`, whose caller is the faster of the two threads. -/
def Receiver.stoppedRun : List Receiver.Event :=
  [.start, .enter 0, .test, .runEnd, .stopFlag, .stopLoopClose, .test, .exit, .stopJoin]

def Sender.stoppedRun : List Sender.Event :=
  [.start, .enter, .test, .body 0, .connectCb 0 1 0, .runEnd, .stopFlag, .stopLoopClose,
   .test, .exit]

theorem stops_never_complete_stoppedRun :
    Receiver.machine.Along (fun s e => e.EndsStop → ¬ Receiver.StopComplete s e)
        (Receiver.initial "10.0.0.1" 3001 0) Receiver.stoppedRun ∧
      Sender.machine.Along (fun s e => (e.EndsStop → ¬ Sender.StopComplete s e) ∧ e ≠ .stopJoin)
        (Sender.initial "10.0.0.2" 3011) Sender.stoppedRun :=
  stops_never_complete (by decide) (by decide)

/-- `uv_loop_close` is called while the thread is in its loop, and fails. The
`Stop` of the receiver returns with the server still in the loop; in that of the
sender libuv aborts. -/
theorem stop_leaves_handles :
    Receiver.machine.Runs (Receiver.initial "10.0.0.1" 3001 0) Receiver.stoppedRun ∧
      ¬ Receiver.machine.Along Receiver.StopComplete
        (Receiver.initial "10.0.0.1" 3001 0) Receiver.stoppedRun ∧
      (Receiver.machine.after (Receiver.initial "10.0.0.1" 3001 0)
        Receiver.stoppedRun).loop.queue = [1] ∧
      Sender.machine.Runs (Sender.initial "10.0.0.2" 3011) Sender.stoppedRun ∧
      ¬ Sender.machine.Along Sender.StopComplete
        (Sender.initial "10.0.0.2" 3011) Sender.stoppedRun ∧
      (Sender.machine.after (Sender.initial "10.0.0.2" 3011)
        Sender.stoppedRun).loop.fate = .aborted := by
  refine ⟨by decide, fun h => ?_, by decide, by decide, fun h => ?_, by decide⟩
  · have hlast := ((Machine.along_append (Receiver.stoppedRun.take 5) _).mp h).2.1
    exact absurd hlast.1 (by decide)
  · have hlast := ((Machine.along_append (Sender.stoppedRun.take 7) _).mp h).2.1
    exact absurd hlast.1 (by decide)

end L1Comm
