import L1Comm.Receiver.Invariant
import L1Comm.Uv.History

/-!
What a step of the receiver adds to the trace, and what it makes of the loop
and of the allocator.
-/

namespace L1Comm.Receiver

open Uv

variable (s : State) (e : Event)

/-- The entries that a step adds to the trace. -/
def calls : Event → List Call
  | .enter ret =>
      [.malloc s.fresh, .tcpInit s.fresh, .bind s.fresh ⟨s.worker.host, s.worker.port⟩,
        .listen s.fresh ret]
  | .connectionCb server status ret =>
      .connectionCb server status ::
        if status ≠ 0 then [.close (some server)]
        else [.malloc s.fresh, .tcpInit s.fresh, .accept server s.fresh ret,
          if ret = 0 then .readStart s.fresh else .close (some s.fresh)]
  | .readCb h nread buf =>
      [.malloc s.fresh, .readCb h nread buf,
        if nread < 0 then .close (some h) else .free (some s.fresh)]
  | .readErrorCb h nread => [.readErrorCb h nread, .close (some h)]
  | .closeCb h => [.closeCb h, .free (some h)]
  | .exit => [.close (some s.worker.server)]
  | .stopLoopClose => [.loopClose (loopCloseRet s.loop)]
  | .start | .test | .runEnd | .stopFlag | .stopJoin => []

theorem trace_next : (next s e).trace = s.trace ++ calls s e := by
  cases e with
  | enter ret => simp [next, enter, calls]
  | connectionCb server status ret =>
      by_cases hstatus : status = 0
      · by_cases hret : ret = 0 <;> simp [next, onConnection, calls, hstatus, hret]
      · simp [next, onConnection, calls, hstatus]
  | readCb h nread buf =>
      by_cases hnread : nread < 0 <;> simp [next, allocBuffer, onRead, calls, hnread]
  | readErrorCb h nread => simp [next, calls]
  | closeCb h => simp [next, onClose, calls]
  | exit => rfl
  | stopLoopClose => rfl
  | start | test | runEnd | stopFlag | stopJoin => exact (List.append_nil _).symm

theorem fresh_le_next : s.fresh ≤ (next s e).fresh := by
  cases e with
  | connectionCb server status ret =>
      by_cases hstatus : status = 0
      · by_cases hret : ret = 0 <;> simp [next, onConnection, hstatus, hret]
      · simp [next, onConnection, hstatus]
  | readCb h nread buf =>
      by_cases hnread : nread < 0 <;> simp [next, allocBuffer, onRead, hnread]
  | enter ret => exact Nat.le_succ _
  | _ => exact Nat.le_refl _

variable {s}

theorem loop_next (h : s.Replayed) : (next s e).loop = protocol.after s.loop (calls s e) :=
  h.loop_eq (replayed_next h e) (trace_next s e)

end L1Comm.Receiver
