import L1Comm.Machine.Recording
import L1Comm.Receiver.Clients

/-!
What `onRead` makes of the buffer it is given: how much of it decides, and
whether it is given back. The length is compared with that of a request only
to print a warning, so a short read is judged by what the allocator left behind
the bytes received; and the branch for a negative `nread` returns before the
`free` at the end.
-/

namespace L1Comm.Receiver

open Uv

/-! ## The bytes that decide -/

/-- Buffers with the same bytes received lead to the same decision about the
user's function and to the same report. -/
def UsesOnlyReceived (p : Process) (stream : Addr) (nread : Nat) : Prop :=
  ∀ (base base' : Addr) (buf buf' : Buffer),
    nread ≤ buf.base.length → nread ≤ buf'.base.length →
    buf.base.take nread = buf'.base.take nread →
    (onRead p stream nread base buf).invoked = (onRead p stream nread base' buf').invoked ∧
      (onRead p stream nread base buf).reported = (onRead p stream nread base' buf').reported

section HandleRequest

variable {p : Process} {stream : Addr} {req req' : L1Request}

/-- The decision and the report depend on the three values the getters return. -/
theorem handleRequest_congr (hnum : req.getHeartbeatSeqNum = req'.getHeartbeatSeqNum)
    (hrequest : req.getRequestType = req'.getRequestType)
    (hsignal : req.getSignalType = req'.getSignalType) :
    handleRequest p stream req = handleRequest p stream req' := by
  simp only [handleRequest, hnum, hrequest, hsignal]

theorem handleRequest_heartbeat (hrequest : req.getRequestType = .heartbeat) :
    handleRequest p stream req =
      {p with reported := p.reported ++ [req.getHeartbeatSeqNum]} := by
  simp only [handleRequest, hrequest, reduceCtorEq, false_and, and_false, if_false, if_true]

/-- A signal without its place is passed over. -/
theorem handleRequest_notReady (hrequest : req.getRequestType = .heartbeatAndSignal)
    (hsignal : req.getSignalType = .notReady) : handleRequest p stream req = p := by
  simp only [handleRequest, hrequest, hsignal, reduceCtorEq, and_false, if_false]

end HandleRequest

section Bytes

variable {buf buf' : Buffer} {n : Nat}

theorem byte_eq (h : buf.base.take n = buf'.base.take n) (i : Fin L1Request.size)
    (hi : i.val < n) :
    buf.base.get ⟨i, Nat.lt_of_lt_of_le i.isLt buf.room⟩ =
      buf'.base.get ⟨i, Nat.lt_of_lt_of_le i.isLt buf'.room⟩ := by
  have hlt := Nat.lt_of_lt_of_le i.isLt buf.room
  have hlt' := Nat.lt_of_lt_of_le i.isLt buf'.room
  have hget := congrArg (fun bytes => bytes[i.val]?) h
  simpa [List.getElem?_take_of_lt hi, List.getElem?_eq_getElem, hlt, hlt'] using hget

/-- The number is in the bytes 0 and 1, the two flags are in byte 2. -/
theorem getters_eq (h : buf.base.take n = buf'.base.take n) (hn : 3 ≤ n) :
    buf.request.getHeartbeatSeqNum = buf'.request.getHeartbeatSeqNum ∧
      buf.request.getRequestType = buf'.request.getRequestType ∧
      buf.request.getSignalType = buf'.request.getSignalType := by
  have hzero := byte_eq h 0 (show 0 < n by omega)
  have hone := byte_eq h 1 (show 1 < n by omega)
  have htwo := byte_eq h 2 (show 2 < n by omega)
  refine ⟨?_, ?_, ?_⟩
  · simp only [Buffer.request, L1Request.getHeartbeatSeqNum, L1Request.ofBytes, hzero, hone]
  · simp only [Buffer.request, L1Request.getRequestType, L1Request.ofBytes,
      DWORD.getLsbD_ofBytes, Nat.zero_lt_succ, htwo]
  · simp only [Buffer.request, L1Request.getSignalType, L1Request.ofBytes,
      DWORD.getLsbD_ofBytes, Nat.one_lt_succ_succ, htwo]

end Bytes

/-- A buffer in which all bytes but one are zero. -/
def flagged (flags : WORD) : Buffer where
  base := [0, 0, flags, 0, 0, 0, 0, 0]
  room := le_rfl

/-- Up to two bytes received leave the flags to the allocator, and with them
whether the read is reported. -/
theorem not_usesOnlyReceived {p : Process} {stream : Addr} {nread : Nat} (hshort : nread < 3) :
    ¬ UsesOnlyReceived p stream nread := by
  intro h
  have hroom (flags : WORD) : nread ≤ (flagged flags).base.length :=
    Nat.le_trans (Nat.le_of_lt hshort) (by simp [flagged])
  have htake : (flagged 0).base.take nread = (flagged 1).base.take nread := by
    obtain rfl | rfl | rfl : nread = 0 ∨ nread = 1 ∨ nread = 2 := by omega
    all_goals rfl
  have hreported := (h 0 0 (flagged 0) (flagged 1) (hroom 0) (hroom 1) htake).2
  have hheartbeat : (flagged 0).request.getRequestType = .heartbeat := by decide
  have hsignal : (flagged 1).request.getRequestType = .heartbeatAndSignal := by decide
  have hplace : (flagged 1).request.getSignalType = .notReady := by decide
  have hneg : ¬ (nread : Int) < 0 := by omega
  simp only [onRead, if_neg hneg, handleRequest_heartbeat hheartbeat,
    handleRequest_notReady hsignal hplace] at hreported
  exact List.cons_ne_nil _ _ (List.append_right_eq_self.mp hreported)

/-- What has been received decides if and only if it reaches to the flags. -/
theorem uses_only_received_iff (p : Process) (stream : Addr) (nread : Nat) :
    UsesOnlyReceived p stream nread ↔ 3 ≤ nread := by
  constructor
  · intro h
    by_contra hshort
    exact not_usesOnlyReceived (Nat.lt_of_not_le hshort) h
  · intro hn base base' buf buf' _ _ htake
    obtain ⟨hnum, hrequest, hsignal⟩ := getters_eq htake hn
    have hneg : ¬ (nread : Int) < 0 := by omega
    simp only [onRead, if_neg hneg, handleRequest_congr hnum hrequest hsignal]
    exact ⟨rfl, rfl⟩

/-- A client is connected, and libuv delivers a read of no bytes. -/
def emptyRead (flags : WORD) : List Event :=
  [.start, .enter 0, .test, .connectionCb 1 0 0, .readCb 2 0 (flagged flags)]

/-- The user's function is called or not by what `malloc` returned. -/
theorem empty_read_calls_back :
    (∀ flags : WORD, machine.Runs (initial "10.0.0.1" 3001 0) (emptyRead flags)) ∧
      (machine.after (initial "10.0.0.1" 3001 0) (emptyRead 0)).invoked = 0 ∧
      (machine.after (initial "10.0.0.1" 3001 0) (emptyRead 3)).invoked = 1 ∧
      ¬ UsesOnlyReceived
        (machine.after (initial "10.0.0.1" 3001 0) (emptyRead 0).dropLast).toProcess 2 0 := by
  refine ⟨fun flags => ?_, by decide, by decide, not_usesOnlyReceived (by decide)⟩
  exact (Machine.along_append (emptyRead 0).dropLast _).mpr
    ⟨by decide, ⟨.inl rfl, rfl, rfl, by simp [flagged]⟩, trivial⟩

/-! ## The ledger -/

/-- The buffers that a step has from `allocBuffer`. -/
def buffers (s : State) : Event → List Addr
  | .readCb .. => [s.fresh]
  | _ => []

/-- Every buffer handed out has been given back once. -/
def BuffersReturned (s : State × List Addr) : Prop :=
  ∀ base ∈ s.2, frees s.1.trace base = 1

/-- No negative `nread` is delivered with a buffer. -/
def DeliversData : Event → Prop
  | .readCb _ nread _ => 0 ≤ nread
  | _ => True

/-- The buffers of a run whose reads with a buffer all deliver data: they are no
handles, and all that has happened to them is their release. -/
structure Returned (s : State × List Addr) : Prop where
  clients : Clients s.1
  lt : ∀ base ∈ s.2, base < s.1.fresh
  server : ∀ base ∈ s.2, base ≠ s.1.worker.server
  history : ∀ base ∈ s.2, Uv.history base s.1.trace = [.free (some base)]

namespace Returned

variable {s : State × List Addr} {e : Event} {base : Addr}

theorem not_client (h : Returned s) (hbase : base ∈ s.2) : ¬ Client s.1.trace base := by
  intro hclient
  obtain ⟨stage, hin⟩ := h.clients.inStage base hclient
  have hhistory := h.history base hbase
  rw [hin.history] at hhistory
  cases stage <;> simp [ClientStage.history] at hhistory

theorem stage (h : Returned s) (hbase : base ∈ s.2) :
    s.1.loop.stage base = .uninitialised := by
  rw [h.clients.replayed.stage, h.history base hbase]
  simp

/-- A buffer that has been given back is not the handle of a callback. -/
theorem client_ne (h : Returned s) (henabled : Enabled s.1 e) (hbase : base ∈ s.2) :
    e.client ≠ some base := by
  intro hown
  cases e with
  | readCb a nread buf =>
      obtain rfl := Option.some.inj hown
      exact h.not_client hbase (h.clients.client_of_reading henabled.2.1)
  | readErrorCb a nread =>
      obtain rfl := Option.some.inj hown
      exact h.not_client hbase (h.clients.client_of_reading henabled.2.1)
  | closeCb a =>
      obtain rfl := Option.some.inj hown
      have hclosing := henabled.2
      rw [h.stage hbase] at hclosing
      cases hclosing
  | _ => cases hown

theorem not_about_calls (h : Returned s) (henabled : Enabled s.1 e) (hbase : base ∈ s.2) :
    ∀ c ∈ calls s.1 e, ¬ About base c := by
  intro c hc habout
  rcases h.clients.about_calls henabled hc habout with ⟨rfl, -⟩ | ⟨-, hown | hserver⟩
  · exact Nat.lt_irrefl _ (h.lt _ hbase)
  · exact h.client_ne henabled hbase hown
  · exact h.server base hbase hserver

theorem server_next (h : Returned s) (hbase : base ∈ s.2) :
    base ≠ (next s.1 e).worker.server := by
  cases e with
  | enter ret => exact Nat.ne_of_lt (h.lt base hbase)
  | _ => exact h.server base hbase

/-- A buffer that is already in the ledger. -/
theorem history_next (h : Returned s) (henabled : Enabled s.1 e) (hbase : base ∈ s.2) :
    Uv.history base (next s.1 e).trace = [.free (some base)] := by
  rw [trace_next, history_append, history_of_not_about (h.not_about_calls henabled hbase),
    List.append_nil, h.history base hbase]

/-- The one that a read enters into it. -/
theorem history_new (h : Returned s) {a : Addr} {nread : Int} {buf : Buffer}
    (henabled : Enabled s.1 (.readCb a nread buf)) (hnread : 0 ≤ nread) :
    Uv.history s.1.fresh (next s.1 (.readCb a nread buf)).trace = [.free (some s.1.fresh)] := by
  have hnone := history_of_not_about (h.clients.bounded s.1.fresh le_rfl)
  have hread := (h.clients.wellFormed.reading a henabled.2.1).1
  have hne : a ≠ s.1.fresh := Nat.ne_of_lt (h.clients.wellFormed.connections_lt a hread).1
  have hdata : ¬ nread < 0 := Int.not_lt.mpr hnread
  simp [trace_next, calls, hnone, hdata]

protected theorem next (h : Returned s) (henabled : Enabled s.1 e) (hok : DeliversData e) :
    Returned ((machine.recording buffers).next s e) := by
  have hfresh := fresh_le_next s.1 e
  have hcases : ∀ base ∈ s.2 ++ buffers s.1 e, base ∈ s.2 ∨
      base = s.1.fresh ∧ ∃ a nread buf, e = .readCb a nread buf := by
    intro base hbase
    rcases List.mem_append.mp hbase with hold | hnew
    · exact .inl hold
    · cases e with
      | readCb a nread buf => exact .inr ⟨List.mem_singleton.mp hnew, a, nread, buf, rfl⟩
      | _ => exact absurd hnew List.not_mem_nil
  constructor
  · exact h.clients.next henabled
  · intro base hbase
    rcases hcases base hbase with hold | ⟨rfl, a, nread, buf, rfl⟩
    · exact Nat.lt_of_lt_of_le (h.lt base hold) hfresh
    · by_cases hnread : nread < 0 <;>
        simp [machine, Receiver.next, allocBuffer, onRead, hnread]
  · intro base hbase
    rcases hcases base hbase with hold | ⟨rfl, a, nread, buf, rfl⟩
    · exact h.server_next hold
    · exact Nat.ne_of_gt h.clients.wellFormed.server_lt
  · intro base hbase
    rcases hcases base hbase with hold | ⟨rfl, a, nread, buf, rfl⟩
    · exact h.history_next henabled hold
    · exact h.history_new henabled hok

theorem buffersReturned (h : Returned s) : BuffersReturned s := by
  intro base hbase
  rw [← frees_history, h.history base hbase]
  exact List.count_singleton_self

/-- A buffer that comes with the end of the stream is never given back. -/
theorem fault (h : Returned s) (hbad : ¬ DeliversData e) :
    ¬ BuffersReturned ((machine.recording buffers).next s e) := by
  cases e with
  | readCb a nread buf =>
      intro hreturned
      have hnread : nread < 0 := Int.not_le.mp hbad
      have hnone := history_of_not_about (h.clients.bounded s.1.fresh le_rfl)
      have honce := hreturned s.1.fresh (List.mem_append_right _ List.mem_cons_self)
      have hbefore : frees s.1.trace s.1.fresh = 0 := by
        rw [← frees_history, hnone]
        rfl
      change frees (Receiver.next s.1 (.readCb a nread buf)).trace s.1.fresh = 1 at honce
      simp [trace_next, calls, hbefore, hnread] at honce
  | _ => exact absurd trivial hbad

end Returned

/-- Every buffer of a run is given back once, by the call it was made for, if
and only if no end of a stream and no error is delivered with a buffer. -/
theorem buffers_returned_iff {host : String} {port : Int} {callback : Addr} {events : List Event}
    (hrun : machine.Runs (initial host port callback) events) :
    (machine.recording buffers).Always BuffersReturned (initial host port callback, []) events ↔
      machine.Along (fun _ => DeliversData) (initial host port callback) events := by
  rw [← Machine.recording_along buffers (fun _ => DeliversData)
    (initial host port callback, [])]
  refine Machine.always_iff_along (I := Returned)
    (fun _ _ h henabled hok => h.next henabled.2 hok) (fun _ h => h.buffersReturned)
    (fun _ _ h _ hbad => h.fault hbad) ?_ ((Machine.recording_runs _ _).mpr hrun)
  constructor
  · exact clients_initial host port callback
  all_goals simp

end L1Comm.Receiver
