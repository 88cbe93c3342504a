import L1Comm.Sender.Invariant
import Mathlib.Data.List.Range

/-!
What the sender puts on the wire. A heartbeat is an `L1Response` in memory
fresh from `malloc`; `onTimer` stores the number and hands over all 32 bytes.
The default member initialisers of the struct do not run for memory obtained
this way, so the other 30 bytes are whatever the allocator left there. The
numbers are those of `NumGenerator<unsigned short>`, whose modulus is 65535;
`l1.h` documents numbers up to 32767.
-/

namespace L1Comm.Sender

open Uv

/-- The buffer of a write. -/
@[simp] def written : Call → Option Payload
  | .write _ _ buf _ => some buf
  | _ => none

/-- The buffers handed to `uv_write`, in order. -/
def heartbeats (trace : List Call) : List Payload := trace.filterMap written

/-- The sequence numbers they carry. -/
def numbers (trace : List Call) : List Nat :=
  (heartbeats trace).map fun buf => (L1Response.ofBytes buf).dbw0.toNat

/-- What `onTimer` makes of the memory it is given. -/
def heartbeat (heap : Payload) (num : Nat) : L1Response :=
  {L1Response.ofBytes heap with dbw0 := BitVec.ofNat 16 num}

/-- A heartbeat with its number and nothing else: a record whose every other
field has the value of its initialiser, and whose steel number is zero. -/
def plainHeartbeat (num : Nat) : L1Response := {dbw0 := BitVec.ofNat 16 num, dbw6 := fun _ => 0}

/-- The step sends nothing, or a heartbeat that carries the number of the
generator and nothing else. -/
def SendsOnlyNumber (s : State) (e : Event) : Prop :=
  heartbeats (next s e).trace = heartbeats s.trace ∨
    heartbeats (next s e).trace = heartbeats s.trace ++ [(plainHeartbeat s.num).toBytes]

/-- The bytes of a block behind the two that the number takes. -/
def SameRest (heap heap' : Payload) : Prop := ∀ i, 2 ≤ i.val → heap i = heap' i

/-- The allocator hands out memory that is zero behind the number. -/
def CleanMemory : Event → Prop
  | .timerCb _ heap _ => SameRest heap (fun _ => 0)
  | _ => True

/-! ## The bytes -/

theorem heartbeat_toBytes (heap : Payload) (num : Nat) (i : Fin L1Response.size) :
    (heartbeat heap num).toBytes i =
      if i.val = 0 then DWORD.low (.ofNat 16 num)
      else if i.val = 1 then DWORD.high (.ofNat 16 num) else heap i := by
  simp [heartbeat, L1Response.toBytes_dbw0]

theorem heartbeat_eq_iff (heap heap' : Payload) (num : Nat) :
    (heartbeat heap num).toBytes = (heartbeat heap' num).toBytes ↔ SameRest heap heap' := by
  constructor
  · intro h i hi
    have hbyte := congrFun h i
    have hzero : i.val ≠ 0 := by omega
    have hone : i.val ≠ 1 := by omega
    simpa [heartbeat_toBytes, hzero, hone] using hbyte
  · intro h
    funext i
    simp only [heartbeat_toBytes]
    split_ifs
    · rfl
    · rfl
    · exact h i (by omega)

theorem plainHeartbeat_eq (num : Nat) : plainHeartbeat num = heartbeat (fun _ => 0) num := rfl

/-- The heartbeats an event adds to the trace. -/
def sent (s : State) : Event → List Payload
  | .timerCb _ heap _ => [(heartbeat heap s.num).toBytes]
  | _ => []

theorem heartbeats_next (s : State) (e : Event) :
    heartbeats (next s e).trace = heartbeats s.trace ++ sent s e := by
  have hwritten (c : Call) (hc : ¬ isSocketCall c) : written c = none := by
    cases c <;> simp_all
  rw [heartbeats, filterMap_trace_next s e hwritten, ← heartbeats]
  apply congrArg (heartbeats s.trace ++ ·)
  cases e with
  | body ret => by_cases hstatus : s.conn.status = .disconnect <;> simp [socketCalls, sent, hstatus]
  | exit =>
      simp only [socketCalls]
      split_ifs <;> rfl
  | _ => rfl

theorem sendsOnlyNumber_iff (s : State) (e : Event) : SendsOnlyNumber s e ↔ CleanMemory e := by
  rw [SendsOnlyNumber, heartbeats_next]
  cases e with
  | timerCb t heap ret =>
      simp [sent, CleanMemory, plainHeartbeat_eq, heartbeat_eq_iff]
  | _ => simp [sent, CleanMemory]

/-- In a run every heartbeat carries its number and nothing else if and only
if all payloads were zero behind the number when they were allocated; and two
heartbeats with the same number, of whatever runs, are the same bytes if and
only if the memory they were made in is the same there. -/
theorem heartbeat_bytes_iff (s : State) (events : List Event) :
    (machine.Along SendsOnlyNumber s events ↔ machine.Along (fun _ => CleanMemory) s events) ∧
      ∀ (s₁ s₂ : State) (t₁ t₂ : Addr) (heap₁ heap₂ : Payload) (ret₁ ret₂ : Int),
        s₁.num = s₂.num →
        ((heartbeats (next s₁ (.timerCb t₁ heap₁ ret₁)).trace).getLast? =
            (heartbeats (next s₂ (.timerCb t₂ heap₂ ret₂)).trace).getLast? ↔
          SameRest heap₁ heap₂) := by
  refine ⟨⟨?_, ?_⟩, ?_⟩
  · exact Machine.Along.imp fun s e => (sendsOnlyNumber_iff s e).mp
  · exact Machine.Along.imp fun s e => (sendsOnlyNumber_iff s e).mpr
  · intro s₁ s₂ t₁ t₂ heap₁ heap₂ ret₁ ret₂ hnum
    simp [heartbeats_next, sent, hnum, heartbeat_eq_iff]

/-- A first heartbeat, in memory where every bit is set. -/
def dirtyRun : List Event :=
  [.start, .enter, .test, .body 0, .connectCb 0 1 0, .runEnd, .test, .body 0,
   .timerCb 2 (fun _ => 255) 0]

/-- It claims a finished recognition, every alarm and a steel number of 65535
characters, and a heartbeat with the same number made in zeroed memory does
not. -/
theorem heartbeat_sends_heap :
    machine.Runs (initial "10.0.0.2" 3011) dirtyRun ∧
      ¬ machine.Along SendsOnlyNumber (initial "10.0.0.2" 3011) dirtyRun ∧
      (heartbeats (machine.after (initial "10.0.0.2" 3011) dirtyRun).trace).getLast? ≠
        (heartbeats (machine.after (initial "10.0.0.2" 3011)
          (dirtyRun.dropLast ++ [.timerCb 2 (fun _ => 0) 0])).trace).getLast? := by
  refine ⟨by decide, fun h => ?_, by decide⟩
  have hlast := ((Machine.along_append dirtyRun.dropLast [.timerCb 2 (fun _ => 255) 0]).mp h).2.1
  exact absurd ((sendsOnlyNumber_iff _ _).mp hlast 2 le_rfl) (by decide)

/-! ## The numbers -/

/-- The heartbeat timer fires. -/
def Event.isTick : Event → Bool
  | .timerCb .. => true
  | _ => false

/-- A step sends the number of the generator if it is a tick. -/
theorem numbers_next (s : State) (e : Event) :
    numbers (next s e).trace =
      numbers s.trace ++ if e.isTick then [s.num % 65536] else [] := by
  rw [numbers, heartbeats_next, List.map_append]
  cases e <;> simp [numbers, sent, Event.isTick, heartbeat]

theorem num_next (s : State) (e : Event) :
    (next s e).num = if e.isTick then (NumGenerator.getNum numMax s.num).2 else s.num := by
  cases e with
  | body ret =>
      by_cases hstatus : s.conn.status = .disconnect <;>
        simp [next, body, reconnect, hstatus, Event.isTick]
  | connectCb req a status =>
      by_cases hstatus : status < 0 <;> simp [next, onConnect, hstatus, Event.isTick]
  | writeCb req a status =>
      by_cases hstatus : status < 0 <;> simp [next, sendHeartbeatCb, hstatus, Event.isTick]
  | timerCb t heap ret => simp [next, onTimer, Event.isTick]
  | exit => simp [next, Event.isTick]
  | start | enter | test | closeCb | runEnd | stopFlag | stopLoopClose | stopJoin => rfl

/-- A step of the process sends the number of the generator and advances it
if it is a tick, and does neither otherwise. -/
def Counts (p p' : Process) (tick : Bool) : Prop :=
  numbers p'.trace = numbers p.trace ++ (if tick then [p.num % 65536] else []) ∧
    p'.num = if tick then (NumGenerator.getNum numMax p.num).2 else p.num

theorem counts_next (s : State) (e : Event) :
    Counts s.toProcess (next s e).toProcess e.isTick :=
  ⟨numbers_next s e, num_next s e⟩

/-- From the `k`-th heartbeat of a process on, the numbers count up modulo
65535, whatever machine the process is part of. -/
theorem numbers_of_counts {σ ε : Type*} {m : Machine σ ε} (process : σ → Process)
    (tick : ε → Bool) (hstep : ∀ s e, Counts (process s) (process (m.next s e)) (tick e))
    (s : σ) (events : List ε) (k : Nat) (hnum : (process s).num = k % 65535) :
    numbers (process (m.after s events)).trace =
      numbers (process s).trace ++ (List.range' k (events.countP tick)).map (· % 65535) := by
  induction events generalizing s k with
  | nil => simp
  | cons e rest ih =>
      obtain ⟨hsent, hnext⟩ := hstep s e
      rw [Machine.after_cons]
      cases htick : tick e with
      | true =>
          have hnum' : (process (m.next s e)).num = (k + 1) % 65535 := by
            rw [hnext, htick, if_pos rfl, hnum]
            exact congrArg Prod.snd (NumGenerator.getNum_mod (by decide) k)
          have hlt : k % 65535 % 65536 = k % 65535 := Nat.mod_eq_of_lt (by omega)
          rw [ih _ (k + 1) hnum', hsent]
          simp [htick, hnum, hlt, List.range'_succ]
      | false =>
          have hnum' : (process (m.next s e)).num = k % 65535 := by simp [hnext, htick, hnum]
          rw [ih _ k hnum', hsent]
          simp [htick]

theorem numbers_after (s : State) (events : List Event) (k : Nat) (hnum : s.num = k % 65535) :
    numbers (machine.after s events).trace =
      numbers s.trace ++ (List.range' k (events.countP Event.isTick)).map (· % 65535) :=
  numbers_of_counts State.toProcess Event.isTick counts_next s events k hnum

/-- The protocol of the user document: numbers up to 32767, each the successor
of the one before. -/
def InProtocolRange (numbers : List Nat) : Prop :=
  (∀ n ∈ numbers, n ≤ 32767) ∧ numbers.IsChain fun n n' => n' = (n + 1) % 32768

theorem inProtocolRange_iff (count : Nat) :
    InProtocolRange ((List.range count).map (· % 65535)) ↔ count ≤ 32768 := by
  constructor
  · intro h
    by_contra hlong
    have hmem : 32768 ∈ (List.range count).map (· % 65535) :=
      List.mem_map.mpr ⟨32768, List.mem_range.mpr (by omega), rfl⟩
    exact absurd (h.1 32768 hmem) (by decide)
  · intro hcount
    refine ⟨?_, ?_⟩
    · intro n hn
      obtain ⟨k, hk, rfl⟩ := List.mem_map.mp hn
      have hlt := List.mem_range.mp hk
      omega
    · rw [List.isChain_map, List.isChain_range]
      intro k hk
      omega

theorem numbers_initial (host : String) (port : Int) (events : List Event) :
    numbers (machine.after (initial host port) events).trace =
      (List.range (events.countP Event.isTick)).map (· % 65535) := by
  rw [numbers_after (initial host port) events 0 rfl, List.range_eq_range']
  rfl

/-- The numbers of a run are those of the protocol if and only if it has no
more than 32768 heartbeats. -/
theorem number_range_iff (host : String) (port : Int) (events : List Event) :
    InProtocolRange (numbers (machine.after (initial host port) events).trace) ↔
      events.countP Event.isTick ≤ 32768 := by
  rw [numbers_initial, inProtocolRange_iff]

/-- A turn of the loop in which one heartbeat is sent. -/
def heartbeatTurn : List Event := [.test, .body 0, .timerCb 2 (fun _ => 0) 0, .runEnd]

/-- A connection that stays up for this many heartbeats. -/
def steadyRun (count : Nat) : List Event :=
  [.start, .enter, .test, .body 0, .connectCb 0 1 0, .runEnd] ++
    (List.replicate count heartbeatTurn).flatten

/-- Connected, at the test of the loop, with the timer running. -/
def Steady (s : State) : Prop :=
  s.loop.fate = .usable ∧ s.worker.pc = .head ∧ s.worker.stop = false ∧
    s.conn.status = .connected ∧ s.loop.active 2 = true

theorem steady_turn {s : State} (h : Steady s) :
    machine.Runs s heartbeatTurn ∧ Steady (machine.after s heartbeatTurn) := by
  obtain ⟨husable, hhead, hstop, hstatus, hactive⟩ := h
  simp [heartbeatTurn, machine, Loop.Permits, Enabled, next, body, onTimer, Steady, husable, hhead,
    hstop, hstatus, hactive]

theorem steady_runs (s : State) (h : Steady s) (count : Nat) :
    machine.Runs s (List.replicate count heartbeatTurn).flatten := by
  induction count generalizing s with
  | zero => trivial
  | succ count ih =>
      obtain ⟨hturn, hsteady⟩ := steady_turn h
      exact (Machine.along_append heartbeatTurn _).mpr ⟨hturn, ih _ hsteady⟩

theorem countP_steadyRun (count : Nat) : (steadyRun count).countP Event.isTick = count := by
  have hturn : heartbeatTurn.countP Event.isTick = 1 := rfl
  simp [steadyRun, Event.isTick, List.countP_flatten, hturn]

/-- The 32769th heartbeat of a connection carries 32768. -/
theorem number_beyond_range :
    machine.Runs (initial "10.0.0.2" 3011) (steadyRun 32769) ∧
      ¬ InProtocolRange
        (numbers (machine.after (initial "10.0.0.2" 3011) (steadyRun 32769)).trace) := by
  constructor
  · refine (Machine.along_append _ _).mpr ⟨by decide, steady_runs _ ?_ _⟩
    exact ⟨rfl, rfl, rfl, rfl, rfl⟩
  · rw [numbers_initial, inProtocolRange_iff, countP_steadyRun]
    decide

end L1Comm.Sender
