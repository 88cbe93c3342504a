import L1Comm.Machine.Run

/-!
What an event loop of libuv keeps about the handles and requests of one
program, as far as its callers can observe it. The program is seen through its
trace: the calls it makes into the library and into the allocator, and the
callbacks the library runs in it. Each field of the loop has its own function
that says how one more entry of the trace changes it.

The library answers two calls in a way that ends what can be said. `uv_close`
asserts that it is passed a handle which is not closing yet, so that on
anything but an open handle the process aborts; and `uv_loop_close` destroys
the loop where it returns `0`. `fate` keeps this: an aborted process takes no
further step, and none is taken that uses a destroyed loop.

The library's handle protocol is the machine `protocol`: its states are loops,
its events are trace entries, and it admits `uv_close` only on an open handle,
the release of a handle only after its close callback, and `uv_tcp_connect`
only with a request that no pending connect uses. A trace obeys the protocol
when it is a run of this machine. The library does not notice a breach of the
last two rules. A program goes on behind it, and since no address is handed out
twice it goes on here as if the memory had not been released yet, or as if each
connect had a request of its own.
-/

namespace L1Comm.Uv

/-- Addresses of objects on the heap. They are handed out in increasing order
and never again, so that an address names one object for the whole run. -/
abbrev Addr := Nat

/-- A C pointer: `none` is the null pointer. -/
abbrev Ptr := Option Addr

/-- The lifecycle of the object at an address, seen as a handle. -/
inductive Stage where
  | uninitialised | opened | closing | closed | released
  deriving DecidableEq, Repr

/-- What has become of the loop and of the process that uses it. -/
inductive Fate where
  | usable | destroyed | aborted
  deriving DecidableEq, Repr

/-- An accepted request whose callback is still to come, and its handle. -/
structure Pending where
  req : Addr
  handle : Addr
  deriving DecidableEq, Repr

/-- The entries of a trace. The last argument of a call is what it returned;
`Peer` is the type of socket addresses, `Buf` that of buffer contents. A read
callback that reports a failure may come without a buffer. -/
inductive Call (Peer Buf : Type*) where
  | malloc (a : Addr)
  | free (p : Ptr)
  | tcpInit (h : Addr)
  | timerInit (h : Addr)
  | bind (h : Addr) (peer : Peer)
  | listen (h : Addr) (ret : Int)
  | accept (server client : Addr) (ret : Int)
  | readStart (h : Addr)
  | connect (req h : Addr) (peer : Peer) (ret : Int)
  | write (req : Addr) (stream : Ptr) (buf : Buf) (ret : Int)
  | timerStart (h : Addr)
  | timerStop (p : Ptr)
  | close (p : Ptr)
  | loopClose (ret : Int)
  | connectionCb (server : Addr) (status : Int)
  | readCb (h : Addr) (nread : Int) (buf : Buf)
  | readErrorCb (h : Addr) (nread : Int)
  | connectCb (req h : Addr) (status : Int)
  | writeCb (req h : Addr) (status : Int)
  | timerCb (h : Addr)
  | closeCb (h : Addr)
  deriving DecidableEq

/-- The loop: the stage of every handle, which timers are started, which
sockets listen, read or have their connect succeeded, the address each socket
was told to connect to, the pending requests, the handle queue, which holds
every handle from its initialisation to its close callback, and the fate. -/
structure Loop (Peer : Type*) where
  stage : Addr → Stage := fun _ => .uninitialised
  active : Addr → Bool := fun _ => false
  listening : Addr → Bool := fun _ => false
  reading : Addr → Bool := fun _ => false
  established : Addr → Bool := fun _ => false
  peer : Addr → Option Peer := fun _ => none
  connects : List Pending := []
  writes : List Pending := []
  queue : List Addr := []
  fate : Fate := .usable

variable {Peer Buf : Type*}

namespace Loop

/-- A handle is open from its initialisation to `uv_close` and closed once its
close callback has run. The release of memory that never was a handle leaves
the stage as it is. -/
@[simp] def stageAfter (stage : Addr → Stage) (a : Addr) : Call Peer Buf → Stage
  | .tcpInit h => if h = a then .opened else stage a
  | .timerInit h => if h = a then .opened else stage a
  | .close p => if p = some a ∧ stage a = .opened then .closing else stage a
  | .closeCb h => if h = a then .closed else stage a
  | .free p => if p = some a ∧ stage a ≠ .uninitialised then .released else stage a
  | _ => stage a

/-- `uv_close` stops a handle at once, whatever it was doing. -/
@[simp] def activeAfter (active : Addr → Bool) (a : Addr) : Call Peer Buf → Bool
  | .timerInit h => if h = a then false else active a
  | .timerStart h => if h = a then true else active a
  | .timerStop p => if p = some a then false else active a
  | .close p => if p = some a then false else active a
  | _ => active a

@[simp] def listeningAfter (listening : Addr → Bool) (a : Addr) : Call Peer Buf → Bool
  | .listen h ret => if h = a ∧ ret = 0 then true else listening a
  | .close p => if p = some a then false else listening a
  | _ => listening a

@[simp] def readingAfter (reading : Addr → Bool) (a : Addr) : Call Peer Buf → Bool
  | .readStart h => if h = a then true else reading a
  | .close p => if p = some a then false else reading a
  | _ => reading a

@[simp] def establishedAfter (established : Addr → Bool) (a : Addr) : Call Peer Buf → Bool
  | .connectCb _ h status => if h = a then decide (0 ≤ status) else established a
  | _ => established a

@[simp] def peerAfter (peer : Addr → Option Peer) (a : Addr) : Call Peer Buf → Option Peer
  | .connect _ h address ret => if h = a ∧ ret = 0 then some address else peer a
  | _ => peer a

/-- A request is pending from the call that accepts it to its callback. -/
@[simp] def connectsAfter (connects : List Pending) : Call Peer Buf → List Pending
  | .connect req h _ ret => if ret = 0 then connects ++ [⟨req, h⟩] else connects
  | .connectCb req h _ => connects.filter (· ≠ ⟨req, h⟩)
  | _ => connects

@[simp] def writesAfter (writes : List Pending) : Call Peer Buf → List Pending
  | .write req (some h) _ ret => if ret = 0 then writes ++ [⟨req, h⟩] else writes
  | .writeCb req h _ => writes.filter (· ≠ ⟨req, h⟩)
  | _ => writes

@[simp] def queueAfter (queue : List Addr) : Call Peer Buf → List Addr
  | .tcpInit h => queue ++ [h]
  | .timerInit h => queue ++ [h]
  | .closeCb h => queue.erase h
  | _ => queue

@[simp] def fateAfter (fate : Fate) (stage : Addr → Stage) : Call Peer Buf → Fate
  | .close (some h) => if stage h = .opened then fate else .aborted
  | .close none => .aborted
  | .loopClose ret => if ret = 0 ∧ fate = .usable then .destroyed else fate
  | _ => fate

/-- The loop after one more trace entry. -/
def after (l : Loop Peer) (c : Call Peer Buf) : Loop Peer where
  stage a := stageAfter l.stage a c
  active a := activeAfter l.active a c
  listening a := listeningAfter l.listening a c
  reading a := readingAfter l.reading a c
  established a := establishedAfter l.established a c
  peer a := peerAfter l.peer a c
  connects := connectsAfter l.connects c
  writes := writesAfter l.writes c
  queue := queueAfter l.queue c
  fate := fateAfter l.fate l.stage c

section Fields

variable (l : Loop Peer) (c : Call Peer Buf) (a : Addr)

@[simp] theorem after_stage : (l.after c).stage a = stageAfter l.stage a c := rfl

@[simp] theorem after_active : (l.after c).active a = activeAfter l.active a c := rfl

@[simp] theorem after_listening :
    (l.after c).listening a = listeningAfter l.listening a c := rfl

@[simp] theorem after_reading : (l.after c).reading a = readingAfter l.reading a c := rfl

@[simp] theorem after_established :
    (l.after c).established a = establishedAfter l.established a c := rfl

@[simp] theorem after_peer : (l.after c).peer a = peerAfter l.peer a c := rfl

@[simp] theorem after_connects : (l.after c).connects = connectsAfter l.connects c := rfl

@[simp] theorem after_writes : (l.after c).writes = writesAfter l.writes c := rfl

@[simp] theorem after_queue : (l.after c).queue = queueAfter l.queue c := rfl

@[simp] theorem after_fate : (l.after c).fate = fateAfter l.fate l.stage c := rfl

@[simp] theorem after_readCb (nread : Int) (buf : Buf) : l.after (.readCb a nread buf) = l := rfl

theorem mem_connects_connect (req h : Addr) (peer : Peer) (ret : Int) {r : Pending} :
    r ∈ (l.after (.connect req h peer ret : Call Peer Buf)).connects ↔
      r ∈ l.connects ∨ ret = 0 ∧ r = ⟨req, h⟩ := by
  by_cases hret : ret = 0 <;> simp [hret]

theorem mem_writes_write (req : Addr) (stream : Ptr) (buf : Buf) (ret : Int) {r : Pending} :
    r ∈ (l.after (.write req stream buf ret)).writes ↔
      r ∈ l.writes ∨ ret = 0 ∧ r.req = req ∧ stream = some r.handle := by
  obtain ⟨rreq, rhandle⟩ := r
  cases stream with
  | none => simp
  | some h => by_cases hret : ret = 0 <;> simp [hret, eq_comm]

/-- The release of memory that never was a handle leaves all stages as they are. -/
theorem stage_free_plain (hplain : l.stage a = .uninitialised) :
    (l.after (.free (some a) : Call Peer Buf)).stage = l.stage := by
  funext b
  have hother : ¬ (some a = some b ∧ l.stage b ≠ .uninitialised) := by
    rintro ⟨hab, hne⟩
    obtain rfl := Option.some.inj hab
    exact hne hplain
  rw [after_stage, stageAfter, if_neg hother]

end Fields

/-- Whether no request of the handle is pending. -/
def Quiet (l : Loop Peer) (h : Addr) : Prop :=
  (∀ c ∈ l.connects, c.handle ≠ h) ∧ ∀ c ∈ l.writes, c.handle ≠ h

instance (l : Loop Peer) (h : Addr) : Decidable (l.Quiet h) :=
  inferInstanceAs (Decidable (_ ∧ _))

/-- Whether the process can take a step, which uses the loop or does not. -/
def Permits (l : Loop Peer) (uses : Bool) : Prop :=
  l.fate = .usable ∨ l.fate = .destroyed ∧ uses = false

instance (l : Loop Peer) (uses : Bool) : Decidable (l.Permits uses) :=
  inferInstanceAs (Decidable (_ ∨ _))

theorem Permits.not_aborted {l : Loop Peer} {uses : Bool} (h : l.Permits uses) :
    l.fate ≠ .aborted := by
  rcases h with husable | ⟨hdestroyed, -⟩ <;> simp_all

/-- What the handle protocol asks of a trace entry. -/
@[simp] def Legal (l : Loop Peer) : Call Peer Buf → Prop
  | .close p => ∃ h ∈ p, l.stage h = .opened
  | .free p => ∀ a ∈ p, l.stage a = .uninitialised ∨ l.stage a = .closed
  | .connect req _ _ _ => ∀ c ∈ l.connects, c.req ≠ req
  | _ => True

end Loop

/-- The handle protocol, as a machine that reads a trace. -/
def protocol : Machine (Loop Peer) (Call Peer Buf) where
  enabled := Loop.Legal
  next := Loop.after

@[simp] theorem protocol_enabled (l : Loop Peer) (c : Call Peer Buf) :
    protocol.enabled l c = l.Legal c := rfl

@[simp] theorem protocol_next (l : Loop Peer) (c : Call Peer Buf) :
    protocol.next l c = l.after c := rfl

section Fates

variable {l : Loop Peer} {c : Call Peer Buf} {calls : List (Call Peer Buf)}

theorem Loop.not_aborted_of_legal (hlegal : l.Legal c) (h : l.fate ≠ .aborted) :
    (l.after c).fate ≠ .aborted := by
  cases c with
  | close p =>
      obtain ⟨a, ha, hopen⟩ := hlegal
      obtain rfl := Option.mem_def.mp ha
      simpa [hopen] using h
  | loopClose ret =>
      rw [after_fate, fateAfter]
      split
      · simp
      · exact h
  | _ => exact h

/-- The library does not abort in a program that keeps to its protocol. -/
theorem not_aborted_of_runs (hruns : protocol.Runs l calls) (h : l.fate ≠ .aborted) :
    (protocol.after l calls).fate ≠ .aborted :=
  Machine.invariant (m := protocol) (I := fun l : Loop Peer => l.fate ≠ .aborted)
    (fun _ _ h hlegal => Loop.not_aborted_of_legal hlegal h) h hruns

theorem Loop.destroyed_of_after (h : (l.after c).fate = .destroyed) :
    l.fate = .destroyed ∨ c = .loopClose 0 := by
  cases c with
  | close p =>
      cases p with
      | none => simp at h
      | some a => by_cases hopen : l.stage a = .opened <;> simp_all
  | loopClose ret => by_cases hret : ret = 0 <;> simp_all
  | _ => exact .inl h

/-- Only a `uv_loop_close` that returns `0` destroys the loop. -/
theorem destroyed_of_after (h : (protocol.after l calls).fate = .destroyed) :
    l.fate = .destroyed ∨ .loopClose 0 ∈ calls := by
  induction calls generalizing l with
  | nil => exact .inl h
  | cons c rest ih =>
      rcases ih h with hnext | hrest
      · refine (Loop.destroyed_of_after hnext).imp_right ?_
        rintro rfl
        exact List.mem_cons_self
      · exact .inr (List.mem_cons_of_mem _ hrest)

end Fates

/-- A program's view of the library: the loop, the trace so far and the next
address the allocator hands out. -/
structure Runtime (Peer Buf : Type*) where
  loop : Loop Peer := {}
  trace : List (Call Peer Buf) := []
  fresh : Addr := 0

namespace Runtime

def call (rt : Runtime Peer Buf) (c : Call Peer Buf) : Runtime Peer Buf :=
  {rt with loop := rt.loop.after c, trace := rt.trace ++ [c]}

/-- `malloc`: the new object is at the address that was `fresh` before. -/
def malloc (rt : Runtime Peer Buf) : Runtime Peer Buf :=
  {rt.call (.malloc rt.fresh) with fresh := rt.fresh + 1}

/-- The loop is what its trace makes of an empty one. -/
def Replayed (rt : Runtime Peer Buf) : Prop := rt.loop = protocol.after {} rt.trace

theorem Replayed.call {rt : Runtime Peer Buf} (h : rt.Replayed) (c : Call Peer Buf) :
    (rt.call c).Replayed := by
  change rt.loop.after c = protocol.after {} (rt.trace ++ [c])
  rw [Machine.after_append, ← h]
  rfl

theorem Replayed.malloc {rt : Runtime Peer Buf} (h : rt.Replayed) : rt.malloc.Replayed :=
  h.call (.malloc rt.fresh)

end Runtime

end L1Comm.Uv
