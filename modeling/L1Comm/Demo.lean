import L1Comm.Machine.Client
import L1Comm.Shutdown

/-!
`sample/main.cc`: a program with a receiver, a sender or both. `main` calls
`Start` and `Stop` of its objects one after the other, and the threads it
starts go on by themselves. Each class has a loop of its own and nothing else
is shared, so all that the workers have in common is `main` and the process:
when libuv aborts in one of the threads, nothing goes on.
-/

namespace L1Comm

/-- The calls among the events of a receiver. -/
def Receiver.control : Receiver.Event → Option Control
  | .start => some .start
  | .stopFlag => some .flag
  | .stopLoopClose => some .close
  | .stopJoin => some .join
  | _ => none

def Sender.control : Sender.Event → Option Control
  | .start => some .start
  | .stopFlag => some .flag
  | .stopLoopClose => some .close
  | .stopJoin => some .join
  | _ => none

theorem Receiver.control_eq_some {s : Receiver.State} {e : Receiver.Event} {c : Control} :
    Receiver.control e = some c ↔ Receiver.threadEvent s e = some (.control c) := by
  cases e <;> simp [Receiver.threadEvent, Receiver.control]

theorem Sender.control_eq_some {s : Sender.State} {e : Sender.Event} {c : Control} :
    Sender.control e = some c ↔ Sender.threadEvent s e = some (.control c) := by
  cases e <;> simp [Sender.threadEvent, Sender.control]

namespace Demo

/-- What the Makefile defines: `ENABLE_RECEIVER`, `ENABLE_SENDER` and
`RUN_RANDOM_TIME`. -/
structure Build where
  enableReceiver : Bool
  enableSender : Bool
  runRandomTime : Bool
  deriving DecidableEq

/-- `Start` and `Stop`. -/
def start : List Control := [.start]

def stop : List Control := [.flag, .close, .join]

/-- `main`. To sleep concerns no worker, and the sleep of a build that does not
run for a random time is in a loop without an end. -/
def main (b : Build) : List (Statement Control) :=
  (if b.enableSender then [.pause] else []) ++
    (if b.enableReceiver then start.map .left else []) ++
    (if b.enableSender then start.map .right else []) ++
    (if b.runRandomTime then [.pause] else [.forever]) ++
    (if b.enableReceiver then stop.map .left else []) ++
    (if b.enableSender then stop.map .right else [])

abbrev State := Client Receiver.State Sender.State Control

abbrev Event := Client.Event Receiver.Event Sender.Event

/-- `main` and its objects, as long as the process goes on. -/
def together : Machine State Event :=
  Client.machine Receiver.machine Sender.machine Receiver.control Sender.control

/-- Libuv has aborted in neither thread. -/
def Up (s : State) : Prop := s.left.loop.fate ≠ .aborted ∧ s.right.loop.fate ≠ .aborted

def machine : Machine State Event where
  enabled s e := Up s ∧ together.enabled s e
  next := together.next

def initial (b : Build) : State where
  rest := main b
  left := Receiver.initial "0.0.0.0" 3002 0
  right := Sender.initial "0.0.0.0" 3011

instance (s : State) : Decidable (Up s) := inferInstanceAs (Decidable (_ ∧ _))

instance (s : State) (e : Event) : Decidable (machine.enabled s e) :=
  inferInstanceAs (Decidable (Up s ∧
    (Client.machine Receiver.machine Sender.machine Receiver.control Sender.control).enabled s e))

variable {b : Build} {s : State} {e : Event}

/-! ## The two workers -/

/-- The calls of an object over a whole run of `main`. -/
def session (b : Build) (enabled : Bool) : List Control :=
  if enabled then if b.runRandomTime then start ++ stop else start else []

/-- The calls of a receiver and of a sender which `main` makes: the receiver
is started before the sender, the sender before the receiver is stopped, and
the receiver has come to its end when the sender is stopped. -/
structure Schedule (b : Build) (calls calls' : List Control) : Prop where
  receiver : calls <+: session b b.enableReceiver
  sender : calls' <+: session b b.enableSender
  receiverStarted : b.enableReceiver = true → calls' ≠ [] → calls ≠ []
  senderStarted : b.enableSender = true → 1 < calls.length → calls' ≠ []
  receiverStopped : b.enableReceiver = true → 1 < calls'.length → calls.length = 4

instance (b : Build) (calls calls' : List Control) : Decidable (Schedule b calls calls') :=
  decidable_of_iff
    (calls <+: session b b.enableReceiver ∧ calls' <+: session b b.enableSender ∧
      (b.enableReceiver = true → calls' ≠ [] → calls ≠ []) ∧
      (b.enableSender = true → 1 < calls.length → calls' ≠ []) ∧
      (b.enableReceiver = true → 1 < calls'.length → calls.length = 4))
    ⟨fun ⟨h, h', hr, hs, ht⟩ => ⟨h, h', hr, hs, ht⟩,
      fun ⟨h, h', hr, hs, ht⟩ => ⟨h, h', hr, hs, ht⟩⟩

theorem schedule_of_taken {taken : List (Statement Control)}
    (h : taken <+: Statement.reached (main b)) :
    Schedule b (taken.filterMap Statement.left?) (taken.filterMap Statement.right?) := by
  have hall : ∀ taken ∈ (Statement.reached (main b)).inits,
      Schedule b (taken.filterMap Statement.left?) (taken.filterMap Statement.right?) := by
    obtain ⟨r, t, o⟩ := b
    cases r <;> cases t <;> cases o <;> decide
  exact hall taken ((List.mem_inits _ _).mpr h)

theorem taken_of_schedule {calls calls' : List Control} (h : Schedule b calls calls') :
    ∃ taken, taken <+: Statement.reached (main b) ∧
      calls = taken.filterMap Statement.left? ∧ calls' = taken.filterMap Statement.right? := by
  have hall : ∀ calls ∈ (session b b.enableReceiver).inits,
      ∀ calls' ∈ (session b b.enableSender).inits, Schedule b calls calls' →
        ∃ taken ∈ (Statement.reached (main b)).inits,
          calls = taken.filterMap Statement.left? ∧
            calls' = taken.filterMap Statement.right? := by
    obtain ⟨r, t, o⟩ := b
    cases r <;> cases t <;> cases o <;> decide
  obtain ⟨taken, htaken, hcalls⟩ := hall calls ((List.mem_inits _ _).mpr h.receiver) calls'
    ((List.mem_inits _ _).mpr h.sender) h
  exact ⟨taken, (List.mem_inits _ _).mp htaken, hcalls⟩

/-! ## The end of `main` -/

/-- Steps of `main`, and of a thread which `main` waits for. -/
def own (s : State) : Event → Bool
  | .pause => true
  | .left e => (Receiver.control e).isSome ||
      (decide s.left.thread.Stops && (Receiver.threadEvent s.left e).isSome)
  | .right e => (Sender.control e).isSome ||
      (decide s.right.thread.Stops && (Sender.threadEvent s.right e).isSome)

/-- `main` still makes the calls that each thread needs, in the order it needs. -/
structure Orderly (b : Build) (s : State) : Prop where
  receiver : Thread.Session 0 s.left.thread (s.rest.filterMap Statement.left?)
  sender : Thread.Session 1 s.right.thread (s.rest.filterMap Statement.right?)
  rest : s.rest <:+ main b

/-- An upper bound on the steps until `main` returns. -/
def remaining (s : State) : Nat :=
  s.rest.length +
    Thread.slack 0 s.left.thread (s.rest.filterMap Statement.left?) +
    Thread.slack 1 s.right.thread (s.rest.filterMap Statement.right?)

theorem left_main (b : Build) :
    (main b).filterMap Statement.left? = if b.enableReceiver then start ++ stop else [] := by
  obtain ⟨r, t, o⟩ := b
  cases r <;> cases t <;> cases o <;> rfl

theorem right_main (b : Build) :
    (main b).filterMap Statement.right? = if b.enableSender then start ++ stop else [] := by
  obtain ⟨r, t, o⟩ := b
  cases r <;> cases t <;> cases o <;> rfl

theorem orderly_initial (b : Build) : Orderly b (initial b) := by
  refine ⟨?_, ?_, List.suffix_refl _⟩
  · change Thread.Session 0 {} ((main b).filterMap Statement.left?)
    rw [left_main]
    split_ifs
    exacts [Thread.session_whole, Thread.session_nil]
  · change Thread.Session 1 {} ((main b).filterMap Statement.right?)
    rw [right_main]
    split_ifs
    exacts [Thread.session_whole, Thread.session_nil]

/-- A step keeps `main` orderly, and one of its own brings its end nearer. -/
theorem orderly_next (hs : Orderly b s) (henabled : together.enabled s e) :
    Orderly b (together.next s e) ∧
      (s.rest.head? ≠ some .forever →
        remaining (together.next s e) + (if own s e then 1 else 0) ≤ remaining s) := by
  obtain ⟨hreceiver, hsender, hrest⟩ := hs
  cases e with
  | pause =>
      rcases henabled with hpause | hforever
      · obtain ⟨stmts, hstmts⟩ := List.head?_eq_some_iff.mp hpause
        rw [hstmts] at hreceiver hsender hrest
        rw [together, Client.next_pause hstmts]
        refine ⟨⟨hreceiver, hsender, (List.suffix_cons _ _).trans hrest⟩, fun _ => ?_⟩
        have hown : (if own s .pause then 1 else 0) = 1 := rfl
        have hleft : (Statement.pause :: stmts).filterMap Statement.left? =
          stmts.filterMap Statement.left? := rfl
        have hright : (Statement.pause :: stmts).filterMap Statement.right? =
          stmts.filterMap Statement.right? := rfl
        simp only [remaining, hstmts, hown, hleft, hright, List.length_cons]
        omega
      · obtain ⟨stmts, hstmts⟩ := List.head?_eq_some_iff.mp hforever
        rw [together, Client.next_forever hstmts]
        exact ⟨⟨hreceiver, hsender, hrest⟩, fun hother => absurd hforever hother⟩
  | left e =>
      cases hcall : Receiver.control e with
      | none =>
          obtain ⟨hsession, hslack⟩ := Receiver.drives.step hreceiver henabled.1
            fun c hc => by rw [Receiver.control_eq_some.mpr hc] at hcall; cases hcall
          rw [together, Client.next_left_quiet hcall]
          refine ⟨⟨hsession, hsender, hrest⟩, fun _ => ?_⟩
          simp only [remaining, own, hcall, Option.isSome_none, Bool.false_or,
            Bool.and_eq_true, decide_eq_true_eq]
          omega
      | some c =>
          obtain ⟨stmts, hstmts⟩ := List.head?_eq_some_iff.mp (henabled.2 c hcall)
          rw [hstmts] at hreceiver hsender hrest
          obtain ⟨hsession, hslack⟩ := Receiver.drives.call hreceiver henabled.1
            (Receiver.control_eq_some.mp hcall)
          rw [together, Client.next_left_call hcall hstmts]
          refine ⟨⟨hsession, hsender, (List.suffix_cons _ _).trans hrest⟩, fun _ => ?_⟩
          rw [remaining, remaining, hstmts]
          simp [own, hcall, List.filterMap_cons]
          omega
  | right e =>
      cases hcall : Sender.control e with
      | none =>
          obtain ⟨hsession, hslack⟩ := Sender.drives.step hsender henabled.1
            fun c hc => by rw [Sender.control_eq_some.mpr hc] at hcall; cases hcall
          rw [together, Client.next_right_quiet hcall]
          refine ⟨⟨hreceiver, hsession, hrest⟩, fun _ => ?_⟩
          simp only [remaining, own, hcall, Option.isSome_none, Bool.false_or,
            Bool.and_eq_true, decide_eq_true_eq]
          omega
      | some c =>
          obtain ⟨stmts, hstmts⟩ := List.head?_eq_some_iff.mp (henabled.2 c hcall)
          rw [hstmts] at hreceiver hsender hrest
          obtain ⟨hsession, hslack⟩ := Sender.drives.call hsender henabled.1
            (Sender.control_eq_some.mp hcall)
          rw [together, Client.next_right_call hcall hstmts]
          refine ⟨⟨hreceiver, hsession, (List.suffix_cons _ _).trans hrest⟩, fun _ => ?_⟩
          rw [remaining, remaining, hstmts]
          simp [own, hcall, List.filterMap_cons]
          omega

theorem orderly_run {events : List Event} (hrun : machine.Runs (initial b) events) :
    Orderly b (machine.after (initial b) events) :=
  Machine.invariant (m := machine) (fun _ _ hs henabled => (orderly_next hs henabled.2).1)
    (orderly_initial b) hrun

theorem remaining_initial (b : Build) : remaining (initial b) ≤ 17 := by
  obtain ⟨r, t, o⟩ := b
  cases r <;> cases t <;> cases o <;> decide

theorem Orderly.passes (hs : Orderly b s) (hb : b.runRandomTime = true) :
    s.rest.head? ≠ some .forever := by
  intro hforever
  have hmem : .forever ∈ main b := hs.rest.subset (List.mem_of_mem_head? hforever)
  obtain ⟨r, t, o⟩ := b
  obtain rfl : o = true := hb
  cases r <;> cases t <;> exact absurd hmem (by decide)

/-- A build without a random time stays in its loop. -/
theorem forever_next (hs : .forever ∈ s.rest) (henabled : together.enabled s e) :
    .forever ∈ (together.next s e).rest := by
  have hstep : .forever ∈ Client.step s.rest := by
    cases hrest : s.rest with
    | nil => simp [hrest] at hs
    | cons stmt stmts =>
        rw [hrest] at hs
        cases stmt <;> simp_all [Client.step]
  cases e with
  | pause => exact hstep
  | left e =>
      cases hcall : Receiver.control e with
      | none =>
          rw [together, Client.next_left_quiet hcall]
          exact hs
      | some c => simpa [together, hcall] using hstep
  | right e =>
      cases hcall : Sender.control e with
      | none =>
          rw [together, Client.next_right_quiet hcall]
          exact hs
      | some c => simpa [together, hcall] using hstep

/-- Steps of `main` and its objects, if in the end libuv has not aborted. -/
theorem runs_of_up {events : List Event} (hrun : together.Runs s events)
    (hup : Up (together.after s events)) : Up s ∧ machine.Runs s events := by
  induction events generalizing s with
  | nil => exact ⟨hup, trivial⟩
  | cons e rest ih =>
      obtain ⟨hnext, hrest⟩ := ih hrun.2 hup
      have hs : Up s := by
        obtain ⟨hleft, hright⟩ := hnext
        cases e with
        | pause => exact ⟨hleft, hright⟩
        | left e => exact ⟨hrun.1.1.1.not_aborted, hright⟩
        | right e => exact ⟨hleft, hrun.1.1.1.not_aborted⟩
      exact ⟨hs, ⟨hs, hrun.1⟩, hrest⟩

theorem together_runs {events : List Event} (hrun : machine.Runs s events) :
    together.Runs s events := by
  induction events generalizing s with
  | nil => trivial
  | cons e rest ih => exact ⟨hrun.1.2, ih hrun.2⟩

theorem receiver_run {events : List Event} (hrun : machine.Runs (initial b) events) :
    Receiver.machine.Runs (Receiver.initial "0.0.0.0" 3002 0) (Client.lefts events) ∧
      (machine.after (initial b) events).left =
        Receiver.machine.after (Receiver.initial "0.0.0.0" 3002 0) (Client.lefts events) :=
  Client.runs_left (together_runs hrun)

theorem sender_run {events : List Event} (hrun : machine.Runs (initial b) events) :
    Sender.machine.Runs (Sender.initial "0.0.0.0" 3011) (Client.rights events) ∧
      (machine.after (initial b) events).right =
        Sender.machine.after (Sender.initial "0.0.0.0" 3011) (Client.rights events) :=
  Client.runs_right (together_runs hrun)

/-- `main` can come to its end. -/
def CanReturn (s : State) : Prop := machine.Leads machine.enabled (fun t => t.rest = []) s

/-- The calls that are left to make of `Stop`. -/
def left : Caller → List Control
  | .stopped => []
  | .started => [.flag, .close, .join]
  | .flagged => [.close, .join]
  | .joining => [.join]

theorem stopRun_calls (r : Receiver.State) :
    (Receiver.stopRun r).filterMap Receiver.control = left r.worker.caller := by
  have hquiet : (Receiver.finish r.worker.pc).filterMap Receiver.control = [] := by
    cases r.worker.pc <;> rfl
  cases hcaller : r.worker.caller <;>
    simp [Receiver.stopRun, hcaller, hquiet, left, Receiver.control]

/-- A program whose receiver can be stopped, and whose sender is not used. -/
structure Returning (s : State) : Prop where
  handshake : Thread.Handshake 0 s.left.thread
  stoppable : Receiver.Stoppable s.left
  right : s.right.loop.fate ≠ .aborted

namespace Returning

theorem up (h : Returning s) : Up s := ⟨by simp [h.stoppable.usable], h.right⟩

theorem stops (h : Returning s) (hrest : s.rest = (left s.left.worker.caller).map .left) :
    CanReturn s := by
  obtain ⟨hruns, -, halive⟩ := Receiver.stopRun_runs h.stoppable h.handshake
  have hcalls : s.rest =
      ((Receiver.stopRun s.left).filterMap Receiver.control).map .left ++ [] := by
    rw [stopRun_calls, List.append_nil]
    exact hrest
  obtain ⟨hsteps, hafter⟩ := Client.runs_calls_left Sender.machine Sender.control hruns hcalls
  have hup : Up (together.after s ((Receiver.stopRun s.left).map .left)) := by
    rw [together, hafter]
    exact ⟨halive, h.right⟩
  have hrun := (runs_of_up hsteps hup).2
  exact ⟨_, hrun, hrun, congrArg Client.rest hafter⟩

theorem pause {stmts : List (Statement Control)} (h : Returning s)
    (hrest : s.rest = .pause :: stmts) (hreturns : CanReturn {s with rest := stmts}) :
    CanReturn s := by
  have henabled : machine.enabled s .pause := ⟨h.up, .inl (by rw [hrest]; rfl)⟩
  refine .step henabled henabled ?_
  have hnext : together.next s .pause = {s with rest := stmts} := by
    rw [together, Client.next_pause hrest]
  change machine.Leads machine.enabled _ (together.next s .pause)
  rw [hnext]
  exact hreturns

theorem starts {stmts : List (Statement Control)} (h : Returning s)
    (hcaller : s.left.worker.caller = .stopped) (hrest : s.rest = .left .start :: stmts)
    (hreturns : ∀ t, Returning t → t.rest = stmts → t.left.worker.caller = .started →
      CanReturn t) : CanReturn s := by
  have hstart : Receiver.machine.enabled s.left .start :=
    ⟨.inl h.stoppable.usable, (Receiver.idle_iff h.handshake).mpr hcaller⟩
  have henabled : machine.enabled s (.left .start) := by
    refine ⟨h.up, hstart, ?_⟩
    rintro c ⟨⟩
    rw [hrest]
    rfl
  refine .step henabled henabled ?_
  have hnext : together.next s (.left .start) =
      ⟨stmts, Receiver.machine.next s.left .start, s.right⟩ := by
    have hcall : Receiver.control .start = some .start := rfl
    rw [together, Client.next_left_call hcall hrest]
  change machine.Leads machine.enabled _ (together.next s (.left .start))
  rw [hnext]
  refine hreturns _ ⟨Receiver.drives.handshake h.handshake hstart, ⟨h.stoppable.usable, ?_⟩,
    h.right⟩ rfl rfl
  simp [Receiver.machine, Receiver.next, Receiver.Pc.Live]

end Returning

/-- A build with a receiver that runs for a random time, wherever its `main` is. -/
theorem Orderly.returns_receiver (hs : Orderly ⟨true, false, true⟩ s) (h : Returning s) :
    CanReturn s := by
  have hpause (t : State) (ht : Returning t) (hrest : t.rest = .pause :: stop.map .left)
      (hcaller : t.left.worker.caller = .started) : CanReturn t :=
    ht.pause hrest (Returning.stops ⟨ht.handshake, ht.stoppable, ht.right⟩ (by rw [hcaller]; rfl))
  have hadmitted := hs.receiver.admitted
  have hrest : s.rest ∈ (main ⟨true, false, true⟩).tails := (List.mem_tails _ _).mpr hs.rest
  have hcases : s.rest = [.left .start, .pause, .left .flag, .left .close, .left .join] ∨
      s.rest = [.pause, .left .flag, .left .close, .left .join] ∨
      s.rest = [.left .flag, .left .close, .left .join] ∨
      s.rest = [.left .close, .left .join] ∨ s.rest = [.left .join] ∨ s.rest = [] := by
    simpa [main, start, stop] using hrest
  rcases hcases with hrest | hrest | hrest | hrest | hrest | hrest
  · have hcaller : s.left.worker.caller = .stopped := by
      rw [hrest] at hadmitted
      exact Caller.admits_start.mp hadmitted.1
    exact h.starts hcaller hrest fun t ht => hpause t ht
  · rw [hrest] at hadmitted
    exact hpause s h hrest (Caller.admits_flag.mp hadmitted.1)
  · have hcaller : s.left.worker.caller = .started := by
      rw [hrest] at hadmitted
      exact Caller.admits_flag.mp hadmitted.1
    exact h.stops (by rw [hcaller]; exact hrest)
  · have hcaller : s.left.worker.caller = .flagged := by
      rw [hrest] at hadmitted
      exact Caller.admits_close.mp hadmitted.1
    exact h.stops (by rw [hcaller]; exact hrest)
  · have hcaller : s.left.worker.caller = .joining := by
      rw [hrest] at hadmitted
      exact Caller.admits_join.mp hadmitted.1
    exact h.stops (by rw [hcaller]; exact hrest)
  · exact .here hrest

theorem Orderly.returns (hs : Orderly b s) (hb : b.runRandomTime = true)
    (hsender : b.enableSender = false) (h : Returning s) : CanReturn s := by
  obtain ⟨receives, sends, random⟩ := b
  obtain rfl : random = true := hb
  obtain rfl : sends = false := hsender
  cases receives with
  | true => exact hs.returns_receiver h
  | false =>
      have hrest : s.rest ∈ (main ⟨false, false, true⟩).tails := (List.mem_tails _ _).mpr hs.rest
      have hcases : s.rest = [.pause] ∨ s.rest = [] := by simpa [main] using hrest
      rcases hcases with hrest | hrest
      · exact h.pause hrest (.here rfl)
      · exact .here hrest

/-- `main` still has to wait for the thread of the sender. -/
structure Waits (s : State) : Prop where
  unreturned : Sender.Unreturned s.right
  join : .right .join ∈ s.rest

theorem mem_step {stmt : Statement Control} {stmts : List (Statement Control)}
    (hmem : stmt ∈ stmts) (hhead : stmts.head? ≠ some stmt) : stmt ∈ Client.step stmts := by
  cases stmts with
  | nil => exact absurd hmem List.not_mem_nil
  | cons first rest =>
      have hrest : stmt ∈ rest :=
        (List.mem_cons.mp hmem).resolve_left fun hsame => hhead (by rw [hsame]; rfl)
      cases first with
      | forever => exact List.mem_cons_of_mem _ hrest
      | pause | left c | right c => exact hrest

theorem Waits.next (h : Waits s) (henabled : together.enabled s e) :
    Waits (together.next s e) := by
  obtain ⟨hunreturned, hjoin⟩ := h
  cases e with
  | pause =>
      refine ⟨hunreturned, mem_step hjoin ?_⟩
      rcases henabled with hpause | hforever
      · simp [hpause]
      · simp [hforever]
  | left e =>
      cases hcall : Receiver.control e with
      | none =>
          rw [together, Client.next_left_quiet hcall]
          exact ⟨hunreturned, hjoin⟩
      | some c =>
          refine ⟨hunreturned, ?_⟩
          have hhead : s.rest.head? = some (.left c) := henabled.2 c hcall
          simpa [together, hcall] using mem_step hjoin (by simp [hhead])
  | right e =>
      have hnext := hunreturned.next henabled.1.2
      cases hcall : Sender.control e with
      | none =>
          rw [together, Client.next_right_quiet hcall]
          exact ⟨hnext, hjoin⟩
      | some c =>
          refine ⟨hnext, ?_⟩
          have hother : c ≠ .join := by
            rintro rfl
            cases e <;> simp [Sender.control] at hcall
            exact hunreturned.not_join henabled.1.2 rfl
          have hhead : s.rest.head? = some (.right c) := henabled.2 c hcall
          simpa [together, hcall] using mem_step hjoin (by simp [hhead, hother])

/-- What a `main` that can come to its end needs. -/
theorem of_canReturn {events : List Event} (hrun : machine.Runs (initial b) events)
    (hreturns : CanReturn (machine.after (initial b) events)) :
    b.runRandomTime = true ∧ b.enableSender = false ∧
      Receiver.Stoppable (machine.after (initial b) events).left := by
  obtain ⟨more, hmore, -, hend⟩ := hreturns
  have hall : machine.Runs (initial b) (events ++ more) :=
    (Machine.along_append _ _).mpr ⟨hrun, hmore⟩
  rw [← Machine.after_append] at hend
  refine ⟨?_, ?_, ?_⟩
  · by_contra hb
    have hforever : .forever ∈ (initial b).rest := by
      obtain ⟨receives, sends, random⟩ := b
      obtain rfl : random = false := Bool.not_eq_true _ ▸ hb
      cases receives <;> cases sends <;> decide
    have hstays := Machine.invariant (m := machine) (I := fun s => .forever ∈ s.rest)
      (fun _ _ hs henabled => forever_next hs henabled.2) hforever hall
    rw [hend] at hstays
    exact List.not_mem_nil hstays
  · by_contra hb
    have hjoin : .right .join ∈ (initial b).rest := by
      obtain ⟨receives, sends, random⟩ := b
      obtain rfl : sends = true := Bool.not_eq_false _ ▸ hb
      cases receives <;> cases random <;> decide
    have hstays := Machine.invariant (m := machine) (I := Waits)
      (fun _ _ hs henabled => hs.next henabled.2)
      ⟨Sender.unreturned_initial "0.0.0.0" 3011, hjoin⟩ hall
    have hjoins := hstays.join
    rw [hend] at hjoins
    exact List.not_mem_nil hjoins
  · obtain ⟨hleft, hstate⟩ := receiver_run hrun
    obtain ⟨hbehind, hstopped⟩ := Client.runs_left (together_runs hmore)
    have hends := (orderly_run hall).receiver.ends
    rw [hend, Machine.after_append] at hends
    rw [hstate] at hbehind hstopped ⊢
    refine (Receiver.can_stop_iff hleft).mp ⟨Client.lefts more, hbehind, hbehind, ?_⟩
    rw [← hstopped]
    exact hends

theorem returning_of_stoppable {events : List Event} (hrun : machine.Runs (initial b) events)
    (hsender : b.enableSender = false)
    (hstoppable : Receiver.Stoppable (machine.after (initial b) events).left) :
    Returning (machine.after (initial b) events) := by
  have hs := orderly_run hrun
  refine ⟨hs.receiver.handshake, hstoppable, ?_⟩
  obtain ⟨hright, hstate⟩ := sender_run hrun
  have hcalls : (machine.after (initial b) events).rest.filterMap Statement.right? = [] := by
    have hsuffix := hs.rest.filterMap Statement.right?
    rw [right_main, hsender] at hsuffix
    exact List.suffix_nil.mp hsuffix
  have hends := hs.sender.ends
  rw [hcalls, hstate] at hends
  rw [hstate]
  have husable := (Sender.running_run hright).usable fun hstops => by
    rcases hstops with hcaller | hcaller <;> cases hcaller.symm.trans hends
  simp [husable]

/-- `main` takes a bounded number of steps if it runs for a random time. And
whatever the threads and libuv have done, it can come to its end if and only if
it runs for a random time, has no sender, and `Stop` of its receiver can come
back. -/
theorem main_returns_iff {events : List Event} (hrun : machine.Runs (initial b) events) :
    (b.runRandomTime = true → machine.countAlong own (initial b) events ≤ 17) ∧
      (CanReturn (machine.after (initial b) events) ↔
        b.runRandomTime = true ∧ b.enableSender = false ∧
          Receiver.Stoppable (machine.after (initial b) events).left) := by
  refine ⟨fun hb => ?_, of_canReturn hrun, ?_⟩
  · have hcount := Machine.countAlong_le (m := machine) own remaining
      (fun s e hs henabled (_ : True) => ⟨(orderly_next (b := b) hs henabled.2).1,
        (orderly_next hs henabled.2).2 (hs.passes hb)⟩)
      (orderly_initial b) hrun (Machine.along_of_forall_mem fun _ _ => trivial)
    have hle := remaining_initial b
    omega
  · rintro ⟨hb, hsender, hstoppable⟩
    exact (orderly_run hrun).returns hb hsender (returning_of_stoppable hrun hsender hstoppable)

/-- A build without a sender serves a client, and begins to stop the receiver. -/
def servingRun : List Event :=
  [.left .start, .left (.enter 0), .left .test, .left (.connectionCb 1 0 0), .pause,
   .left .stopFlag]

theorem main_returns_iff_servingRun :
    (true = true → machine.countAlong own (initial ⟨true, false, true⟩) servingRun ≤ 17) ∧
      (CanReturn (machine.after (initial ⟨true, false, true⟩) servingRun) ↔
        true = true ∧ false = false ∧
          Receiver.Stoppable (machine.after (initial ⟨true, false, true⟩) servingRun).left) :=
  main_returns_iff (b := ⟨true, false, true⟩) (by decide)

/-! ## The order of the stops -/

/-- `main` has no more to do with the receiver, nor has its thread. -/
structure ReceiverDone (s : State) : Prop where
  caller : s.left.worker.caller = .stopped
  calls : s.rest.filterMap Statement.left? = []

/-- The sender is stopped last. -/
theorem Orderly.receiverDone (hs : Orderly b s) (hstops : s.right.thread.Stops) :
    ReceiverDone s := by
  have hcalls : s.rest.filterMap Statement.left? = [] := by
    have hall : ∀ rest ∈ (main b).tails,
        (rest.filterMap Statement.right?).head? = some .close ∨
          (rest.filterMap Statement.right?).head? = some .join →
        rest.filterMap Statement.left? = [] := by
      obtain ⟨r, t, o⟩ := b
      cases r <;> cases t <;> cases o <;> decide
    refine hall s.rest ((List.mem_tails _ _).mpr hs.rest) ?_
    have hsession := hs.sender
    cases hrest : s.rest.filterMap Statement.right? with
    | nil =>
        rw [hrest] at hsession
        rcases hstops with hcaller | hcaller <;> cases hcaller.symm.trans hsession.ends
    | cons c calls =>
        have hadmits : s.right.thread.caller.Admits c := by
          rw [hrest] at hsession
          exact hsession.admitted.1
        rcases hstops with hcaller | hcaller <;> rw [hcaller] at hadmits <;> cases c <;>
          simp_all
  have hsession := hs.receiver
  rw [hcalls] at hsession
  exact ⟨hsession.ends, hcalls⟩

theorem ReceiverDone.not_enabled (hs : Orderly b s) (hdone : ReceiverDone s)
    (f : Receiver.Event) : ¬ together.enabled s (.left f) := by
  rintro ⟨henabled, hcall⟩
  have hpc : s.left.worker.pc = .idle :=
    Receiver.Pc.thread_injective (hs.receiver.handshake.idle.mpr hdone.caller)
  have hcaller := hdone.caller
  cases f with
  | start =>
      have hhead := hcall .start rfl
      have hcalls := hdone.calls
      obtain ⟨stmts, hstmts⟩ := List.head?_eq_some_iff.mp hhead
      rw [hstmts] at hcalls
      cases hcalls
  | _ => simp_all [Receiver.machine, Receiver.Enabled]

theorem ReceiverDone.next (hs : Orderly b s) (hdone : ReceiverDone s)
    (henabled : together.enabled s e) :
    ReceiverDone (together.next s e) ∧ (together.next s e).left = s.left := by
  have hstep : (Client.step s.rest).filterMap Statement.left? = [] := by
    have hcalls := hdone.calls
    cases hrest : s.rest with
    | nil => rfl
    | cons stmt stmts =>
        rw [hrest] at hcalls
        cases stmt <;> simp_all [Client.step, List.filterMap_cons]
  cases e with
  | pause => exact ⟨⟨hdone.caller, hstep⟩, rfl⟩
  | left e => exact absurd henabled (hdone.not_enabled hs e)
  | right e =>
      cases hcall : Sender.control e with
      | none =>
          rw [together, Client.next_right_quiet hcall]
          exact ⟨⟨hdone.caller, hdone.calls⟩, rfl⟩
      | some c =>
          refine ⟨⟨hdone.caller, ?_⟩, rfl⟩
          simpa [together, hcall] using hstep

/-- From the moment `main` begins to stop the sender nothing more happens in
the receiver, and the user's function is not called any more. -/
theorem receiver_still {first second : List Event}
    (hrun : machine.Runs (initial b) (first ++ second))
    (hstops : (machine.after (initial b) first).right.thread.Stops) :
    Client.lefts second = [] ∧
      (machine.after (initial b) (first ++ second)).left =
        (machine.after (initial b) first).left := by
  rw [Machine.Runs, Machine.along_append] at hrun
  have hs := orderly_run hrun.1
  have hdone := hs.receiverDone hstops
  rw [Machine.after_append]
  generalize machine.after (initial b) first = s at hs hdone hrun
  replace hrun := hrun.2
  clear hstops
  induction second generalizing s with
  | nil => exact ⟨rfl, rfl⟩
  | cons e rest ih =>
      obtain ⟨hnext, hleft⟩ := hdone.next hs hrun.1.2
      obtain ⟨hlefts, hafter⟩ := ih (machine.next s e) (orderly_next hs hrun.1.2).1 hnext hrun.2
      refine ⟨?_, hafter.trans hleft⟩
      cases e with
      | left e => exact absurd hrun.1.2 (hdone.not_enabled hs e)
      | pause | right e => exact hlefts

/-- A run of `main` up to the stop of the sender, whose thread is slow. -/
def stoppingRun : List Event :=
  [.pause, .left .start, .right .start, .left (.enter 0), .left .test, .pause, .left .stopFlag,
   .left .stopLoopClose, .left .runEnd, .left .test, .left .exit, .left .stopJoin,
   .right .stopFlag]

theorem receiver_still_stoppingRun :
    Client.lefts ([.right .stopLoopClose, .right .enter, .right .test] : List Event) = [] ∧
      (machine.after (initial ⟨true, true, true⟩)
          (stoppingRun ++ [.right .stopLoopClose, .right .enter, .right .test])).left =
        (machine.after (initial ⟨true, true, true⟩) stoppingRun).left :=
  receiver_still (by decide) (by decide)

/-! ## The two workers together -/

section Together

variable {r : List Receiver.Event} {t : List Sender.Event}

theorem runs_of_schedule (hr : Receiver.machine.Runs (Receiver.initial "0.0.0.0" 3002 0) r)
    (ht : Sender.machine.Runs (Sender.initial "0.0.0.0" 3011) t)
    (hcalls : Schedule b (r.filterMap Receiver.control) (t.filterMap Sender.control))
    (hr' : (Receiver.machine.after (Receiver.initial "0.0.0.0" 3002 0) r).loop.fate ≠ .aborted)
    (ht' : (Sender.machine.after (Sender.initial "0.0.0.0" 3011) t).loop.fate ≠ .aborted) :
    ∃ events, machine.Runs (initial b) events ∧ Client.lefts events = r ∧
      Client.rights events = t := by
  obtain ⟨events, hruns, rfl, rfl⟩ := Client.runs_of_calls (s := initial b) hr ht
    (taken_of_schedule hcalls)
  refine ⟨events, (runs_of_up hruns ⟨?_, ?_⟩).2, rfl, rfl⟩
  · rw [together, (Client.runs_left hruns).2]
    exact hr'
  · rw [together, (Client.runs_right hruns).2]
    exact ht'

/-- The last step of a receiver in which libuv aborts is no call of `main`. -/
theorem receiver_split (hr : Receiver.machine.Runs (Receiver.initial "0.0.0.0" 3002 0) r)
    (habort : (Receiver.machine.after (Receiver.initial "0.0.0.0" 3002 0) r).loop.fate =
      .aborted) :
    ∃ taken e, r = taken ++ [e] ∧ Receiver.control e = none ∧
      Receiver.machine.Runs (Receiver.initial "0.0.0.0" 3002 0) taken ∧
      Receiver.machine.enabled
        (Receiver.machine.after (Receiver.initial "0.0.0.0" 3002 0) taken) e := by
  obtain ⟨taken, e, rfl, hfree⟩ := Machine.last_of_stuck Receiver.not_enabled_of_aborted
    (by simp [Receiver.initial]) hr habort
  obtain ⟨hrun, henabled, -⟩ := (Machine.along_append taken [e]).mp hr
  have hrunning := (Receiver.running_run hrun).resolve_left fun hended => hfree hended.aborted
  rw [Machine.after_append] at habort
  obtain rfl := Receiver.exit_of_aborted hrunning.serving.lawful henabled habort
  exact ⟨taken, .exit, rfl, rfl, hrun, henabled⟩

/-- A sender aborts inside `Stop`, at the end of its thread. -/
theorem stops_of_aborted {s : Sender.State} {f : Sender.Event} (hs : Sender.Running s)
    (henabled : Sender.machine.enabled s f) (habort : (Sender.next s f).loop.fate = .aborted) :
    Sender.control f = none ∧ s.thread.Stops := by
  have hlive := henabled.1.not_aborted
  rw [hs.unreturned.wellFormed.fate_next henabled.2] at habort
  cases f with
  | exit => exact ⟨rfl, hs.handshake.stops_of_exit (congrArg Sender.Pc.thread henabled.2)⟩
  | stopLoopClose =>
      simp only [Sender.nextFate] at habort
      split at habort
      · cases habort
      · exact absurd habort hlive
  | _ => exact absurd habort hlive

theorem sender_split (ht : Sender.machine.Runs (Sender.initial "0.0.0.0" 3011) t)
    (habort : (Sender.machine.after (Sender.initial "0.0.0.0" 3011) t).loop.fate = .aborted) :
    ∃ taken f, t = taken ++ [f] ∧ Sender.control f = none ∧
      Sender.machine.Runs (Sender.initial "0.0.0.0" 3011) taken ∧
      Sender.machine.enabled (Sender.machine.after (Sender.initial "0.0.0.0" 3011) taken) f ∧
      (Sender.machine.after (Sender.initial "0.0.0.0" 3011) taken).thread.Stops := by
  obtain ⟨taken, f, rfl, hfree⟩ := Machine.last_of_stuck Sender.not_enabled_of_aborted
    (by simp [Sender.initial]) ht habort
  obtain ⟨hrun, henabled, -⟩ := (Machine.along_append taken [f]).mp ht
  rw [Machine.after_append] at habort
  obtain ⟨hquiet, hstops⟩ := stops_of_aborted (Sender.running_run hrun) henabled habort
  exact ⟨taken, f, rfl, hquiet, hrun, henabled, hstops⟩

theorem enabled_left {events : List Event} {e : Receiver.Event}
    (hrun : machine.Runs (initial b) events) (hquiet : Receiver.control e = none)
    (henabled : Receiver.machine.enabled
      (Receiver.machine.after (Receiver.initial "0.0.0.0" 3002 0) (Client.lefts events)) e) :
    together.enabled (machine.after (initial b) events) (.left e) := by
  rw [← (receiver_run hrun).2] at henabled
  exact ⟨henabled, by simp [hquiet]⟩

theorem enabled_right {events : List Event} {f : Sender.Event}
    (hrun : machine.Runs (initial b) events) (hquiet : Sender.control f = none)
    (henabled : Sender.machine.enabled
      (Sender.machine.after (Sender.initial "0.0.0.0" 3011) (Client.rights events)) f) :
    together.enabled (machine.after (initial b) events) (.right f) := by
  rw [← (sender_run hrun).2] at henabled
  exact ⟨henabled, by simp [hquiet]⟩

/-- Libuv does not abort in both threads: when `main` stops the sender, the
thread of the receiver has returned. -/
theorem not_both_aborted (hr : Receiver.machine.Runs (Receiver.initial "0.0.0.0" 3002 0) r)
    (ht : Sender.machine.Runs (Sender.initial "0.0.0.0" 3011) t)
    (hcalls : Schedule b (r.filterMap Receiver.control) (t.filterMap Sender.control))
    (hr' : (Receiver.machine.after (Receiver.initial "0.0.0.0" 3002 0) r).loop.fate = .aborted) :
    (Sender.machine.after (Sender.initial "0.0.0.0" 3011) t).loop.fate ≠ .aborted := by
  intro ht'
  obtain ⟨r, e, rfl, hquiet, hrun, henabled⟩ := receiver_split hr hr'
  obtain ⟨t, f, rfl, hquiet', hrun', henabled', hstops⟩ := sender_split ht ht'
  obtain ⟨events, hevents, rfl, rfl⟩ := runs_of_schedule hrun hrun'
    (by simpa [List.filterMap_append, hquiet, hquiet'] using hcalls)
    henabled.1.not_aborted henabled'.1.not_aborted
  rw [← (sender_run hevents).2] at hstops
  exact ((orderly_run hevents).receiverDone hstops).not_enabled (orderly_run hevents) e
    (enabled_left hevents hquiet henabled)

/-- What the workers of the program can do together: each what it can do alone,
as long as their calls are in the order of `main`. -/
theorem workers_run_iff (b : Build) (r : List Receiver.Event) (t : List Sender.Event) :
    (∃ events, machine.Runs (initial b) events ∧ Client.lefts events = r ∧
        Client.rights events = t) ↔
      Receiver.machine.Runs (Receiver.initial "0.0.0.0" 3002 0) r ∧
        Sender.machine.Runs (Sender.initial "0.0.0.0" 3011) t ∧
        Schedule b (r.filterMap Receiver.control) (t.filterMap Sender.control) := by
  constructor
  · rintro ⟨events, hruns, rfl, rfl⟩
    obtain ⟨taken, htaken, hr, ht⟩ := Client.calls_of_runs (together_runs hruns)
    refine ⟨(receiver_run hruns).1, (sender_run hruns).1, ?_⟩
    rw [hr, ht]
    exact schedule_of_taken htaken
  · rintro ⟨hr, ht, hcalls⟩
    by_cases hr' : (Receiver.machine.after (Receiver.initial "0.0.0.0" 3002 0) r).loop.fate =
      .aborted
    · -- the receiver aborts after everything else
      have ht' := not_both_aborted hr ht hcalls hr'
      obtain ⟨r, e, rfl, hquiet, hrun, henabled⟩ := receiver_split hr hr'
      obtain ⟨events, hevents, rfl, rfl⟩ := runs_of_schedule hrun ht
        (by simpa [List.filterMap_append, hquiet] using hcalls) henabled.1.not_aborted ht'
      refine ⟨events ++ [.left e], ?_, ?_, ?_⟩
      · refine (Machine.along_append _ _).mpr
          ⟨hevents, ⟨⟨?_, ?_⟩, enabled_left hevents hquiet henabled⟩, trivial⟩
        · rw [(receiver_run hevents).2]
          exact henabled.1.not_aborted
        · rw [(sender_run hevents).2]
          exact ht'
      · simp [Client.lefts, List.filterMap_append]
      · simp [Client.rights, List.filterMap_append]
    · by_cases ht' : (Sender.machine.after (Sender.initial "0.0.0.0" 3011) t).loop.fate =
        .aborted
      · obtain ⟨t, f, rfl, hquiet, hrun, henabled, -⟩ := sender_split ht ht'
        obtain ⟨events, hevents, rfl, rfl⟩ := runs_of_schedule hr hrun
          (by simpa [List.filterMap_append, hquiet] using hcalls) hr' henabled.1.not_aborted
        refine ⟨events ++ [.right f], ?_, ?_, ?_⟩
        · refine (Machine.along_append _ _).mpr
            ⟨hevents, ⟨⟨?_, ?_⟩, enabled_right hevents hquiet henabled⟩, trivial⟩
          · rw [(receiver_run hevents).2]
            exact hr'
          · rw [(sender_run hevents).2]
            exact henabled.1.not_aborted
        · simp [Client.lefts, List.filterMap_append]
        · simp [Client.rights, List.filterMap_append]
      · exact runs_of_schedule hr ht hcalls hr' ht'

end Together

end Demo

end L1Comm
