import L1Comm.Machine.Reach
import L1Comm.Receiver.Independence
import L1Comm.Shutdown

/-!
Whether the user's function can still be called. It is called for clients that
are read from, and these come through the server. A receiver with neither stays
silent until it is stopped, whoever tries to connect; any other can be made to
call the function again.
-/

namespace L1Comm.Receiver

open Uv

/-- The thread has made its server, which does not listen, and no client is
read from. -/
structure Silent (s : State) : Prop where
  entered : s.worker.pc ≠ .start
  unserved : ∀ a, ¬ Serves s.loop a

/-- The worker has been started, and not been told to stop. -/
structure Going (s : State) : Prop where
  thread : s.thread.Going
  running : Running s

/-- Nobody calls `Stop`. -/
def NotStopped (_ : State) (e : Event) : Prop := e ≠ .stopFlag

variable {s : State} {e : Event} {a : Addr}

namespace Going

theorem wellFormed (h : Going s) : WellFormed s := h.running.serving.wellFormed

theorem stop (h : Going s) : s.worker.stop = false := h.thread.stop

theorem not_stops (h : Going s) : ¬ s.thread.Stops := fun hstops => by
  cases h.stop.symm.trans (h.running.handshake.flagged hstops)

theorem usable (h : Going s) : s.loop.fate = .usable := by
  cases hfate : s.loop.fate with
  | usable => rfl
  | destroyed => exact absurd (h.running.destroyed hfate).1 h.not_stops
  | aborted => exact absurd hfate h.running.alive

theorem place (h : Going s) :
    s.worker.pc = .start ∨ s.worker.pc = .head ∨ s.worker.pc = .run := by
  rcases h.thread.place with hpc | hpc | ⟨left, hpc⟩
  · exact .inl (Pc.thread_injective hpc)
  · exact .inr (.inl (Pc.thread_injective hpc))
  · change s.worker.pc.thread = .turn left at hpc
    cases hplace : s.worker.pc <;> simp [Pc.thread, hplace] at hpc ⊢

protected theorem next (h : Going s) (henabled : machine.enabled s e) (hok : NotStopped s e) :
    Going (next s e) := by
  have hthread : (Receiver.next s e).thread.Going := drives.going h.thread henabled (by
    cases e with
    | stopFlag => exact absurd rfl hok
    | _ => simp [threadEvent])
  refine ⟨hthread, (h.running.ended_or_next henabled).resolve_left fun hended => ?_⟩
  have htold := (drives.handshake h.running.handshake henabled).flagged hended.stops
  cases hthread.stop.symm.trans htold

/-! Clients that come and speak. -/

theorem speaks (h : Going s) (hrun : s.worker.pc = .run) (ha : s.loop.reading a = true) :
    machine.Leads NotStopped (fun t => s.invoked < t.invoked) s := by
  have hdata := (h.wellFormed.reading a ha).2
  refine .step (e := .readCb a 8 (Message.buffer ⟨0, .heartbeatAndSignal, .inPlace⟩))
    ⟨.inl h.usable, hrun, ha, by simp [Message.buffer]⟩ Event.noConfusion (.here ?_)
  change s.invoked < (Receiver.next s _).invoked
  rw [invoked_readCb_of_signals ⟨by decide, by simp [Message.Calls]⟩ (by simp [hdata])]
  exact Nat.lt_succ_self _

theorem joins (h : Going s) (hrun : s.worker.pc = .run) (ha : s.loop.listening a = true) :
    machine.Leads NotStopped (fun t => t.worker.pc = .run ∧
      (∃ client, t.loop.reading client = true) ∧ t.invoked = s.invoked) s := by
  refine .step (e := .connectionCb a 0 0) ⟨.inl h.usable, hrun, ha⟩ Event.noConfusion
    (.here ⟨hrun, ⟨s.fresh, ?_⟩, ?_⟩)
  · simp [machine, Receiver.next, onConnection]
  · simp [machine, Receiver.next, onConnection]

/-- The thread comes to `uv_run`, with a server or a client. -/
theorem to_run (h : Going s) (hsilent : ¬ Silent s) :
    machine.Leads NotStopped
      (fun t => t.worker.pc = .run ∧ (∃ a, Serves t.loop a) ∧ t.invoked = s.invoked) s := by
  have hserves (hpc : s.worker.pc ≠ .start) : ∃ a, Serves s.loop a := by
    by_contra hnone
    exact hsilent ⟨hpc, fun a ha => hnone ⟨a, ha⟩⟩
  rcases h.place with hpc | hpc | hpc
  · refine ⟨[.enter 0, .test], ?_, ?_, ?_, ⟨s.fresh, .inl ?_⟩, rfl⟩ <;>
      simp [machine, Enabled, Receiver.next, enter, Loop.Permits, NotStopped, hpc, h.stop, h.usable]
  · obtain ⟨a, ha⟩ := hserves (by simp [hpc])
    refine ⟨[.test], ?_, ?_, ?_, ⟨a, ha⟩, rfl⟩ <;>
      simp [machine, Enabled, Receiver.next, Loop.Permits, NotStopped, hpc, h.stop, h.usable]
  · exact .here ⟨hpc, hserves (by simp [hpc]), rfl⟩

theorem calls (h : Going s) (hsilent : ¬ Silent s) :
    machine.Leads NotStopped (fun t => s.invoked < t.invoked) s := by
  refine ((h.to_run hsilent).and_invariant (fun _ _ => Going.next) h).trans ?_
  rintro t ⟨ht, hrun, ⟨a, ha⟩, hinvoked⟩
  rw [← hinvoked]
  rcases ha with hlistening | hreading
  · refine ((ht.joins hrun hlistening).and_invariant (fun _ _ => Going.next) ht).trans ?_
    rintro u ⟨hu, hrun', ⟨client, hclient⟩, hinvoked'⟩
    rw [← hinvoked']
    exact hu.speaks hrun' hclient
  · exact ht.speaks hrun hreading

end Going

/-- A silent receiver that nobody stops. -/
structure Unheard (called : Nat) (s : State) : Prop where
  going : Going s
  silent : Silent s
  invoked : s.invoked = called

/-- Nothing is reported to it. -/
protected theorem Unheard.next {called : Nat} (h : Unheard called s)
    (henabled : machine.enabled s e) (hok : NotStopped s e) : Unheard called (next s e) := by
  have hgoing := h.going.next henabled hok
  replace henabled := henabled.2
  have hreads : ∀ b nread buf, e ≠ .readCb b nread buf := by
    rintro b nread buf rfl
    exact h.silent.unserved b (.inr henabled.2.1)
  have hsignals : ¬ e.Signals := by
    cases e with
    | readCb b nread buf => exact absurd rfl (hreads b nread buf)
    | _ => exact id
  have hentered := h.silent.entered
  refine ⟨hgoing, ⟨?_, fun b hb => ?_⟩, ?_⟩
  · cases e with
    | start =>
        have hidle : s.worker.pc = .idle := henabled
        exact absurd h.going.place (by simp [hidle])
    | test => simp [Receiver.next, h.going.stop]
    | enter => simp [Receiver.next, enter]
    | runEnd => simp [Receiver.next]
    | exit => simp [Receiver.next, exit]
    | stopJoin => simp [Receiver.next]
    | _ => exact hentered
  · rcases serves_next hb with hold | ⟨-, ⟨ret, rfl⟩ | ⟨server, rfl⟩⟩
    · exact h.silent.unserved b hold
    · exact hentered henabled
    · exact h.silent.unserved server (.inl henabled.2)
  · rw [invoked_next_of_not_signals hsignals]
    exact h.invoked

/-- As long as nobody calls `Stop`, the user's function can be called again if
and only if the receiver is not silent. -/
theorem called_again_iff {host : String} {port : Int} {callback : Addr} {events : List Event}
    (hrun : machine.Runs (initial host port callback) events)
    (hcaller : (machine.after (initial host port callback) events).worker.caller = .started) :
    machine.Leads NotStopped
        (fun t => (machine.after (initial host port callback) events).invoked < t.invoked)
        (machine.after (initial host port callback) events) ↔
      ¬ Silent (machine.after (initial host port callback) events) := by
  have hrunning := (running_run hrun).resolve_left fun hended => by
    rcases hended.stops with hflagged | hjoining
    · cases hcaller.symm.trans hflagged
    · cases hcaller.symm.trans hjoining
  have hgoing : Going (machine.after (initial host port callback) events) :=
    ⟨hrunning.handshake.going hcaller, hrunning⟩
  refine ⟨fun hleads hsilent => ?_, hgoing.calls⟩
  exact Machine.not_leads (fun _ _ h => h.next) (fun _ h => h.invoked.not_gt)
    (⟨hgoing, hsilent, rfl⟩ : Unheard _ _) hleads

/-- The server is closed because a connection is reported with an error. -/
def deafenedRun : List Event := [.start, .enter 0, .test, .connectionCb 1 (-24) 0, .runEnd]

theorem called_again_iff_deafenedRun :
    machine.Leads NotStopped
        (fun t => (machine.after (initial "10.0.0.1" 3001 0) deafenedRun).invoked < t.invoked)
        (machine.after (initial "10.0.0.1" 3001 0) deafenedRun) ↔
      ¬ Silent (machine.after (initial "10.0.0.1" 3001 0) deafenedRun) :=
  called_again_iff (by decide) (by decide)

end L1Comm.Receiver
