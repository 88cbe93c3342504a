import L1Comm.Machine.Reach
import L1Comm.Receiver.Stop
import L1Comm.Sender.Stop
import L1Comm.Thread

/-!
Whether `Stop` comes back. The thread tests its flag at most once more before
it leaves the loop, whatever libuv reports in the meantime. Behind the loop it
closes its server, or its connect request and its socket, and there libuv
decides: a receiver gets to its end as long as nothing has closed the server
before, a sender never does.
-/

namespace L1Comm

/-! ## The receiver -/

namespace Receiver

/-- A turn of the loop is one call of `uv_run`. -/
def Pc.thread : Pc → Thread.Pc
  | .idle => .idle
  | .start => .start
  | .head => .head
  | .run => .turn 0
  | .exit => .exit
  | .done => .done

theorem Pc.thread_injective {pc pc' : Pc} (h : pc.thread = pc'.thread) : pc = pc' := by
  cases pc <;> cases pc' <;> simp_all [thread]

def State.thread (s : State) : Thread where
  stop := s.worker.stop
  caller := s.worker.caller
  pc := s.worker.pc.thread

def threadEvent (_ : State) : Event → Option Thread.Event
  | .start => some (.control .start)
  | .stopFlag => some (.control .flag)
  | .stopLoopClose => some (.control .close)
  | .stopJoin => some (.control .join)
  | .enter _ => some .enter
  | .test => some .test
  | .runEnd => some .advance
  | .exit => some .exit
  | .connectionCb .. | .readCb .. | .readErrorCb .. | .closeCb _ => none

theorem thread_matches {s : State} {e : Event} (henabled : Enabled s e) :
    machine.Matches (Thread.machine 0) State.thread threadEvent s e := by
  cases e with
  | start =>
      have hpc : s.worker.pc = .idle := henabled
      exact ⟨congrArg Pc.thread hpc, rfl⟩
  | enter ret =>
      have hpc : s.worker.pc = .start := henabled
      exact ⟨congrArg Pc.thread hpc, rfl⟩
  | test =>
      have hpc : s.worker.pc = .head := henabled
      refine ⟨congrArg Pc.thread hpc, ?_⟩
      cases hstop : s.worker.stop <;> simp [State.thread, machine, next, hstop, Pc.thread]
  | runEnd =>
      have hpc : s.worker.pc = .run := henabled
      refine ⟨⟨0, congrArg Pc.thread hpc⟩, ?_⟩
      simp [State.thread, machine, next, Pc.thread, hpc]
  | exit =>
      have hpc : s.worker.pc = .exit := henabled
      exact ⟨congrArg Pc.thread hpc, rfl⟩
  | stopFlag => exact ⟨Caller.admits_flag.mpr henabled, rfl⟩
  | stopLoopClose => exact ⟨Caller.admits_close.mpr henabled, rfl⟩
  | stopJoin => exact ⟨⟨henabled.1, congrArg Pc.thread henabled.2⟩, rfl⟩
  | connectionCb | readCb | readErrorCb | closeCb => rfl

theorem drives : Thread.Drives machine State.thread threadEvent 0 :=
  fun _ _ henabled => thread_matches henabled.2

variable {s : State} {e : Event}

theorem idle_iff (h : Thread.Handshake 0 s.thread) :
    s.worker.pc = .idle ↔ s.worker.caller = .stopped := by
  refine Iff.trans ⟨fun hpc => ?_, fun hpc => ?_⟩ h.idle
  · exact congrArg Pc.thread hpc
  · exact Pc.thread_injective hpc

/-- A receiver that nothing keeps from coming back from `Stop`: its loop has not
been destroyed, and its server, once there is one, is open. -/
structure Stoppable (s : State) : Prop where
  usable : s.loop.fate = .usable
  server : s.worker.pc.Live → s.loop.stage s.worker.server = .opened

/-- The steps of a thread that has been told to stop, from where it is. -/
def finish : Pc → List Event
  | .start => [.enter 0, .test, .exit]
  | .head => [.test, .exit]
  | .run => [.runEnd, .test, .exit]
  | .exit => [.exit]
  | .idle | .done => []

theorem finish_runs (h : Stoppable s) (hstop : s.worker.stop = true)
    (hidle : s.worker.pc ≠ .idle) :
    machine.Runs s (finish s.worker.pc) ∧
      (machine.after s (finish s.worker.pc)).worker.pc = .done ∧
      (machine.after s (finish s.worker.pc)).worker.caller = s.worker.caller ∧
      (machine.after s (finish s.worker.pc)).loop.fate = .usable := by
  have husable := h.usable
  have hserver := h.server
  cases hpc : s.worker.pc with
  | idle => exact absurd hpc hidle
  | done => simp [finish, hpc, husable]
  | start =>
      simp [finish, machine, Enabled, Receiver.next, enter, exit, Uv.Loop.Permits, hpc, hstop,
        husable]
  | head | run | exit =>
      have hopen := hserver (by simp [Pc.Live, hpc])
      simp [finish, machine, Enabled, Receiver.next, exit, Uv.Loop.Permits, hpc, hstop, husable,
        hopen]

/-- What is left to do of `Stop`, if the caller waits for the thread. -/
def stopRun (s : State) : List Event :=
  match s.worker.caller with
  | .stopped => []
  | .started => .stopFlag :: (finish s.worker.pc ++ [.stopLoopClose, .stopJoin])
  | .flagged => finish s.worker.pc ++ [.stopLoopClose, .stopJoin]
  | .joining => finish s.worker.pc ++ [.stopJoin]

theorem close_join_runs (hdone : s.worker.pc = .done) (hcaller : s.worker.caller = .flagged)
    (hfate : s.loop.fate = .usable) :
    machine.Runs s [.stopLoopClose, .stopJoin] ∧
      (machine.after s [.stopLoopClose, .stopJoin]).worker.caller = .stopped ∧
      (machine.after s [.stopLoopClose, .stopJoin]).loop.fate ≠ .aborted := by
  by_cases hret : loopCloseRet s.loop = 0 <;>
    simp [machine, Enabled, next, Uv.Loop.Permits, Event.usesLoop, hdone, hcaller, hfate, hret]

theorem flagged_runs (h : Stoppable s) (hstop : s.worker.stop = true)
    (hidle : s.worker.pc ≠ .idle) (hcaller : s.worker.caller = .flagged) :
    machine.Runs s (finish s.worker.pc ++ [.stopLoopClose, .stopJoin]) ∧
      (machine.after s (finish s.worker.pc ++ [.stopLoopClose, .stopJoin])).worker.caller =
        .stopped ∧
      (machine.after s (finish s.worker.pc ++ [.stopLoopClose, .stopJoin])).loop.fate ≠
        .aborted := by
  obtain ⟨hruns, hdone, hsame, hfate⟩ := finish_runs h hstop hidle
  obtain ⟨hlast, hend⟩ := close_join_runs hdone (hsame.trans hcaller) hfate
  refine ⟨(Machine.along_append _ _).mpr ⟨hruns, hlast⟩, ?_⟩
  rw [Machine.after_append]
  exact hend

theorem stopRun_runs (h : Stoppable s) (hs : Thread.Handshake 0 s.thread) :
    machine.Runs s (stopRun s) ∧ (machine.after s (stopRun s)).worker.caller = .stopped ∧
      (machine.after s (stopRun s)).loop.fate ≠ .aborted := by
  have hidle (hother : s.worker.caller ≠ .stopped) : s.worker.pc ≠ .idle :=
    mt (idle_iff hs).mp hother
  have hflagged : s.worker.caller = .flagged ∨ s.worker.caller = .joining →
      s.worker.stop = true := hs.flagged
  rw [stopRun]
  cases hcaller : s.worker.caller with
  | stopped => exact ⟨trivial, hcaller, by simp [h.usable]⟩
  | started =>
      obtain ⟨hruns, hend⟩ := flagged_runs (s := next s .stopFlag) ⟨h.usable, h.server⟩ rfl
        (hidle (by simp [hcaller])) rfl
      exact ⟨⟨⟨.inl h.usable, hcaller⟩, hruns⟩, hend⟩
  | flagged =>
      exact flagged_runs h (hflagged (.inl hcaller)) (hidle (by simp [hcaller])) hcaller
  | joining =>
      obtain ⟨hruns, hdone, hsame, hfate⟩ := finish_runs h (hflagged (.inr hcaller))
        (hidle (by simp [hcaller]))
      refine ⟨(Machine.along_append _ _).mpr ⟨hruns, ?_⟩, ?_⟩
      · exact ⟨⟨.inl hfate, hsame.trans hcaller, hdone⟩, trivial⟩
      · rw [Machine.after_append]
        refine ⟨rfl, ?_⟩
        change (machine.after s (finish s.worker.pc)).loop.fate ≠ .aborted
        simp [hfate]

/-- A thread that will not return: it cannot make a server in a loop that has
been destroyed, or libuv aborts when it closes its server again. -/
def Lost (s : State) : Prop :=
  s.loop.fate = .destroyed ∧ s.worker.pc = .start ∨
    s.worker.pc.Live ∧ ConnectionFailed s.trace s.worker.server

theorem lost_next (hserving : Serving s) (henabled : machine.enabled s e) (h : Lost s) :
    (next s e).loop.fate = .aborted ∨ Lost (next s e) := by
  obtain ⟨hpermits, henabled⟩ := henabled
  rcases h with ⟨hdestroyed, hpc⟩ | ⟨hlive, hfailed⟩
  · have hidle : e.usesLoop = false := by simpa [Uv.Loop.Permits, hdestroyed] using hpermits
    cases e with
    | stopFlag => exact .inr (.inl ⟨hdestroyed, hpc⟩)
    | start | test | exit | stopJoin => simp [Enabled, hpc] at henabled
    | enter | connectionCb | readCb | readErrorCb | closeCb | runEnd | stopLoopClose =>
        exact absurd hidle (by simp [Event.usesLoop])
  · by_cases hexit : e = .exit
    · subst hexit
      have hclosed : s.loop.stage s.worker.server ≠ .opened := fun hopen =>
        (hserving.lawful.server hlive).mp hopen hfailed
      exact .inl (by simp [next, exit, hclosed])
    · right
      right
      have hne : ∀ ret, e ≠ .enter ret := by
        rintro ret rfl
        have hpc : s.worker.pc = .start := henabled
        simp [Pc.Live, hpc] at hlive
      rw [server_next hne, connectionFailed_next]
      refine ⟨?_, .inl hfailed⟩
      cases e with
      | enter ret => exact absurd rfl (hne ret)
      | exit => exact absurd rfl hexit
      | test =>
          simp only [next]
          split <;> simp [Pc.Live]
      | runEnd => exact .inl rfl
      | start =>
          have hpc : s.worker.pc = .idle := henabled
          simp [Pc.Live, hpc] at hlive
      | stopJoin => simp [Pc.Live, henabled.2] at hlive
      | connectionCb | readCb | readErrorCb | closeCb | stopFlag | stopLoopClose => exact hlive

/-- A process that goes on: its loop is destroyed only by a `Stop` that will not
come back. -/
structure Running (s : State) : Prop where
  serving : Serving s
  handshake : Thread.Handshake 0 s.thread
  alive : s.loop.fate ≠ .aborted
  destroyed : s.loop.fate = .destroyed → s.thread.Stops ∧ Lost s

/-- Libuv has aborted, in a thread that has been told to stop. -/
structure Ended (s : State) : Prop where
  aborted : s.loop.fate = .aborted
  stops : s.thread.Stops

theorem not_enabled_of_ended (s : State) (e : Event) (h : Ended s) : ¬ machine.enabled s e :=
  not_enabled_of_aborted s e h.aborted

theorem running_initial (host : String) (port : Int) (callback : Uv.Addr) :
    Running (initial host port callback) :=
  ⟨serving_initial host port callback, Thread.handshake_initial, by simp [initial],
    by simp [initial]⟩

/-- Everything that is closed has been opened, but for the server at the end. -/
theorem exit_of_aborted (h : Lawful s) (henabled : machine.enabled s e)
    (habort : (next s e).loop.fate = .aborted) : e = .exit := by
  by_contra hexit
  have hok : ExitSafe s e := by
    cases e with
    | exit => exact absurd rfl hexit
    | _ => trivial
  rw [loop_next e h.replayed] at habort
  exact Uv.not_aborted_of_runs (h.legal_calls henabled.2 hok) henabled.1.not_aborted habort

theorem destroyed_next (hreplayed : s.Replayed)
    (hdestroyed : (next s e).loop.fate = .destroyed) :
    s.loop.fate = .destroyed ∨ e = .stopLoopClose ∧ s.loop.queue = [] := by
  rw [loop_next e hreplayed] at hdestroyed
  refine (Uv.destroyed_of_after hdestroyed).imp_right fun hclose => ?_
  cases e with
  | stopLoopClose =>
      have hret : loopCloseRet s.loop = 0 := by simpa [calls, eq_comm] using hclose
      exact ⟨rfl, loopCloseRet_eq_zero.mp hret⟩
  | connectionCb server status ret =>
      by_cases hstatus : status = 0
      · by_cases hret : ret = 0 <;> simp [calls, hstatus, hret] at hclose
      · simp [calls, hstatus] at hclose
  | readCb a nread buf => by_cases hnread : nread < 0 <;> simp [calls, hnread] at hclose
  | _ => simp [calls] at hclose

namespace Running

/-- An empty loop has no server that is open. -/
theorem lost_of_empty (h : Running s) (henabled : Enabled s .stopLoopClose)
    (hempty : s.loop.queue = []) : s.worker.pc = .start ∨
      s.worker.pc.Live ∧ ConnectionFailed s.trace s.worker.server := by
  have hcaller : s.worker.caller = .flagged := henabled
  have hout {a : Uv.Addr} (ha : a ∈ s.loop.queue) : False := by simp [hempty] at ha
  have hlive (hlive : s.worker.pc.Live) : ConnectionFailed s.trace s.worker.server := by
    by_contra hnone
    have hopen := (h.serving.lawful.server hlive).mpr hnone
    exact hout (h.serving.accounted.mem_queue (.inl hopen))
  cases hpc : s.worker.pc with
  | idle =>
      have hstopped : s.worker.caller = .stopped :=
        h.handshake.idle.mp (congrArg Pc.thread hpc)
      simp [hcaller] at hstopped
  | start => exact .inl rfl
  | done => exact (hout (h.serving.server_left hpc).1).elim
  | head | run | exit => exact .inr ⟨by simp [Pc.Live], hlive (by simp [Pc.Live, hpc])⟩

/-- A thread that will not return is not joined. -/
theorem stops_next (h : Running s) (henabled : Enabled s e) (hstops : s.thread.Stops)
    (hlost : Lost s) : (next s e).thread.Stops := by
  cases e with
  | start =>
      have hcaller := (idle_iff h.handshake).mp henabled
      rcases hstops with hflagged | hjoining
      · cases hcaller.symm.trans hflagged
      · cases hcaller.symm.trans hjoining
  | stopJoin =>
      rcases hlost with ⟨-, hpc⟩ | ⟨hlive, -⟩
      · cases henabled.2.symm.trans hpc
      · simp [Pc.Live, henabled.2] at hlive
  | stopFlag => exact .inl rfl
  | stopLoopClose => exact .inr rfl
  | enter | test | connectionCb | readCb | readErrorCb | closeCb | runEnd | exit => exact hstops

theorem ended_or_next (h : Running s) (henabled : machine.enabled s e) :
    Ended (next s e) ∨ Running (next s e) := by
  by_cases habort : (next s e).loop.fate = .aborted
  · obtain rfl := exit_of_aborted h.serving.lawful henabled habort
    exact .inl ⟨habort, h.handshake.stops_of_exit (congrArg Pc.thread henabled.2)⟩
  · refine .inr ⟨(h.serving.aborted_or_next henabled).resolve_left habort,
      drives.handshake h.handshake henabled, habort, fun hdestroyed => ?_⟩
    rcases destroyed_next h.serving.lawful.replayed hdestroyed with hbefore | ⟨rfl, hempty⟩
    · obtain ⟨hstops, hlost⟩ := h.destroyed hbefore
      exact ⟨h.stops_next henabled.2 hstops hlost,
        (lost_next h.serving henabled hlost).resolve_left habort⟩
    · refine ⟨.inr rfl, ?_⟩
      rcases h.lost_of_empty henabled.2 hempty with hpc | ⟨hlive, hfailed⟩
      · exact .inl ⟨hdestroyed, hpc⟩
      · refine .inr ⟨hlive, ?_⟩
        rw [server_next (by simp), connectionFailed_next]
        exact .inl hfailed

theorem stoppable_or_lost (h : Running s) : Stoppable s ∨ Lost s := by
  refine Classical.or_iff_not_imp_right.mpr fun hlost => ⟨?_, fun hlive => ?_⟩
  · cases hfate : s.loop.fate with
    | usable => rfl
    | destroyed => exact absurd (h.destroyed hfate).2 hlost
    | aborted => exact absurd hfate h.alive
  · by_contra hclosed
    have hfailed := not_not.mp (mt (h.serving.lawful.server hlive).mpr hclosed)
    exact hlost (.inr ⟨hlive, hfailed⟩)

end Running

theorem running_run {host : String} {port : Int} {callback : Uv.Addr} {events : List Event}
    (hrun : machine.Runs (initial host port callback) events) :
    Ended (machine.after (initial host port callback) events) ∨
      Running (machine.after (initial host port callback) events) :=
  Machine.invariant_until (m := machine) not_enabled_of_ended
    (fun _ _ h henabled => h.ended_or_next henabled) (running_initial host port callback) hrun

/-- A thread that will not return is waited for until the process ends. -/
def Doomed (s : State) : Prop := Ended s ∨ Running s ∧ Lost s

namespace Doomed

protected theorem next (h : Doomed s) (henabled : machine.enabled s e) : Doomed (next s e) := by
  rcases h with hended | ⟨hrunning, hlost⟩
  · exact absurd henabled (not_enabled_of_ended s e hended)
  · refine (hrunning.ended_or_next henabled).imp_right fun hnext => ⟨hnext, ?_⟩
    exact (lost_next hrunning.serving henabled hlost).resolve_left hnext.alive

theorem not_stopped (h : Doomed s) : s.worker.caller ≠ .stopped := by
  intro hstopped
  rcases h with ⟨-, hflagged | hjoining⟩ | ⟨hrunning, hlost⟩
  · cases hstopped.symm.trans hflagged
  · cases hstopped.symm.trans hjoining
  · have hpc := (idle_iff hrunning.handshake).mpr hstopped
    rcases hlost with ⟨-, hstart⟩ | ⟨hlive, -⟩
    · cases hpc.symm.trans hstart
    · simp [Pc.Live, hpc] at hlive

end Doomed

/-- A call of `Stop` can come back, or there is none. -/
def CanStop (s : State) : Prop :=
  machine.Leads machine.enabled (fun t => t.worker.caller = .stopped) s

theorem can_stop_iff {host : String} {port : Int} {callback : Uv.Addr} {events : List Event}
    (hrun : machine.Runs (initial host port callback) events) :
    CanStop (machine.after (initial host port callback) events) ↔
      Stoppable (machine.after (initial host port callback) events) := by
  have hs := running_run hrun
  generalize machine.after (initial host port callback) events = s at hs
  constructor
  · intro hreturns
    by_contra hclosed
    refine Machine.not_leads (fun _ _ h henabled _ => Doomed.next h henabled)
      (fun _ h => h.not_stopped) ?_ hreturns
    exact hs.imp_right fun hrunning =>
      ⟨hrunning, hrunning.stoppable_or_lost.resolve_left hclosed⟩
  · intro hstoppable
    have hrunning := hs.resolve_left fun hended => by
      cases hended.aborted.symm.trans hstoppable.usable
    obtain ⟨hruns, hstopped, -⟩ := stopRun_runs hstoppable hrunning.handshake
    exact ⟨stopRun s, hruns, hruns, hstopped⟩

end Receiver

/-! ## The sender -/

namespace Sender

/-- A turn of the loop is its body and one call of `uv_run`. -/
def Pc.thread : Pc → Thread.Pc
  | .idle => .idle
  | .start => .start
  | .head => .head
  | .body => .turn 1
  | .run => .turn 0
  | .exit => .exit
  | .done => .done

theorem Pc.thread_injective {pc pc' : Pc} (h : pc.thread = pc'.thread) : pc = pc' := by
  cases pc <;> cases pc' <;> simp_all [thread]

def State.thread (s : State) : Thread where
  stop := s.worker.stop
  caller := s.worker.caller
  pc := s.worker.pc.thread

/-- A thread in which libuv aborts has not come to its end. -/
def threadEvent (s : State) : Event → Option Thread.Event
  | .start => some (.control .start)
  | .stopFlag => some (.control .flag)
  | .stopLoopClose => some (.control .close)
  | .stopJoin => some (.control .join)
  | .enter => some .enter
  | .test => some .test
  | .body _ | .runEnd => some .advance
  | .exit => if (exit s).worker.pc = .done then some .exit else none
  | .connectCb .. | .writeCb .. | .timerCb .. | .closeCb _ => none

theorem thread_matches {s : State} {e : Event} (henabled : Enabled s e) :
    machine.Matches (Thread.machine 1) State.thread threadEvent s e := by
  cases e with
  | start =>
      have hpc : s.worker.pc = .idle := henabled
      exact ⟨congrArg Pc.thread hpc, rfl⟩
  | enter =>
      have hpc : s.worker.pc = .start := henabled
      exact ⟨congrArg Pc.thread hpc, rfl⟩
  | test =>
      have hpc : s.worker.pc = .head := henabled
      refine ⟨congrArg Pc.thread hpc, ?_⟩
      cases hstop : s.worker.stop <;> simp [State.thread, machine, next, hstop, Pc.thread]
  | body ret =>
      have hpc : s.worker.pc = .body := henabled
      refine ⟨⟨1, congrArg Pc.thread hpc⟩, ?_⟩
      by_cases hstatus : s.conn.status = .disconnect <;>
        simp [State.thread, machine, next, body, reconnect, hstatus, Pc.thread, hpc]
  | runEnd =>
      have hpc : s.worker.pc = .run := henabled
      refine ⟨⟨0, congrArg Pc.thread hpc⟩, ?_⟩
      simp [State.thread, machine, next, Pc.thread, hpc]
  | exit =>
      have hpc : s.worker.pc = .exit := henabled
      rcases exit_worker s with hsame | hdone
      · have hlabel : threadEvent s .exit = none := by simp [threadEvent, hsame, hpc]
        simp [Machine.Matches, hlabel, State.thread, machine, next, hsame]
      · have hlabel : threadEvent s .exit = some .exit := by simp [threadEvent, hdone]
        simp [Machine.Matches, hlabel, State.thread, machine, next, hdone, hpc, Pc.thread]
  | stopFlag => exact ⟨Caller.admits_flag.mpr henabled, rfl⟩
  | stopLoopClose => exact ⟨Caller.admits_close.mpr henabled, rfl⟩
  | stopJoin => exact ⟨⟨henabled.1, congrArg Pc.thread henabled.2⟩, rfl⟩
  | connectCb | writeCb | timerCb | closeCb => rfl

theorem drives : Thread.Drives machine State.thread threadEvent 1 :=
  fun _ _ henabled => thread_matches henabled.2

/-- A call of `Stop` can come back, or there is none. -/
def CanStop (s : State) : Prop :=
  machine.Leads machine.enabled (fun t => t.worker.caller = .stopped) s

variable {s : State} {e : Event}

theorem Unreturned.caller_next (h : Unreturned s) (henabled : Enabled s e)
    (hcaller : s.worker.caller ≠ .stopped) : (next s e).worker.caller ≠ .stopped := by
  rw [Sender.caller_next]
  cases e with
  | stopJoin => exact absurd rfl (h.not_join henabled)
  | start | stopFlag | stopLoopClose => simp
  | _ => exact hcaller

/-- A sender outside `Stop` is in a process that can go on. -/
structure Running (s : State) : Prop where
  unreturned : Unreturned s
  handshake : Thread.Handshake 1 s.thread
  usable : ¬ s.thread.Stops → s.loop.fate = .usable

theorem running_initial (host : String) (port : Int) : Running (initial host port) :=
  ⟨unreturned_initial host port, Thread.handshake_initial, fun _ => rfl⟩

namespace Running

protected theorem next (h : Running s) (henabled : machine.enabled s e) : Running (next s e) := by
  refine ⟨h.unreturned.next henabled.2, drives.handshake h.handshake henabled, fun hstops => ?_⟩
  have husable := h.usable
  rw [h.unreturned.wellFormed.fate_next henabled.2]
  change ¬ ((next s e).worker.caller = .flagged ∨ (next s e).worker.caller = .joining) at hstops
  rw [caller_next] at hstops
  cases e with
  | exit => exact absurd (h.handshake.stops_of_exit (congrArg Pc.thread henabled.2)) hstops
  | stopFlag | stopLoopClose => simp at hstops
  | stopJoin => exact absurd rfl (h.unreturned.not_join henabled.2)
  | start =>
      have hcaller : s.worker.caller = .stopped := h.unreturned.idle.mp henabled.2
      exact husable (by simp [Thread.Stops, State.thread, hcaller])
  | enter | test | body | connectCb | writeCb | timerCb | closeCb | runEnd => exact husable hstops

end Running

theorem running_run {host : String} {port : Int} {events : List Event}
    (hrun : machine.Runs (initial host port) events) :
    Running (machine.after (initial host port) events) :=
  Machine.invariant (m := machine) (fun _ _ h henabled => h.next henabled)
    (running_initial host port) hrun

theorem can_stop_iff {host : String} {port : Int} {events : List Event}
    (hrun : machine.Runs (initial host port) events) :
    CanStop (machine.after (initial host port) events) ↔
      (machine.after (initial host port) events).worker.caller = .stopped := by
  refine ⟨fun hreturns => ?_, fun hstopped => Machine.Leads.here hstopped⟩
  by_contra hcaller
  exact Machine.not_leads (m := machine)
    (I := fun s => Unreturned s ∧ s.worker.caller ≠ .stopped)
    (fun _ _ h henabled _ => ⟨h.1.next henabled.2, h.1.caller_next henabled.2 h.2⟩)
    (fun _ h => h.2) ⟨unreturned_run hrun, hcaller⟩ hreturns

end Sender

/-! ## Both -/

/-- In every state of a run of a receiver `Stop` can come back if and only if
libuv has not destroyed the loop, and the server of a thread that has not
returned is open. That of a sender never can. And once `Stop` has been called,
the thread and its caller take no more than five or six further steps. -/
theorem stop_returns_iff {host host' : String} {port port' : Int} {callback : Uv.Addr}
    {events : List Receiver.Event} {events' : List Sender.Event}
    (hreceiver : Receiver.machine.Runs (Receiver.initial host port callback) events)
    (hsender : Sender.machine.Runs (Sender.initial host' port') events') :
    Receiver.machine.Always (fun s =>
        (Receiver.CanStop s ↔ Receiver.Stoppable s) ∧
          (s.worker.caller ≠ .started →
            Thread.StopTakes Receiver.machine Receiver.threadEvent 5 s))
        (Receiver.initial host port callback) events ∧
      Sender.machine.Always (fun s =>
        (Sender.CanStop s ↔ s.worker.caller = .stopped) ∧
          (s.worker.caller ≠ .started → Thread.StopTakes Sender.machine Sender.threadEvent 6 s))
        (Sender.initial host' port') events' := by
  constructor
  · intro taken htaken
    have hrun := hreceiver.of_prefix htaken
    have hs := Machine.invariant (I := fun s => Thread.Handshake 0 (Receiver.State.thread s))
      (fun _ _ => Receiver.drives.handshake) Thread.handshake_initial hrun
    exact ⟨Receiver.can_stop_iff hrun, Receiver.drives.stopTakes hs⟩
  · intro taken htaken
    have hrun := hsender.of_prefix htaken
    have hs := Machine.invariant (I := fun s => Thread.Handshake 1 (Sender.State.thread s))
      (fun _ _ => Sender.drives.handshake) Thread.handshake_initial hrun
    exact ⟨Sender.can_stop_iff hrun, Sender.drives.stopTakes hs⟩

/-- `Stop` waits, and the thread is in a turn of its loop. -/
def Receiver.waitingRun : List Receiver.Event :=
  [.start, .enter 0, .test, .stopFlag, .stopLoopClose]

def Sender.waitingRun : List Sender.Event :=
  [.start, .enter, .test, .body 0, .stopFlag, .stopLoopClose]

theorem stop_returns_iff_waitingRun :
    Receiver.machine.Always (fun s =>
        (Receiver.CanStop s ↔ Receiver.Stoppable s) ∧
          (s.worker.caller ≠ .started →
            Thread.StopTakes Receiver.machine Receiver.threadEvent 5 s))
        (Receiver.initial "10.0.0.1" 3001 0) Receiver.waitingRun ∧
      Sender.machine.Always (fun s =>
        (Sender.CanStop s ↔ s.worker.caller = .stopped) ∧
          (s.worker.caller ≠ .started → Thread.StopTakes Sender.machine Sender.threadEvent 6 s))
        (Sender.initial "10.0.0.2" 3011) Sender.waitingRun :=
  stop_returns_iff (by decide) (by decide)

end L1Comm
