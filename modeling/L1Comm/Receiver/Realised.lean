import L1Comm.Receiver.Service
import L1Comm.Shutdown

/-!
The service has no run too many, as long as its process lasts. An error that
libuv reports for the server closes it, and the service goes on without new
clients; but when the service is closed after that, the thread closes the server
again, libuv aborts, and nothing follows. All other runs of the service are
those of some receiver.

The receiver is one whose calls of `uv_run` are prompt: each makes all the
close callbacks that are due.
-/

namespace L1Comm.Receiver

open Uv

/-! ## The service in its process -/

namespace Service

/-- What an error has done to the server, and what becomes of the process. -/
inductive Health where
  | sound | failing | dead
  deriving DecidableEq

@[simp] def Health.next : Health → Service.Event → Health
  | _, .deafened => .failing
  | .failing, .closed => .dead
  | health, _ => health

/-- The service up to the end of the process. -/
def lasting : Machine (Service × Health) Service.Event where
  enabled p f := p.2 ≠ .dead ∧ p.1.Enabled f
  next p f := (p.1.next f, p.2.next f)

end Service

def State.health (s : State) : Service.Health :=
  if s.loop.fate = .aborted then .dead
  else if s.worker.pc.Live ∧ s.loop.stage s.worker.server ≠ .opened then .failing
  else .sound

def State.lasting (s : State) : Service × Service.Health := (s.service, s.health)

/-- A call of `uv_run` ends when no close callback is due. -/
def Prompt (s : State) (e : Event) : Prop := e = .runEnd → ∀ a, s.loop.stage a ≠ .closing

variable {s : State} {e : Event}

/-! ## What a step is to the process -/

/-- The server of the thread has been closed by an error. -/
def Failing (s : State) : Prop :=
  s.worker.pc.Live ∧ ConnectionFailed s.trace s.worker.server

theorem Running.health_eq (h : Running s) :
    (Failing s → s.health = .failing) ∧ (¬ Failing s → s.health = .sound) := by
  rw [State.health, if_neg h.alive]
  constructor
  · rintro ⟨hlive, hfailed⟩
    exact if_pos ⟨hlive, fun hopen => (h.serving.lawful.server hlive).mp hopen hfailed⟩
  · intro hnot
    refine if_neg fun hfailing => hnot ⟨hfailing.1, ?_⟩
    exact not_not.mp (mt (h.serving.lawful.server hfailing.1).mpr hfailing.2)

/-- A step that is neither of the ends of `thread_task`, nor an error of the
server, leaves it as it is. -/
theorem failing_next (henabled : Enabled s e) (henter : ∀ ret, e ≠ .enter ret)
    (hexit : e ≠ .exit) (hevent : serviceEvent s e ≠ some .deafened) :
    Failing (next s e) ↔ Failing s := by
  have hlive : (next s e).worker.pc.Live ↔ s.worker.pc.Live := by
    cases e with
    | enter ret => exact absurd rfl (henter ret)
    | exit => exact absurd rfl hexit
    | start =>
        have hidle : s.worker.pc = .idle := henabled
        simp [next, Pc.Live, hidle]
    | test =>
        have hhead : s.worker.pc = .head := henabled
        simp only [next, Pc.Live, hhead]
        split <;> simp
    | runEnd =>
        have hrun : s.worker.pc = .run := henabled
        simp [next, Pc.Live, hrun]
    | stopJoin => simp [next, Pc.Live, henabled.2]
    | connectionCb | readCb | readErrorCb | closeCb | stopFlag | stopLoopClose => exact Iff.rfl
  rw [Failing, Failing, hlive, server_next henter, connectionFailed_next]
  refine and_congr_right fun _ => ⟨fun hfailed => hfailed.resolve_right ?_, .inl⟩
  rintro ⟨status, ret, rfl, hstatus⟩
  exact hevent (by simp [serviceEvent, hstatus])

theorem exit_of_closed (hevent : serviceEvent s e = some .closed) : e = .exit := by
  cases e with
  | exit => rfl
  | connectionCb server status ret =>
      by_cases hstatus : status = 0
      · by_cases hret : ret = 0 <;> simp [serviceEvent, hstatus, hret] at hevent
      · simp [serviceEvent, hstatus] at hevent
  | readCb a nread buf => by_cases hnread : nread < 0 <;> simp [serviceEvent, hnread] at hevent
  | _ => simp [serviceEvent] at hevent

/-! What a step does to the health, with the steps in the order of `thread_task`. -/

namespace Running

/-- A new server has had no error. -/
theorem health_enter (h : Running s) {ret : Int} (henabled : Enabled s (.enter ret))
    (hnext : Running (next s (.enter ret))) :
    s.health = .sound ∧ (next s (.enter ret)).health = .sound := by
  have hpc : s.worker.pc = .start := henabled
  refine ⟨h.health_eq.2 fun hbad => ?_, hnext.health_eq.2 ?_⟩
  · simpa [Pc.Live, hpc] using hbad.1
  · rintro ⟨-, hfailed⟩
    rcases connectionFailed_next.mp hfailed with hbefore | ⟨_, _, he, -⟩
    · exact Nat.lt_irrefl _ (h.serving.lawful.failed_lt _ hbefore)
    · cases he

theorem health_deafened (h : Running s) (henabled : Enabled s e) (hnext : Running (next s e))
    (hevent : serviceEvent s e = some .deafened) : (next s e).health = .failing := by
  cases e with
  | connectionCb server status ret =>
      have hstatus : status ≠ 0 := by
        rintro rfl
        by_cases hret : ret = 0 <;> simp [serviceEvent, hret] at hevent
      obtain ⟨hlive, rfl⟩ := h.serving.wellFormed.listening server henabled.2
      exact hnext.health_eq.1
        ⟨hlive, connectionFailed_next.mpr (.inr ⟨status, ret, rfl, hstatus⟩)⟩
  | readCb a nread buf => by_cases hnread : nread < 0 <;> simp [serviceEvent, hnread] at hevent
  | _ => simp [serviceEvent] at hevent

/-- libuv aborts when a server that an error has closed is closed again. -/
theorem health_exit (h : Running s) (henabled : Enabled s .exit) :
    (s.health = .failing ∧ (next s .exit).health = .dead) ∨
      (s.health = .sound ∧ (next s .exit).health = .sound) := by
  have hpc : s.worker.pc = .exit := henabled
  have hlive : s.worker.pc.Live := .inr (.inr hpc)
  have halive := h.alive
  by_cases hopen : s.loop.stage s.worker.server = .opened
  · right
    simp [State.health, next, exit, Pc.Live, hopen, halive]
  · left
    simp [State.health, next, exit, hopen, halive, hlive]

theorem health_kept (h : Running s) (henabled : Enabled s e) (hnext : Running (next s e))
    (henter : ∀ ret, e ≠ .enter ret) (hexit : e ≠ .exit)
    (hevent : serviceEvent s e ≠ some .deafened) : (next s e).health = s.health := by
  have hsame := failing_next henabled henter hexit hevent
  by_cases hbad : Failing s
  · rw [h.health_eq.1 hbad, hnext.health_eq.1 (hsame.mpr hbad)]
  · rw [h.health_eq.2 hbad, hnext.health_eq.2 (mt hsame.mp hbad)]

end Running

/-- Only the end of a service whose server has failed ends the process. -/
theorem health_next_eq {health : Service.Health} {f : Service.Event} (hdeafened : f ≠ .deafened)
    (hclosed : f ≠ .closed) : health.next f = health := by
  cases f with
  | deafened => exact absurd rfl hdeafened
  | closed => exact absurd rfl hclosed
  | _ => cases health <;> rfl

theorem matches_health (h : Running s) (henabled : machine.enabled s e) :
    (next s e).health = match serviceEvent s e with
      | none => s.health
      | some f => s.health.next f := by
  by_cases hexit : e = .exit
  · subst hexit
    rcases h.health_exit henabled.2 with ⟨hbefore, hafter⟩ | ⟨hbefore, hafter⟩ <;>
      simp [serviceEvent, hbefore, hafter]
  have hnext : Running (next s e) := (h.ended_or_next henabled).resolve_left fun hended =>
    hexit (exit_of_aborted h.serving.lawful henabled hended.aborted)
  by_cases henter : ∃ ret, e = .enter ret
  · obtain ⟨ret, rfl⟩ := henter
    obtain ⟨hbefore, hafter⟩ := h.health_enter henabled.2 hnext
    simp [serviceEvent, hbefore, hafter]
  cases hevent : serviceEvent s e with
  | none =>
      exact h.health_kept henabled.2 hnext (fun ret he => henter ⟨ret, he⟩) hexit (by simp [hevent])
  | some f =>
      by_cases hdeafened : f = .deafened
      · subst hdeafened
        rw [h.health_deafened henabled.2 hnext hevent]
        cases s.health <;> rfl
      · have hclosed : f ≠ .closed := by
          rintro rfl
          exact hexit (exit_of_closed hevent)
        have hkept := h.health_kept henabled.2 hnext (fun ret he => henter ⟨ret, he⟩) hexit
          (by simp [hevent, hdeafened])
        exact hkept.trans (health_next_eq hdeafened hclosed).symm

/-! ## How the events of the service come about -/

/-- A receiver that has not been started, or is at the head of its loop, where no
close callback is due. -/
structure Ready (s : State) : Prop where
  running : Running s
  ordered : Ordered s
  place : (s.worker.pc = .idle ∧ s.worker.caller = .stopped) ∨
    (s.worker.pc = .head ∧ s.worker.stop = false ∧ s.worker.caller = .started)
  settled : ∀ a, s.loop.stage a = .closing → s.worker.pc = .idle ∧ a = s.worker.server

/-- The event can be made to happen, and leaves the receiver ready for the next
or ends the process. -/
def Realisable (s : State) (f : Service.Event) : Prop :=
  ∃ events, machine.Runs s events ∧ machine.Along Prompt s events ∧
    machine.image serviceEvent s events = [f] ∧
      ((machine.after s events).loop.fate = .aborted ∨ Ready (machine.after s events))

/-- The end of a `uv_run` in which one close callback is due at most. -/
def flush (s : State) (a : Addr) : List Event :=
  if s.loop.stage a = .closing then [.closeCb a, .runEnd] else [.runEnd]

theorem flush_runs {a : Addr} (hpc : s.worker.pc = .run) (husable : s.loop.fate = .usable)
    (honly : ∀ b, s.loop.stage b = .closing → b = a) :
    machine.Runs s (flush s a) ∧ machine.Along Prompt s (flush s a) ∧
      machine.image serviceEvent s (flush s a) = [] ∧
      (machine.after s (flush s a)).worker = {s.worker with pc := .head} ∧
      (machine.after s (flush s a)).loop.fate = .usable ∧
      ∀ b, (machine.after s (flush s a)).loop.stage b ≠ .closing := by
  rw [flush]
  split_ifs with hclosing
  · have hsettled : ∀ b, (next s (.closeCb a)).loop.stage b ≠ .closing := by
      intro b hb
      by_cases hab : a = b
      · subst hab
        simp [next, onClose] at hb
      · simp [next, onClose, hab] at hb
        exact hab (honly b hb).symm
    exact ⟨⟨⟨.inl husable, hpc, hclosing⟩, ⟨.inl husable, hpc⟩, trivial⟩,
      ⟨Event.noConfusion, fun _ => hsettled, trivial⟩, rfl, rfl, husable, hsettled⟩
  · have hsettled : ∀ b, s.loop.stage b ≠ .closing := fun b hb => hclosing (honly b hb ▸ hb)
    exact ⟨⟨⟨.inl husable, hpc⟩, trivial⟩, ⟨fun _ => hsettled, trivial⟩, rfl, rfl,
      husable, hsettled⟩

namespace Ready

theorem usable (h : Ready s) : s.loop.fate = .usable := by
  cases hfate : s.loop.fate with
  | usable => rfl
  | aborted => exact absurd hfate h.running.alive
  | destroyed =>
      have hstops : s.thread.Stops := (h.running.destroyed hfate).1
      rcases h.place with ⟨-, hcaller⟩ | ⟨-, -, hcaller⟩ <;>
        rcases hstops with hflagged | hjoining <;> simp_all [State.thread]

theorem after (h : Ready s) {events : List Event} (hruns : machine.Runs s events)
    (halive : (machine.after s events).loop.fate ≠ .aborted)
    (hplace : ((machine.after s events).worker.pc = .idle ∧
        (machine.after s events).worker.caller = .stopped) ∨
      ((machine.after s events).worker.pc = .head ∧
        (machine.after s events).worker.stop = false ∧
        (machine.after s events).worker.caller = .started))
    (hsettled : ∀ a, (machine.after s events).loop.stage a = .closing →
      (machine.after s events).worker.pc = .idle ∧ a = (machine.after s events).worker.server) :
    Ready (machine.after s events) := by
  have hrunning := Machine.invariant_until (m := machine) not_enabled_of_ended
    (fun _ _ h henabled => h.ended_or_next henabled) h.running hruns
  exact ⟨hrunning.resolve_left fun hended => halive hended.aborted,
    Machine.invariant (m := machine) (fun _ _ hs henabled => hs.next henabled.2) h.ordered hruns,
    hplace, hsettled⟩

theorem down (h : Ready s) (hdown : s.service.phase = .down) :
    s.worker.pc = .idle ∧ s.worker.caller = .stopped := by
  rcases h.place with hidle | ⟨hhead, -, -⟩
  · exact hidle
  · exact absurd (.inl hhead) (phase_eq_down.mp hdown)

theorem up (h : Ready s) (hup : s.service.phase ≠ .down) :
    s.worker.pc = .head ∧ s.worker.stop = false ∧ s.worker.caller = .started := by
  rcases h.place with ⟨hidle, -⟩ | hhead
  · exact absurd (phase_eq_down.mpr (by simp [Pc.Live, hidle])) hup
  · exact hhead

/-- After some steps the thread is in a call of `uv_run`, which comes to its end. -/
theorem of_turn (h : Ready s) {first : List Event} {f : Service.Event} {a : Addr}
    (hruns : machine.Runs s first) (hprompt : machine.Along Prompt s first)
    (himage : machine.image serviceEvent s first = [f])
    (hpc : (machine.after s first).worker.pc = .run)
    (hstop : (machine.after s first).worker.stop = false)
    (hcaller : (machine.after s first).worker.caller = .started)
    (hfate : (machine.after s first).loop.fate = .usable)
    (honly : ∀ b, (machine.after s first).loop.stage b = .closing → b = a) : Realisable s f := by
  obtain ⟨hflush, hflushed, hsilent, hworker, husable, hsettled⟩ := flush_runs hpc hfate honly
  have hall : machine.Runs s (first ++ flush (machine.after s first) a) :=
    (Machine.along_append _ _).mpr ⟨hruns, hflush⟩
  rw [← Machine.after_append] at hworker husable hsettled
  refine ⟨_, hall, (Machine.along_append _ _).mpr ⟨hprompt, hflushed⟩, ?_, .inr ?_⟩
  · rw [Machine.image_append, himage, hsilent, List.append_nil]
  · refine h.after hall (fun haborted => ?_) (.inr ?_) fun b hb => absurd hb (hsettled b)
    · cases husable.symm.trans haborted
    rw [hworker]
    exact ⟨rfl, hstop, hcaller⟩

/-- The first `uv_run` of a thread makes the close callback of the server before. -/
theorem opened (h : Ready s) (hdown : s.service.phase = .down) (listening : Bool) :
    Realisable s (.opened listening) := by
  obtain ⟨hpc, -⟩ := h.down hdown
  have husable := h.usable
  have hruns : machine.Runs s [.start, .enter (if listening then 0 else -98), .test] :=
    ⟨⟨.inl husable, hpc⟩, ⟨.inl husable, rfl⟩, ⟨.inl husable, rfl⟩, trivial⟩
  refine h.of_turn (a := s.worker.server) hruns (by simp [Prompt]) ?_ rfl rfl rfl husable ?_
  · cases listening <;> rfl
  · intro b hb
    by_cases hnew : s.fresh = b
    · subst hnew
      simp [machine, next, enter] at hb
    · simp [machine, next, enter, hnew] at hb
      exact (h.settled b hb).2

/-- A turn of the loop in which a callback runs that closes one handle at most. -/
theorem turn (h : Ready s) (hup : s.service.phase ≠ .down) {f : Service.Event} {a : Addr}
    (henabled : Enabled {s with worker.pc := .run} e)
    (hlabel : serviceEvent {s with worker.pc := .run} e = some f) (hend : e ≠ .runEnd)
    (hworker : (next {s with worker.pc := .run} e).worker = {s.worker with pc := .run})
    (hfate : (next {s with worker.pc := .run} e).loop.fate = .usable)
    (honly : ∀ b, (next {s with worker.pc := .run} e).loop.stage b = .closing →
      s.loop.stage b = .closing ∨ b = a) : Realisable s f := by
  obtain ⟨hpc, hstop, hcaller⟩ := h.up hup
  have husable := h.usable
  have htest : machine.next s .test = {s with worker.pc := .run} := by
    simp [machine, next, hstop]
  have hafter : machine.after s [.test, e] = next {s with worker.pc := .run} e := by
    rw [Machine.after_cons, htest]
    rfl
  have hruns : machine.Runs s [.test, e] := by
    refine ⟨⟨.inl husable, hpc⟩, ?_, trivial⟩
    rw [htest]
    exact ⟨.inl husable, henabled⟩
  refine h.of_turn (a := a) hruns ⟨Event.noConfusion, fun he => absurd he hend, trivial⟩ ?_
    ?_ ?_ ?_ ?_ ?_
  · rw [Machine.image_cons, htest, Machine.image_cons, hlabel]
    rfl
  · rw [hafter, hworker]
  · rw [hafter, hworker]
    exact hstop
  · rw [hafter, hworker]
    exact hcaller
  · rw [hafter]
    exact hfate
  · intro b hb
    rw [hafter] at hb
    refine (honly b hb).resolve_left fun hclosing => ?_
    cases (h.settled b hclosing).1.symm.trans hpc

/-- `Stop`, whose caller waits until the thread has returned. -/
theorem closed (h : Ready s) (hup : s.service.phase ≠ .down) : Realisable s .closed := by
  obtain ⟨hpc, hstop, hcaller⟩ := h.up hup
  have husable := h.usable
  by_cases hopen : s.loop.stage s.worker.server = .opened
  · obtain ⟨hruns, hstopped, halive⟩ := stopRun_runs ⟨husable, fun _ => hopen⟩ h.running.handshake
    have hevents : stopRun s = [.stopFlag, .test, .exit, .stopLoopClose, .stopJoin] := by
      simp [stopRun, finish, hpc, hcaller]
    rw [hevents] at hruns hstopped halive
    refine ⟨_, hruns, by simp [Prompt], rfl, .inr (h.after hruns halive (.inl ⟨rfl, rfl⟩) ?_)⟩
    intro b hb
    by_cases hserver : s.worker.server = b
    · exact ⟨rfl, hserver.symm⟩
    · simp [machine, next, exit, hserver] at hb
      cases (h.settled b hb).1.symm.trans hpc
  · have hruns : machine.Runs s [.stopFlag, .test, .exit] :=
      ⟨⟨.inl husable, hcaller⟩, ⟨.inl husable, hpc⟩, ⟨.inl husable, rfl⟩, trivial⟩
    refine ⟨_, hruns, by simp [Prompt], rfl, .inl ?_⟩
    simp [machine, next, exit, hopen]

theorem realisable (h : Ready s) {f : Service.Event} (henabled : s.service.Enabled f) :
    Realisable s f := by
  have husable := h.usable
  cases f with
  | opened listening => exact h.opened henabled listening
  | closed => exact h.closed henabled
  | joined =>
      have hphase : s.service.phase = .listening := henabled
      have hlistening := (phase_eq_listening h.ordered.wellFormed).mp hphase
      refine h.turn (e := .connectionCb s.worker.server 0 0) (a := s.worker.server)
        (by simp [hphase]) ⟨rfl, hlistening⟩ rfl Event.noConfusion rfl ?_ fun b hb => .inl ?_
      · simp [next, onConnection, husable]
      · by_cases hnew : s.fresh = b
        · simp [next, onConnection, hnew] at hb
        · simpa [next, onConnection, hnew] using hb
  | deafened =>
      have hphase : s.service.phase = .listening := henabled
      have hlistening := (phase_eq_listening h.ordered.wellFormed).mp hphase
      have hopen := h.running.serving.lawful.listening _ hlistening
      refine h.turn (e := .connectionCb s.worker.server (-24) 0) (a := s.worker.server)
        (by simp [hphase]) ⟨rfl, hlistening⟩ rfl Event.noConfusion rfl ?_ fun b hb => ?_
      · simp [next, onConnection, husable, hopen]
      · by_cases hserver : s.worker.server = b
        · exact .inr hserver.symm
        · exact .inl (by simpa [next, onConnection, hserver] using hb)
  | heard client m =>
      obtain ⟨hup, hclient⟩ := henabled
      obtain ⟨a, hreading, rfl⟩ := h.ordered.getElem?_eq_some.mp hclient
      refine h.turn (e := .readCb a 8 m.buffer) (a := a) hup ⟨rfl, hreading, ?_⟩ ?_
        Event.noConfusion rfl ?_ fun b hb => .inl ?_
      · simp [Message.buffer]
      · simp [serviceEvent]
      · simp [next, onRead, allocBuffer, husable]
      · simp [next, onRead, allocBuffer] at hb
        split_ifs at hb
        exact hb
  | left client =>
      obtain ⟨hup, hclient⟩ := henabled
      obtain ⟨a, hreading, rfl⟩ := h.ordered.getElem?_eq_some.mp hclient
      have hopen := h.running.serving.lawful.reading a hreading
      refine h.turn (e := .readCb a (-4095) (Message.buffer ⟨0, .heartbeat, .notReady⟩)) (a := a)
        hup ⟨rfl, hreading, ?_⟩ ?_ Event.noConfusion rfl ?_ fun b hb => ?_
      · simp [Message.buffer]
      · simp [serviceEvent]
      · simp [next, onRead, allocBuffer, husable, hopen]
      · by_cases hclient : a = b
        · exact .inr hclient.symm
        · exact .inl (by simpa [next, onRead, allocBuffer, hclient] using hb)

end Ready

/-! ## The runs of the service -/

theorem matches_lasting (h : Running s) (hordered : Ordered s) (henabled : machine.enabled s e) :
    machine.Matches Service.lasting State.lasting serviceEvent s e := by
  have hservice := matches_service hordered henabled.2
  have hhealth := matches_health h henabled
  have halive : s.health ≠ .dead := by
    rw [State.health, if_neg h.alive]
    split_ifs <;> simp
  cases hevent : serviceEvent s e with
  | none =>
      simp only [Machine.Matches, hevent] at hservice hhealth ⊢
      exact Prod.ext hservice hhealth
  | some f =>
      simp only [Machine.Matches, hevent] at hservice hhealth ⊢
      exact ⟨⟨halive, hservice.1⟩, Prod.ext hservice.2 hhealth⟩

theorem runs_lasting {events : List Event} (h : Running s) (hordered : Ordered s)
    (hrun : machine.Runs s events) :
    Service.lasting.Runs s.lasting (machine.image serviceEvent s events) ∧
      Service.lasting.after s.lasting (machine.image serviceEvent s events) =
        (machine.after s events).lasting :=
  Machine.runs_image (Machine.along_until (m := machine) (I := fun s => Running s ∧ Ordered s)
    not_enabled_of_ended
    (fun _ _ h henabled =>
      (h.1.ended_or_next henabled).imp_right fun hnext => ⟨hnext, h.2.next henabled.2⟩)
    (fun _ _ h henabled => matches_lasting h.1 h.2 henabled) ⟨h, hordered⟩ hrun)

/-- A list of events of the service, up to the end of the process, is that of a
run of the receiver, with whatever clients, errors and calls of `Start` and
`Stop`, if and only if the service allows it and nothing comes after the end of
a service whose server has failed. -/
theorem service_runs_iff (host : String) (port : Int) (callback : Addr)
    (trace : List Service.Event) :
    Service.lasting.Runs ({}, .sound) trace ↔
      ∃ events, machine.Runs (initial host port callback) events ∧
        machine.Along Prompt (initial host port callback) events ∧
          serviceEvents host port callback events = trace := by
  have hrunning := running_initial host port callback
  have hordered := ordered_initial host port callback
  constructor
  · intro htrace
    have hready : Ready (initial host port callback) :=
      ⟨hrunning, hordered, .inl ⟨rfl, rfl⟩, by simp [initial]⟩
    have hrun : Service.lasting.Runs (initial host port callback).lasting trace := htrace
    refine Machine.runs_realised (R := fun s => s.loop.fate = .aborted ∨ Ready s) ?_
      (.inr hready) hrun
    rintro s f (haborted | hs) ⟨halive, henabled⟩
    · exact absurd (if_pos haborted) halive
    · obtain ⟨events, hruns, hprompt, himage, hend⟩ := hs.realisable henabled
      have hafter := (runs_lasting hs.running hs.ordered hruns).2
      rw [himage] at hafter
      exact ⟨events, hruns, hprompt, himage, hend, hafter.symm⟩
  · rintro ⟨events, hrun, -, rfl⟩
    exact (runs_lasting hrunning hordered hrun).1

end L1Comm.Receiver
