import L1Comm.Machine.Reach
import L1Comm.Sender.Pointers
import L1Comm.Shutdown

/-!
Whether a sender can come back to a connection. Failures are reported through
callbacks, each of which takes the status to `-1`, from where the next turn of
the loop connects anew. So as long as some callback is to come, or the status
is `-1` already, libuv and the peer can bring the sender back. If no callback
is to come in any other status, none ever will: the turns of the loop do
nothing, and a `Stop` and a `Start` leave the status as it is.

The runs that lead back are built without the callbacks of sockets that have
been closed before. libuv makes these in the `uv_run` that follows `uv_close`,
and the model leaves open when: they only take the status to `-1`, which is
where these runs begin.
-/

namespace L1Comm.Sender

open Uv

/-- There is a connection to the address of the object, and heartbeats are sent
on it. -/
structure Up (s : State) : Prop where
  status : s.conn.status = .connected
  socket : ∃ a, s.worker.socket = some a ∧ s.conn.socket = some a ∧ s.loop.stage a = .opened ∧
    s.loop.established a = true ∧ s.loop.peer a = some s.worker.address
  timer : ∃ t, s.conn.timer = some t ∧ s.loop.active t = true

/-- No turn of the loop connects, and no callback is to come that could change
this. -/
structure Stuck (s : State) : Prop where
  status : s.conn.status ≠ .disconnect
  connects : s.loop.connects = []
  writes : s.loop.writes = []
  idle : ∀ t, s.loop.active t ≠ true

/-- The worker has been started, and not been told to stop. -/
structure Going (s : State) : Prop where
  thread : s.thread.Going
  running : Running s
  pointed : Pointed s
  dest : s.worker.pc.Live → s.worker.dest = s.worker.address

/-- Nobody calls `Stop`. -/
def NotStopped (_ : State) (e : Event) : Prop := e ≠ .stopFlag

variable {s : State} {e : Event}

/-! ## Nothing gets a stuck sender going -/

namespace Stuck

theorem not_up (h : Stuck s) : ¬ Up s := by
  rintro ⟨-, -, t, -, ht⟩
  exact h.idle t ht

/-- No step does, those of `Start` and `Stop` included. -/
protected theorem next (h : Stuck s) (henabled : Enabled s e) : Stuck (next s e) := by
  have hsocket : writesSocket s.conn.status e = false := by
    cases e <;> simp [writesSocket, h.status]
  have hcallback : (∀ req a status, e ≠ .connectCb req a status) ∧
      (∀ req a status, e ≠ .writeCb req a status) ∧ ∀ t heap ret, e ≠ .timerCb t heap ret := by
    refine ⟨?_, ?_, ?_⟩
    · rintro req a status rfl
      exact List.ne_nil_of_mem henabled.2.1 h.connects
    · rintro req a status rfl
      exact List.ne_nil_of_mem henabled.2.1 h.writes
    · rintro t heap ret rfl
      exact h.idle t henabled.2
  obtain ⟨hconnectCb, hwriteCb, htimerCb⟩ := hcallback
  refine ⟨?_, ?_, ?_, ?_⟩
  · rw [status_next]
    cases e with
    | body ret => simp [statusAfter, h.status]
    | connectCb req a status => exact absurd rfl (hconnectCb req a status)
    | writeCb req a status => exact absurd rfl (hwriteCb req a status)
    | _ => exact h.status
  · apply List.eq_nil_iff_forall_not_mem.mpr
    intro c hc
    rcases mem_connects_next s e hc with hold | ⟨-, hnew⟩
    · exact List.ne_nil_of_mem hold h.connects
    · rw [hsocket] at hnew
      cases hnew
  · rw [writes_next s e htimerCb hwriteCb]
    exact h.writes
  · intro t ht
    rcases active_next s e ht with hold | ⟨-, -, req, a, status, he⟩
    · exact h.idle t hold
    · exact hconnectCb req a status he

end Stuck

/-! ## What libuv and the peer can do for the others -/

/-- A connect or a write that is pending fails. -/
theorem fails (husable : s.loop.fate = .usable) (hrun : s.worker.pc = .run)
    (hpending : s.loop.connects ≠ [] ∨ s.loop.writes ≠ []) :
    machine.Leads NotStopped (fun t => t.conn.status = .disconnect) s := by
  by_cases hconnects : s.loop.connects = []
  · obtain ⟨c, hc⟩ := List.exists_mem_of_ne_nil _ (hpending.resolve_left (not_not.mpr hconnects))
    have hquiet : ∀ d ∈ s.loop.connects, d.handle ≠ c.handle := by simp [hconnects]
    refine .step (e := .writeCb c.req c.handle (-125)) ⟨.inl husable, hrun, hc, hquiet,
      .inr (by decide)⟩
      Event.noConfusion (.here ?_)
    exact congrArg ConnStruct.status (writeCb_conn c.req (-125))
  · obtain ⟨c, hc⟩ := List.exists_mem_of_ne_nil _ hconnects
    refine .step (e := .connectCb c.req c.handle (-125)) ⟨.inl husable, hrun, hc, .inr (by decide)⟩
      Event.noConfusion (.here ?_)
    exact congrArg (fun t : State => t.conn.status) (connectCb_failed c.req (by decide))

namespace Going

theorem stop (h : Going s) : s.worker.stop = false := h.thread.stop

theorem usable (h : Going s) : s.loop.fate = .usable :=
  h.running.usable fun hstops => by
    cases h.stop.symm.trans (h.running.handshake.flagged hstops)

theorem place (h : Going s) :
    s.worker.pc = .start ∨ s.worker.pc = .head ∨ s.worker.pc = .body ∨ s.worker.pc = .run := by
  rcases h.thread.place with hpc | hpc | ⟨left, hpc⟩
  · exact .inl (Pc.thread_injective hpc)
  · exact .inr (.inl (Pc.thread_injective hpc))
  · change s.worker.pc.thread = .turn left at hpc
    cases hplace : s.worker.pc <;> simp [Pc.thread, hplace] at hpc ⊢

protected theorem next (h : Going s) (henabled : machine.enabled s e) (hok : NotStopped s e) :
    Going (next s e) := by
  have hdest := dest_next (fun _ => henabled.2) h.dest
  rw [← address_next (s := s) (e := e)] at hdest
  refine ⟨drives.going h.thread henabled ?_, h.running.next henabled, h.pointed.next henabled.2,
    hdest⟩
  cases e with
  | stopFlag => exact absurd rfl hok
  | _ => simp [threadEvent]

/-- The thread comes to `uv_run`, and finds what was there before. -/
theorem to_run (h : Going s) (hup : s.conn.status ≠ .disconnect) :
    machine.Leads NotStopped (fun t => t.worker.pc = .run ∧ t.loop = s.loop) s := by
  rcases h.place with hpc | hpc | hpc | hpc
  · refine ⟨[.enter, .test, .body 0], ?_, ?_, ?_⟩ <;>
      simp [machine, Enabled, Sender.next, enter, body, Loop.Permits, NotStopped, hpc, hup,
        h.stop, h.usable]
  · refine ⟨[.test, .body 0], ?_, ?_, ?_⟩ <;>
      simp [machine, Enabled, Sender.next, body, Loop.Permits, NotStopped, hpc, hup, h.stop,
        h.usable]
  · refine ⟨[.body 0], ?_, ?_, ?_⟩ <;>
      simp [machine, Enabled, Sender.next, body, Loop.Permits, NotStopped, hpc, hup, h.usable]
  · exact .here ⟨hpc, rfl⟩

/-- The thread comes to the body of its loop. -/
theorem to_body (h : Going s) (hdown : s.conn.status = .disconnect) :
    machine.Leads NotStopped (fun t => t.worker.pc = .body ∧ t.conn.status = .disconnect) s := by
  rcases h.place with hpc | hpc | hpc | hpc
  · refine ⟨[.enter, .test], ?_, ?_, ?_⟩ <;>
      simp [machine, Enabled, Sender.next, enter, Loop.Permits, NotStopped, hpc, hdown, h.stop,
        h.usable]
  · refine ⟨[.test], ?_, ?_, ?_⟩ <;>
      simp [machine, Enabled, Sender.next, Loop.Permits, NotStopped, hpc, hdown, h.stop, h.usable]
  · exact .here ⟨hpc, hdown⟩
  · refine ⟨[.runEnd, .test], ?_, ?_, ?_⟩ <;>
      simp [machine, Enabled, Sender.next, Loop.Permits, NotStopped, hpc, hdown, h.stop, h.usable]

/-- The body connects, and the connect succeeds. -/
theorem dial (h : Going s) (hbody : s.worker.pc = .body) (hdown : s.conn.status = .disconnect) :
    machine.Leads NotStopped Up s := by
  have hdest := h.dest (.inr (.inl hbody))
  have htimer : s.conn.timer ≠ some s.fresh := fun ht =>
    Nat.lt_irrefl _ (h.pointed.wellFormed.timer_lt s.fresh ht)
  have hturn : next s (.body 0) = {reconnect s 0 with worker.pc := .run} := by
    rw [Sender.next, body, if_pos hdown]
  refine ⟨[.body 0, .connectCb s.worker.connect s.fresh 0], ?_, ?_, ?_⟩
  · have hbodies : machine.enabled s (.body 0) := ⟨.inl h.usable, hbody⟩
    have husable := (h.next hbodies Event.noConfusion).usable
    refine ⟨hbodies, ⟨.inl husable, ?_⟩, trivial⟩
    change Enabled (next s (.body 0)) (.connectCb s.worker.connect s.fresh 0)
    rw [hturn]
    exact ⟨rfl, by simp [mem_reconnect_connects], .inl (by simp [reconnect_stage])⟩
  · exact ⟨Event.noConfusion, Event.noConfusion, trivial⟩
  · have hok : ¬ (0 : Int) < 0 := by decide
    change Up (next (next s (.body 0)) (.connectCb s.worker.connect s.fresh 0))
    rw [hturn]
    refine ⟨?_, ⟨s.fresh, ?_, ?_, ?_, ?_, ?_⟩, s.fresh + 1, ?_, ?_⟩
    · simp [connectCb_conn _ hok]
    · simp [Sender.next]
    · simp [connectCb_conn _ hok]
    · simp [connectCb_stage _ hok, reconnect_stage, htimer]
    · simp [connectCb_established]
    · simp [Sender.next, onConnect, reconnect, Worker.address, hdest]
    · simp [connectCb_conn _ hok]
    · simp [connectCb_active _ hok]

/-- The callback of a timer leaves a write pending on whatever the socket is. -/
theorem beat (h : Going s) (hrun : s.worker.pc = .run) {t : Addr} (ht : s.loop.active t = true) :
    machine.Leads NotStopped (fun t => t.worker.pc = .run ∧ t.loop.writes ≠ []) s := by
  obtain ⟨a, ha⟩ := Option.ne_none_iff_exists'.mp (h.pointed.active t ht).2
  refine .step (e := .timerCb t (fun _ => 0) 0) ⟨.inl h.usable, hrun, ht⟩ Event.noConfusion
    (.here ⟨hrun, ?_⟩)
  exact List.ne_nil_of_mem (a := ⟨s.fresh + 1, a⟩)
    ((mem_timerCb_writes t _ 0).mpr (.inr ⟨rfl, rfl, ha⟩))

/-- Something that is going on can fail. -/
theorem loses (h : Going s) (hstuck : ¬ Stuck s) :
    machine.Leads NotStopped (fun t => t.conn.status = .disconnect) s := by
  by_cases hup : s.conn.status = .disconnect
  · exact .here hup
  refine ((h.to_run hup).and_invariant (fun _ _ => Going.next) h).trans ?_
  rintro t ⟨ht, hrun, hloop⟩
  by_cases hpending : t.loop.connects ≠ [] ∨ t.loop.writes ≠ []
  · exact fails ht.usable hrun hpending
  · obtain ⟨hconnects, hwrites⟩ := not_or.mp hpending
    obtain ⟨timer, htimer⟩ : ∃ timer, t.loop.active timer = true := by
      by_contra hidle
      refine hstuck ⟨hup, ?_, ?_, ?_⟩
      · exact hloop ▸ not_not.mp hconnects
      · exact hloop ▸ not_not.mp hwrites
      · exact fun timer htimer => hidle ⟨timer, hloop ▸ htimer⟩
    refine ((ht.beat hrun htimer).and_invariant (fun _ _ => Going.next) ht).trans ?_
    exact fun _ ⟨hu, hrun', hwrites⟩ => fails hu.usable hrun' (.inr hwrites)

/-- The next turn connects. -/
theorem comes_up (h : Going s) (hdown : s.conn.status = .disconnect) :
    machine.Leads NotStopped Up s := by
  refine ((h.to_body hdown).and_invariant (fun _ _ => Going.next) h).trans ?_
  exact fun t ⟨ht, hbody, hdown'⟩ => ht.dial hbody hdown'

theorem recovers (h : Going s) (hstuck : ¬ Stuck s) : machine.Leads NotStopped Up s := by
  refine ((h.loses hstuck).and_invariant (fun _ _ => Going.next) h).trans ?_
  exact fun t ⟨ht, hdown⟩ => ht.comes_up hdown

end Going

/-! ## Runs -/

/-- What holds of every state of a run. -/
structure Kept (s : State) : Prop where
  running : Running s
  pointed : Pointed s
  dest : s.worker.pc.Live → s.worker.dest = s.worker.address

theorem kept_initial (host : String) (port : Int) : Kept (initial host port) :=
  ⟨running_initial host port, pointed_initial host port, by simp [initial, Pc.Live]⟩

namespace Kept

protected theorem next (h : Kept s) (henabled : machine.enabled s e) : Kept (next s e) := by
  have hdest := dest_next (fun _ => henabled.2) h.dest
  rw [← address_next (s := s) (e := e)] at hdest
  exact ⟨h.running.next henabled, h.pointed.next henabled.2, hdest⟩

theorem going (h : Kept s) (hcaller : s.worker.caller = .started) : Going s :=
  ⟨h.running.handshake.going hcaller, h.running, h.pointed, h.dest⟩

/-- Where no call of `Stop` is under way. -/
theorem recovers (h : Kept s) (hcaller : s.worker.caller = .started ∨ s.worker.caller = .stopped)
    (hstuck : ¬ Stuck s) : machine.Leads NotStopped Up s := by
  rcases hcaller with hstarted | hstopped
  · exact (h.going hstarted).recovers hstuck
  · have hnot : ¬ s.thread.Stops := by
      rintro (hflagged | hjoining)
      · cases hstopped.symm.trans hflagged
      · cases hstopped.symm.trans hjoining
    have hstart : machine.enabled s .start :=
      ⟨.inl (h.running.usable hnot), h.running.unreturned.idle.mpr hstopped⟩
    have hnext : Kept (next s .start) := h.next hstart
    exact .step (e := .start) hstart Event.noConfusion ((hnext.going rfl).recovers fun hs =>
      hstuck ⟨hs.status, hs.connects, hs.writes, hs.idle⟩)

end Kept

/-- The network cannot be reached when the first connect is called. -/
def offlineRun : List Event := [.start, .enter, .test, .body (-101), .runEnd]

example : Stuck (machine.after (initial "10.0.0.2" 3011) offlineRun) :=
  ⟨by decide, rfl, rfl, fun _ => Bool.false_ne_true⟩

end L1Comm.Sender
