import L1Comm.Sender.System

/-!
Each sender object of a process compared with itself in a process of its own.
What it does depends on three fields of `conn_struct`, which all objects store
and each of them looks at: the status, the socket and the timer. And all objects
are in one process and one loop, which the end of one thread and the `Stop` of
one object can take from all of them.
-/

namespace L1Comm.Sender

open Uv

variable {ι : Type*}

/-- What a step of a worker owes to the other objects of the process: nothing.
It acts as the worker alone would; as long as the worker has never connected,
a turn of its loop connects to its own address; and a heartbeat is written to
a socket that the worker has connected to this address. Afterwards the timers
run that would run if each worker were alone, and neither the process nor the
loop has come to an end that it would not have come to for each of them. -/
structure Independent [DecidableEq ι] (sys : System ι) (step : ι × Event) : Prop where
  same : ∃ acts,
    actions (next (sys.view step.1) step.2).trace =
      actions (sys.view step.1).trace ++ acts ∧
    actions (next (sys.aloneView step.1) step.2).trace =
      actions (sys.aloneView step.1).trace ++ acts
  first : ∀ ret, step.2 = .body ret → (sys.alone step.1).conn.socket = none →
    actions (next (sys.view step.1) step.2).trace =
      actions (sys.view step.1).trace ++
        [.connect sys.process.fresh (sys.worker step.1).address]
  heartbeat : ∀ t heap ret, step.2 = .timerCb t heap ret → ∃ h,
    actions (next (sys.view step.1) step.2).trace =
      actions (sys.view step.1).trace ++ [.write (some h)] ∧
    .connect h (sys.worker step.1).address ∈ actions (sys.alone step.1).trace
  timers : ∀ w t, ((sys.next step).alone w).loop.active t = true ↔
    (sys.next step).process.loop.active t = true ∧ (sys.next step).owner t = some w
  fate : ∀ w, ((sys.next step).alone w).loop.fate = (sys.next step).process.loop.fate

/-- Of the timers that run, `conn_struct` names the one that the worker has
stored there, or neither does. -/
def System.FindsTimer (sys : System ι) (w : ι) : Prop :=
  ∀ t, sys.process.loop.active t = true →
    (sys.process.conn.timer = some t ↔ (sys.stored w).timer = some t)

/-- What a worker looks at is what it has left there itself: the status in a
turn of its loop, the socket in a heartbeat, and the timer where a connect
succeeds or a write fails. And it leaves its loop, or calls `uv_loop_close`
without a handle of its own in the loop, only if there is no other object. -/
def FindsOwn (sys : System ι) (step : ι × Event) : Prop :=
  match step.2 with
  | .body _ =>
      sys.process.conn.status = .disconnect ↔ (sys.stored step.1).status = .disconnect
  | .timerCb .. => sys.process.conn.socket = (sys.stored step.1).socket
  | .connectCb _ _ status => 0 ≤ status → sys.FindsTimer step.1
  | .writeCb _ _ status => status < 0 → sys.FindsTimer step.1
  | .exit => ∀ w, w = step.1
  | .stopLoopClose =>
      (∃ h ∈ sys.process.loop.queue, sys.owner h = some step.1) ∨ ∀ w, w = step.1
  | _ => True

theorem FindsOwn.findsTimer {sys : System ι} {w : ι} {e : Event} (hok : FindsOwn sys (w, e))
    (hstops : stopsTimer e = true) : sys.FindsTimer w := by
  cases e with
  | connectCb req a status => exact hok (by simpa [stopsTimer] using hstops)
  | writeCb req a status => exact hok (by simpa [stopsTimer] using hstops)
  | _ => simp [stopsTimer] at hstops

/-- How the loop of a worker in a process of its own and the shared loop agree. -/
structure Mirrored [DecidableEq ι] (sys : System ι) (w : ι) : Prop where
  running : ∀ t, (sys.alone w).loop.active t = true ↔
    sys.process.loop.active t = true ∧ sys.owner t = some w
  queue : (sys.alone w).loop.queue =
    sys.process.loop.queue.filter (sys.owner · = some w)
  fate : (sys.alone w).loop.fate = sys.process.loop.fate
  timer : ∀ t, (sys.stored w).timer = some t →
    sys.owner t = some w ∧ (sys.worker w).socket ≠ some t
  blank : ∀ a, sys.process.fresh ≤ a → (sys.alone w).loop.stage a = .uninitialised
  connect : (sys.worker w).pc.Live →
    (sys.alone w).loop.stage (sys.worker w).connect = .uninitialised
  opened : ∀ h, (sys.worker w).socket = some h → (sys.alone w).loop.stage h = .opened
  payloads : ∀ a payload, (sys.alone w).data a = some payload →
    payload < sys.process.fresh ∧ sys.process.loop.stage payload = .uninitialised

/-- How a worker in the system and the worker alone agree. -/
structure Agrees [DecidableEq ι] (sys : System ι) (w : ι) : Prop where
  worker : (sys.alone w).worker = sys.worker w
  status : (sys.alone w).conn.status = (sys.stored w).status
  socket : (sys.alone w).conn.socket = (sys.stored w).socket
  timer : (sys.alone w).conn.timer = (sys.stored w).timer
  untried : (sys.alone w).conn.socket = none →
    (sys.alone w).conn.status = .disconnect ∧ (sys.worker w).socket = none
  dest : (sys.worker w).pc.Live → (sys.worker w).dest = (sys.worker w).address
  connected : ∀ h, (sys.alone w).conn.socket = some h →
    .connect h (sys.worker w).address ∈ actions (sys.alone w).trace
  connects : ∀ c ∈ sys.process.loop.connects, sys.owner c.handle = some w →
    (sys.alone w).conn.socket ≠ none
  active : ∀ t, sys.process.loop.active t = true → sys.owner t = some w →
    (sys.alone w).conn.socket ≠ none
  loop : Mirrored sys w

theorem agrees_initial [DecidableEq ι] (address : ι → SockAddr) (w : ι) :
    Agrees (System.initial address) w := by
  constructor
  case loop => constructor <;> simp [System.initial, Sender.initial, Pc.Live]
  all_goals simp [System.initial, Sender.initial, Pc.Live]

section Agreement

variable [DecidableEq ι] {sys : System ι} {w v : ι} {e : Event}

/-- The callback of a connect comes on account of the worker that made it. -/
theorem Agrees.connectCb_tried (h : Agrees sys w) {req a : Addr} {status : Int}
    (henabled : sys.Enabled (w, .connectCb req a status)) :
    (sys.alone w).conn.socket ≠ none := by
  obtain ⟨howner, -, hcallback⟩ := henabled
  exact h.connects _ hcallback.2.1 howner

theorem FindsOwn.status (h : Agrees sys w) (hok : FindsOwn sys (w, e)) (ret : Int)
    (he : e = .body ret) :
    (sys.alone w).conn.status = .disconnect ↔ sys.process.conn.status = .disconnect := by
  subst he
  rw [h.status]
  exact hok.symm

/-- The connect request is no handle, in neither process. -/
theorem Agrees.exit_plain (h : Agrees sys w) (hsound : Sound sys) (henabled : sys.Enabled (w, e))
    (hexit : e = .exit) :
    (sys.aloneView w).loop.stage (sys.aloneView w).worker.connect = .uninitialised ∧
      (sys.view w).loop.stage (sys.view w).worker.connect = .uninitialised := by
  refine ⟨?_, hsound.exit_plain henabled hexit⟩
  subst hexit
  have hpc : (sys.worker w).pc = .exit := henabled
  rw [System.aloneView_worker, h.worker]
  exact h.loop.connect (.inr (.inr (.inr hpc)))

theorem Agrees.same (h : Agrees sys w) (hsound : Sound sys) (henabled : sys.Enabled (w, e))
    (hok : FindsOwn sys (w, e)) :
    newActions (sys.aloneView w) e = newActions (sys.view w) e := by
  refine newActions_congr h.worker rfl (hok.status h) ?_ (h.exit_plain hsound henabled)
  rintro t heap ret rfl
  exact h.socket.trans hok.symm

/-- A worker alone that has still not connected after a step has not tried
before, and its status is still `-1`. -/
theorem Agrees.untried_next (h : Agrees sys w) (henabled : sys.Enabled (w, e))
    (huntried : (next (sys.aloneView w) e).conn.socket = none) :
    (next (sys.aloneView w) e).conn.status = .disconnect ∧
      (next (sys.aloneView w) e).worker.socket = none := by
  have hbefore : (sys.alone w).conn.socket = none := by
    by_contra htried
    exact socket_next_ne_none (s := sys.aloneView w) (.inl htried) huntried
  have hkeeps : writesSocket (sys.alone w).conn.status e ≠ true := by
    intro hwrites
    exact socket_next_ne_none (s := sys.aloneView w) (.inr hwrites) huntried
  obtain ⟨hdown, hsocket⟩ := h.untried hbefore
  constructor
  · rw [status_next, System.aloneView_conn, hdown]
    rw [hdown] at hkeeps
    refine statusAfter_disconnect (by simpa using hkeeps) ?_
    rintro req a status rfl
    exact h.connectCb_tried henabled hbefore
  · refine Option.eq_none_iff_forall_ne_some.mpr fun a ha => ?_
    rcases worker_socket_next ha with ⟨-, hold⟩ | ⟨hnew, -⟩
    · rw [System.aloneView_worker, h.worker, hsocket] at hold
      cases hold
    · exact hkeeps hnew

theorem Agrees.connected_next (h : Agrees sys w) (henabled : sys.Enabled (w, e)) {a : Addr}
    (ha : (next (sys.aloneView w) e).conn.socket = some a) :
    .connect a (sys.worker w).address ∈ actions (next (sys.aloneView w) e).trace := by
  rw [actions_next]
  rw [socket_next] at ha
  split at ha
  · next hwrites =>
    obtain rfl := Option.some.inj ha
    have hbody : (sys.worker w).pc = .body := by
      cases e with
      | body ret => exact henabled
      | _ => simp [writesSocket] at hwrites
    have hdest : (sys.aloneView w).worker.dest = (sys.worker w).address := by
      rw [System.aloneView_worker, h.worker]
      exact h.dest (.inr (.inl hbody))
    rw [← hdest]
    exact List.mem_append_right _ (connect_mem_newActions hwrites)
  · exact List.mem_append_left _ (h.connected a ha)

/-! ## The loops -/

omit [DecidableEq ι] in
theorem active_view_iff (hsound : Sound sys) (henabled : sys.Enabled (w, e)) (t : Addr) :
    (next (sys.view w) e).loop.active t = true ↔
      startsTimer e = true ∧ sys.process.fresh = t ∨
        sys.process.loop.active t = true ∧
          ¬ (stopsTimer e = true ∧ sys.process.conn.timer = some t) := by
  refine active_next_iff (sys.view w) e (fun hactive => (hsound.active t hactive).2.2 w) ?_
    (hsound.exit_plain henabled)
  rintro hactive hexit rfl
  exact (hsound.active _ hactive).2.1 (hsound.exit_plain henabled hexit)

theorem Agrees.active_alone_iff (h : Agrees sys w) (hsound : Sound sys)
    (henabled : sys.Enabled (w, e)) (t : Addr) :
    (next (sys.aloneView w) e).loop.active t = true ↔
      startsTimer e = true ∧ sys.process.fresh = t ∨
        (sys.alone w).loop.active t = true ∧
          ¬ (stopsTimer e = true ∧ (sys.stored w).timer = some t) := by
  have hshared (hactive : (sys.alone w).loop.active t = true) :
      sys.process.loop.active t = true := ((h.loop.running t).mp hactive).1
  rw [← h.timer]
  refine active_next_iff (sys.aloneView w) e (fun hactive => ?_) (fun hactive hexit => ?_)
    (fun hexit => (h.exit_plain hsound henabled hexit).1)
  · rw [System.aloneView_worker, h.worker]
    exact (hsound.active t (hshared hactive)).2.2 w
  · rw [System.aloneView_worker, h.worker]
    rintro rfl
    exact (hsound.active _ (hshared hactive)).2.1 (hsound.exit_plain henabled hexit)

/-- The owners of the handles that are left stay as they are. -/
theorem filter_queue_kept (hsound : Sound sys) :
    ((closedHandle e).elim sys.process.loop.queue sys.process.loop.queue.erase).filter
        ((sys.next (v, e)).owner · = some w) =
      (closedHandle e).elim (sys.process.loop.queue.filter (sys.owner · = some w))
        (sys.process.loop.queue.filter (sys.owner · = some w)).erase := by
  have hkept (l : List Addr) (hl : ∀ a ∈ l, a ∈ sys.process.loop.queue) :
      l.filter ((sys.next (v, e)).owner · = some w) = l.filter (sys.owner · = some w) := by
    refine List.filter_congr fun a ha => ?_
    obtain ⟨u, howner⟩ := hsound.queue a (hl a ha)
    rw [System.next_owner_of_lt (hsound.owner_lt a u howner)]
  cases hclosed : closedHandle e with
  | none => exact hkept _ fun _ ha => ha
  | some a =>
      rw [Option.elim_some, hkept _ fun _ hb => List.mem_of_mem_erase hb, Option.elim_some,
        List.erase_filter]

/-- The handle of a step is the worker's own. -/
theorem filter_queue_own (hsound : Sound sys) :
    (sys.next (w, e)).process.loop.queue.filter ((sys.next (w, e)).owner · = some w) =
      (closedHandle e).elim (sys.process.loop.queue.filter (sys.owner · = some w))
        (sys.process.loop.queue.filter (sys.owner · = some w)).erase ++
          (newHandle (sys.view w) e).toList := by
  rw [System.next_process, queue_next, List.filter_append]
  refine congrArg₂ (· ++ ·) (filter_queue_kept hsound) ?_
  cases hhandle : newHandle (sys.view w) e with
  | none => rfl
  | some a => simp [(System.next_owner_newHandle hhandle).2]

theorem filter_queue_other (hsound : Sound sys) (henabled : sys.Enabled (v, e)) (hne : w ≠ v) :
    (sys.next (v, e)).process.loop.queue.filter ((sys.next (v, e)).owner · = some w) =
      sys.process.loop.queue.filter (sys.owner · = some w) := by
  have hnew : (newHandle (sys.view v) e).toList.filter
      ((sys.next (v, e)).owner · = some w) = [] := by
    cases hhandle : newHandle (sys.view v) e with
    | none => rfl
    | some a => simp [(System.next_owner_newHandle hhandle).2, Ne.symm hne]
  rw [System.next_process, queue_next, List.filter_append, hnew, List.append_nil,
    System.view_loop, filter_queue_kept hsound]
  cases e with
  | closeCb a =>
      refine List.erase_of_not_mem fun hmem => ?_
      have howner := of_decide_eq_true (List.mem_filter.mp hmem).2
      rw [henabled.closing.1] at howner
      exact hne (Option.some.inj howner).symm
  | _ => rfl

omit [DecidableEq ι] in
theorem fate_view (hsound : Sound sys) (henabled : sys.Enabled (w, e)) :
    (next (sys.view w) e).loop.fate = nextFate sys.process.loop e :=
  Sender.fate_next (sys.view w) e (fun _ _ a ha => (hsound.socket w a ha).2)
    (hsound.exit_plain henabled)

theorem Agrees.fate_alone (h : Agrees sys w) (hsound : Sound sys) (henabled : sys.Enabled (w, e)) :
    (next (sys.aloneView w) e).loop.fate = nextFate (sys.alone w).loop e := by
  refine Sender.fate_next (sys.aloneView w) e (fun _ _ a ha => ?_)
    fun hexit => (h.exit_plain hsound henabled hexit).1
  rw [System.aloneView_worker, h.worker] at ha
  exact h.loop.opened a ha

/-- The worker alone has no handle in its loop if it has none in the shared one. -/
theorem Mirrored.queue_eq_nil (h : Mirrored sys w) :
    (sys.alone w).loop.queue = [] ↔ ¬ ∃ a ∈ sys.process.loop.queue, sys.owner a = some w := by
  rw [h.queue, List.filter_eq_nil_iff]
  simp

/-- `uv_loop_close` does to the shared loop what it does to the worker's. -/
theorem FindsOwn.queue_eq_nil (hok : FindsOwn sys (w, .stopLoopClose)) (hsound : Sound sys)
    (h : Mirrored sys w) : (sys.alone w).loop.queue = [] ↔ sys.process.loop.queue = [] := by
  rw [h.queue_eq_nil]
  constructor
  · intro hnone
    have hsingle := hok.resolve_left hnone
    refine List.eq_nil_iff_forall_not_mem.mpr fun a ha => hnone ⟨a, ha, ?_⟩
    obtain ⟨v, howner⟩ := hsound.queue a ha
    rw [howner, hsingle v]
  · rintro hempty ⟨a, ha, -⟩
    rw [hempty] at ha
    exact List.not_mem_nil ha

/-- After a step of its own the loop of the worker alone still agrees. -/
theorem Agrees.mirrored_own (h : Agrees sys w) (hsound : Sound sys)
    (henabled : sys.Enabled (w, e)) (hok : FindsOwn sys (w, e)) :
    Mirrored (sys.next (w, e)) w := by
  have hworker : (next (sys.aloneView w) e).worker = (next (sys.view w) e).worker :=
    worker_next_congr h.worker rfl (hok.status h) (h.exit_plain hsound henabled)
  have hwrites : writesSocket (sys.alone w).conn.status e =
      writesSocket sys.process.conn.status e := writesSocket_congr (hok.status h)
  have hhandle : newHandle (sys.aloneView w) e = newHandle (sys.view w) e := by
    rw [newHandle, newHandle, System.aloneView_conn, hwrites]
    rfl
  have hlt {t : Addr} (ht : sys.process.loop.active t = true) : t < sys.process.fresh := by
    obtain ⟨u, howner⟩ := (hsound.active t ht).1
    exact hsound.owner_lt t u howner
  have hclosing {a : Addr} (ha : sys.process.loop.stage a ≠ .closing) : e ≠ .closeCb a := by
    rintro rfl
    exact ha henabled.closing.2
  have hplain {a b : Addr} (ha : sys.process.loop.stage a = .opened)
      (hb : sys.process.loop.stage b = .uninitialised) : b ≠ a := by
    rintro rfl
    rw [ha] at hb
    cases hb
  constructor
  · intro t
    rw [System.next_alone_self, h.active_alone_iff hsound henabled, System.next_process,
      active_view_iff hsound henabled, h.loop.running]
    constructor
    · rintro (⟨hstarts, rfl⟩ | ⟨⟨hactive, howner⟩, hkept⟩)
      · exact ⟨.inl ⟨hstarts, rfl⟩,
          System.next_owner_fresh (fresh_next_of_startsTimer _ _ hstarts)⟩
      · refine ⟨.inr ⟨hactive, fun hstopped => hkept ⟨hstopped.1, ?_⟩⟩, ?_⟩
        · exact (hok.findsTimer hstopped.1 t hactive).mp hstopped.2
        · rw [System.next_owner_of_lt (hlt hactive)]
          exact howner
    · rintro ⟨⟨hstarts, rfl⟩ | ⟨hactive, hkept⟩, howner⟩
      · exact .inl ⟨hstarts, rfl⟩
      · rw [System.next_owner_of_lt (hlt hactive)] at howner
        refine .inr ⟨⟨hactive, howner⟩, fun hstopped => hkept ⟨hstopped.1, ?_⟩⟩
        exact (hok.findsTimer hstopped.1 t hactive).mpr hstopped.2
  · rw [System.next_alone_self, queue_next, filter_queue_own hsound, hhandle, ← h.loop.queue]
    rfl
  · rw [System.next_alone_self, h.fate_alone hsound henabled, System.next_process,
      fate_view hsound henabled]
    cases e with
    | exit => rfl
    | stopLoopClose => simp only [nextFate, hok.queue_eq_nil hsound h.loop, h.loop.fate]
    | _ => exact h.loop.fate
  · intro t ht
    rw [System.next_stored_self] at ht
    dsimp only at ht
    split at ht
    · next hstarts =>
      rw [timer_next, if_pos hstarts] at ht
      obtain rfl := Option.some.inj ht
      exact ⟨System.next_owner_fresh (fresh_next_of_startsTimer _ _ hstarts),
        hsound.timer_not_socket hstarts w⟩
    · obtain ⟨howner, hnot⟩ := h.loop.timer t ht
      have hold := hsound.owner_lt t w howner
      refine ⟨(System.next_owner_of_lt hold).trans howner, ?_⟩
      rw [System.next_worker_self]
      intro hsocket
      rcases worker_socket_next hsocket with ⟨-, hsame⟩ | ⟨-, rfl⟩
      · exact hnot hsame
      · exact Nat.lt_irrefl _ hold
  · intro a ha
    have hfresh : (next (sys.aloneView w) e).fresh = (next (sys.view w) e).fresh :=
      fresh_next_congr rfl (hok.status h)
    rw [System.next_alone_self]
    refine blank_next (s := sys.aloneView w) h.loop.blank ?_ (hfresh ▸ ha)
    rintro b rfl
    exact hsound.owner_lt b w henabled.closing.1
  · rw [System.next_alone_self, System.next_worker_self]
    intro hlive
    by_cases henter : e = .enter
    · subst henter
      exact h.loop.blank _ le_rfl
    · have hbefore : (sys.worker w).pc.Live :=
        (live_of_next (s := sys.view w) henabled.thread hlive).resolve_right henter
      obtain ⟨hold, hshared⟩ := hsound.connect w hbefore
      rw [worker_connect_next henter]
      refine Sender.plain_next (s := sys.aloneView w) hold (hclosing ?_) (h.loop.connect hbefore)
      rw [System.view_worker, hshared]
      exact Stage.noConfusion
  · intro a ha
    rw [System.next_worker_self, ← hworker] at ha
    rw [System.next_alone_self]
    rcases worker_socket_next ha with ⟨hkeeps, hsame⟩ | ⟨hnew, rfl⟩
    · rw [System.aloneView_worker, h.worker] at hsame
      have hopen := (hsound.socket w a hsame).2
      refine Sender.opened_next (s := sys.aloneView w) (hsound.socket_lt hsame) ?_ ?_ ?_
        (hclosing ?_) (fun hexit => (h.exit_plain hsound henabled hexit).1)
        (h.loop.opened a hsame)
      · intro hwrites'
        rw [hkeeps] at hwrites'
        cases hwrites'
      · rw [System.aloneView_conn, h.timer]
        exact fun htimer => (h.loop.timer a htimer).2 hsame
      · rintro req b status rfl
        exact ⟨hplain hopen (hsound.requests _ henabled.pending).2, fun hdata =>
          hplain hopen (h.loop.payloads req a hdata).2 rfl⟩
      · rw [hopen]
        exact Stage.noConfusion
    · exact newHandle_opened (by rw [newHandle, if_pos (.inl hnew)])
  · intro a payload hdata
    rw [System.next_alone_self] at hdata
    rcases data_next_some (sys.aloneView w) e hdata with hold | ⟨rfl, t, heap, ret, rfl⟩
    · obtain ⟨hold, hunused⟩ := h.loop.payloads a payload hold
      exact ⟨Nat.lt_of_lt_of_le hold (Sound.fresh_le sys (w, e)),
        Sound.plain_next henabled hold hunused⟩
    · rw [System.next_process, timerCb_stage]
      exact ⟨Nat.lt_add_of_pos_right Nat.two_pos, hsound.blank _ le_rfl⟩

/-- What another worker does to the shared loop is not about this one's handles,
and ends neither the process nor the loop. -/
theorem Mirrored.next_other (h : Mirrored sys w) (hsound : Sound sys) (hv : Mirrored sys v)
    (henabled : sys.Enabled (v, e)) (hok : FindsOwn sys (v, e)) (hne : w ≠ v) :
    Mirrored (sys.next (v, e)) w := by
  constructor
  · intro t
    rw [System.next_alone_of_ne hne, System.next_process, active_view_iff hsound henabled,
      h.running]
    constructor
    · rintro ⟨hactive, howner⟩
      rw [System.next_owner_of_lt (hsound.owner_lt t w howner)]
      refine ⟨.inr ⟨hactive, ?_⟩, howner⟩
      rintro ⟨hstops, hstopped⟩
      have hstored := (hok.findsTimer hstops t hactive).mp hstopped
      rw [(hv.timer t hstored).1] at howner
      exact hne (Option.some.inj howner).symm
    · rintro ⟨⟨hstarts, rfl⟩ | ⟨hactive, -⟩, howner⟩
      · rw [System.next_owner_fresh (fresh_next_of_startsTimer _ _ hstarts)] at howner
        exact absurd (Option.some.inj howner).symm hne
      · obtain ⟨u, hold⟩ := (hsound.active t hactive).1
        rw [System.next_owner_of_lt (hsound.owner_lt t u hold)] at howner
        exact ⟨hactive, howner⟩
  · rw [System.next_alone_of_ne hne, filter_queue_other hsound henabled hne]
    exact h.queue
  · rw [System.next_alone_of_ne hne, System.next_process, fate_view hsound henabled, h.fate]
    cases e with
    | exit => exact absurd (hok w) hne
    | stopLoopClose =>
        rcases hok with ⟨a, ha, -⟩ | hsingle
        · exact (if_neg fun hempty => List.ne_nil_of_mem ha hempty.1).symm
        · exact absurd (hsingle w) hne
    | _ => rfl
  · rw [System.next_stored_of_ne hne, System.next_worker_of_ne hne]
    intro t ht
    obtain ⟨howner, hnot⟩ := h.timer t ht
    exact ⟨(System.next_owner_of_lt (hsound.owner_lt t w howner)).trans howner, hnot⟩
  · rw [System.next_alone_of_ne hne]
    exact fun a ha => h.blank a (Nat.le_trans (Sound.fresh_le sys (v, e)) ha)
  · rw [System.next_alone_of_ne hne, System.next_worker_of_ne hne]
    exact h.connect
  · rw [System.next_alone_of_ne hne, System.next_worker_of_ne hne]
    exact h.opened
  · rw [System.next_alone_of_ne hne]
    intro a payload hdata
    obtain ⟨hlt, hplain⟩ := h.payloads a payload hdata
    exact ⟨Nat.lt_of_lt_of_le hlt (Sound.fresh_le sys (v, e)),
      Sound.plain_next henabled hlt hplain⟩

/-! ## The workers -/

/-- After a step of its own the worker still agrees with itself alone. -/
theorem Agrees.next_own (h : Agrees sys w) (hsound : Sound sys)
    (henabled : sys.Enabled (w, e)) (hok : FindsOwn sys (w, e)) :
    Agrees (sys.next (w, e)) w := by
  have hstatus := hok.status h
  have hwrites : writesSocket (sys.alone w).conn.status e =
      writesSocket sys.process.conn.status e := writesSocket_congr hstatus
  have hworker : (Sender.next (sys.aloneView w) e).worker = (Sender.next (sys.view w) e).worker :=
    worker_next_congr h.worker rfl hstatus (h.exit_plain hsound henabled)
  have haddress : (Sender.next (sys.view w) e).worker.address = (sys.worker w).address :=
    address_next
  have htried (hsocket : (sys.alone w).conn.socket ≠ none ∨
      writesSocket sys.process.conn.status e = true) :
      (Sender.next (sys.aloneView w) e).conn.socket ≠ none := by
    rw [← hwrites] at hsocket
    exact socket_next_ne_none (s := sys.aloneView w) hsocket
  constructor
  · rw [System.next_alone_self, System.next_worker_self, hworker]
  · rw [System.next_alone_self, System.next_stored_self, status_next, status_next]
    cases hw : writesStatus sys.process.conn.status e with
    | true => exact statusAfter_eq_of_writes hstatus hw
    | false =>
        have hkeeps : writesStatus (sys.alone w).conn.status e = false := by
          rw [writesStatus_congr hstatus, hw]
        rw [System.aloneView_conn, statusAfter_of_not_writes hkeeps]
        exact h.status
  · rw [System.next_alone_self, System.next_stored_self, socket_next, socket_next]
    rw [System.aloneView_conn, System.view_conn, hwrites]
    cases hw : writesSocket sys.process.conn.status e with
    | true => rfl
    | false => exact h.socket
  · rw [System.next_alone_self, System.next_stored_self, timer_next, timer_next]
    cases hw : startsTimer e with
    | true => rfl
    | false => exact h.timer
  · rw [System.next_alone_self, System.next_worker_self, ← hworker]
    exact h.untried_next henabled
  · intro hlive
    rw [System.next_worker_self] at hlive ⊢
    rw [haddress]
    exact dest_next henabled.thread h.dest hlive
  · rw [System.next_alone_self, System.next_worker_self, haddress]
    intro a ha
    exact h.connected_next henabled ha
  · intro c hc howner
    rw [System.next_alone_self]
    rcases mem_connects_next _ _ hc with hold | ⟨-, hnew⟩
    · rw [System.next_owner_of_lt (hsound.connects c hold)] at howner
      exact htried (.inl (h.connects c hold howner))
    · exact htried (.inr hnew)
  · intro t ht howner
    rw [System.next_alone_self]
    rcases active_next _ _ ht with hold | ⟨-, -, req, a, status, rfl⟩
    · obtain ⟨u, howner'⟩ := (hsound.active t hold).1
      rw [System.next_owner_of_lt (hsound.owner_lt t u howner')] at howner
      exact htried (.inl (h.active t hold howner))
    · exact htried (.inl (h.connectCb_tried henabled))
  · exact h.mirrored_own hsound henabled hok

/-- A step of another worker changes nothing of the worker's own. -/
theorem Agrees.next_other (h : Agrees sys w) (hsound : Sound sys) (hv : Agrees sys v)
    (henabled : sys.Enabled (v, e)) (hok : FindsOwn sys (v, e)) (hne : w ≠ v) :
    Agrees (sys.next (v, e)) w := by
  constructor
  · rw [System.next_alone_of_ne hne, System.next_worker_of_ne hne]
    exact h.worker
  · rw [System.next_alone_of_ne hne, System.next_stored_of_ne hne]
    exact h.status
  · rw [System.next_alone_of_ne hne, System.next_stored_of_ne hne]
    exact h.socket
  · rw [System.next_alone_of_ne hne, System.next_stored_of_ne hne]
    exact h.timer
  · rw [System.next_alone_of_ne hne, System.next_worker_of_ne hne]
    exact h.untried
  · rw [System.next_worker_of_ne hne]
    exact h.dest
  · rw [System.next_alone_of_ne hne, System.next_worker_of_ne hne]
    exact h.connected
  · intro c hc howner
    rw [System.next_alone_of_ne hne]
    rcases mem_connects_next _ _ hc with hold | ⟨hfresh, hnew⟩
    · rw [System.next_owner_of_lt (hsound.connects c hold)] at howner
      exact h.connects c hold howner
    · have hsucc := fresh_next_of_writesSocket _ _ hnew
      rw [hfresh, System.view_fresh, System.next_owner_fresh hsucc] at howner
      exact absurd (Option.some.inj howner).symm hne
  · intro t ht howner
    rw [System.next_alone_of_ne hne]
    rcases active_next _ _ ht with hold | ⟨rfl, hsucc, -⟩
    · obtain ⟨u, howner'⟩ := (hsound.active t hold).1
      rw [System.next_owner_of_lt (hsound.owner_lt t u howner')] at howner
      exact h.active t hold howner
    · rw [System.view_fresh, System.next_owner_fresh hsucc] at howner
      exact absurd (Option.some.inj howner).symm hne
  · exact h.loop.next_other hsound hv.loop henabled hok hne

theorem Agrees.independent (h : Agrees sys w) (hsound : Sound sys)
    (henabled : sys.Enabled (w, e)) (hok : FindsOwn sys (w, e))
    (hnext : ∀ u, Mirrored (sys.next (w, e)) u) : Independent sys (w, e) := by
  refine ⟨?_, ?_, ?_, fun u => (hnext u).running, fun u => (hnext u).fate⟩
  · refine ⟨newActions (sys.view w) e, actions_next _ _, ?_⟩
    rw [actions_next, h.same hsound henabled hok]
  · rintro ret rfl huntried
    obtain ⟨hdown, hsocket⟩ := h.untried huntried
    have hbody : (sys.worker w).pc = .body := henabled
    have hdest := h.dest (.inr (.inl hbody))
    have hsys := (hok.status h ret rfl).mp hdown
    simp [actions_next, newActions, System.view, hsys, hsocket, hdest]
  · rintro t heap ret rfl
    obtain ⟨howner, -, hcallback⟩ := henabled
    obtain ⟨a, ha⟩ := Option.ne_none_iff_exists'.mp (h.active t hcallback.2 howner)
    refine ⟨a, ?_, h.connected a ha⟩
    have hsocket : sys.process.conn.socket = some a := by
      rw [show sys.process.conn.socket = (sys.stored w).socket from hok, ← h.socket, ha]
    simp [actions_next, newActions, System.view, hsocket]

end Agreement

section Converse

variable [DecidableEq ι] {sys : System ι} {w : ι} {e : Event}

/-- If the actions are those of the worker alone, the fields they depend on
have been as the worker stored them. -/
theorem Agrees.newActions_eq (hsame : Independent sys (w, e)) :
    newActions (sys.view w) e = newActions (sys.aloneView w) e := by
  obtain ⟨acts, hview, halone⟩ := hsame.same
  rw [actions_next] at hview halone
  exact (List.append_cancel_left hview).trans (List.append_cancel_left halone).symm

/-- A timer that the step stops in one process only is missed in the other. -/
theorem Independent.findsTimer (hsame : Independent sys (w, e)) (hagrees : ∀ u, Agrees sys u)
    (hsound : Sound sys) (henabled : sys.Enabled (w, e)) (hstops : stopsTimer e = true) :
    sys.FindsTimer w := by
  intro t hactive
  obtain ⟨u, howner⟩ := (hsound.active t hactive).1
  have hlt := hsound.owner_lt t u howner
  have hnew : sys.process.fresh ≠ t := Nat.ne_of_gt hlt
  have hrunning : (sys.alone u).loop.active t = true :=
    ((hagrees u).loop.running t).mpr ⟨hactive, howner⟩
  have hshared : (next (sys.view w) e).loop.active t = true ↔
      sys.process.conn.timer ≠ some t := by
    rw [active_view_iff hsound henabled]
    simp [hnew, hactive, hstops]
  have htimers := hsame.timers u t
  rw [System.next_owner_of_lt hlt, System.next_process, hshared] at htimers
  by_cases hu : u = w
  · subst hu
    rw [System.next_alone_self, (hagrees u).active_alone_iff hsound henabled] at htimers
    simpa [hnew, hrunning, hstops, howner, not_iff_not, iff_comm] using htimers
  · rw [System.next_alone_of_ne hu] at htimers
    have hkept := (htimers.mp hrunning).1
    refine iff_of_false hkept fun hstored => ?_
    rw [((hagrees w).loop.timer t hstored).1] at howner
    exact hu (Option.some.inj howner).symm

/-- Where the process or the loop comes to an end, there is nobody else. -/
theorem Independent.single (hsame : Independent sys (w, e)) (hagrees : ∀ u, Agrees sys u)
    (hends : (sys.next (w, e)).process.loop.fate ≠ sys.process.loop.fate) : ∀ u, u = w := by
  intro u
  by_contra hu
  have hfate := hsame.fate u
  rw [System.next_alone_of_ne hu, (hagrees u).loop.fate] at hfate
  exact hends hfate.symm

theorem Independent.findsOwn (hsame : Independent sys (w, e)) (hagrees : ∀ u, Agrees sys u)
    (hsound : Sound sys) (henabled : (system ι).enabled sys (w, e)) : FindsOwn sys (w, e) := by
  have hnew := Agrees.newActions_eq hsame
  obtain ⟨hpermits, henabled⟩ := henabled
  cases e with
  | body ret =>
      change sys.process.conn.status = .disconnect ↔ (sys.stored w).status = .disconnect
      rw [← (hagrees w).status]
      by_cases hdown : sys.process.conn.status = .disconnect
      · by_cases halone' : (sys.alone w).conn.status = .disconnect
        · exact iff_of_true hdown halone'
        · simp [newActions, hdown, halone'] at hnew
      · by_cases halone' : (sys.alone w).conn.status = .disconnect
        · simp [newActions, hdown, halone'] at hnew
        · exact iff_of_false hdown halone'
  | timerCb t heap ret =>
      change sys.process.conn.socket = (sys.stored w).socket
      rw [← (hagrees w).socket]
      simpa [newActions] using hnew
  | connectCb | writeCb =>
      intro hstatus
      exact hsame.findsTimer hagrees hsound henabled (by simpa [stopsTimer] using hstatus)
  | exit =>
      refine hsame.single hagrees ?_
      rw [System.next_process, fate_view hsound henabled]
      exact fun haborted => hpermits.not_aborted haborted.symm
  | stopLoopClose =>
      refine Classical.or_iff_not_imp_left.mpr fun hnone => hsame.single hagrees ?_
      have husable : sys.process.loop.fate = .usable :=
        hpermits.resolve_right fun hdestroyed => Bool.noConfusion hdestroyed.2
      have hqueue := (hagrees w).loop.queue_eq_nil.mpr hnone
      have hfate := hsame.fate w
      rw [System.next_alone_self, (hagrees w).fate_alone hsound henabled, nextFate,
        if_pos ⟨hqueue, (hagrees w).loop.fate.trans husable⟩] at hfate
      rw [← hfate, husable]
      exact Fate.noConfusion
  | _ => trivial

end Converse

/-- The sender objects of a process are independent of each other in a run if
and only if each of them, whenever it looks, finds the status, the socket and
the timer of `conn_struct` as it has left them itself, and none of them ends the
process or the loop while there are others. -/
theorem sender_objects_independent_iff [DecidableEq ι] (address : ι → SockAddr)
    {steps : List (ι × Event)} (hrun : (system ι).Runs (System.initial address) steps) :
    (system ι).Along Independent (System.initial address) steps ↔
      (system ι).Along FindsOwn (System.initial address) steps := by
  have hkept : ∀ sys step, (Sound sys ∧ ∀ w, Agrees sys w) → (system ι).enabled sys step →
      FindsOwn sys step → Sound (sys.next step) ∧ ∀ w, Agrees (sys.next step) w := by
    rintro sys ⟨v, e⟩ ⟨hsound, hagrees⟩ ⟨-, henabled⟩ hfinds
    refine ⟨hsound.next henabled, fun w => ?_⟩
    by_cases hw : w = v
    · subst hw
      exact (hagrees w).next_own hsound henabled hfinds
    · exact (hagrees w).next_other hsound (hagrees v) henabled hfinds hw
  refine Machine.along_iff_along (I := fun sys => Sound sys ∧ ∀ w, Agrees sys w) hkept
    ?_ ?_ ⟨sound_initial address, agrees_initial address⟩ hrun
  · rintro sys ⟨w, e⟩ h henabled hfinds
    have hnext := (hkept _ _ h henabled hfinds).2
    exact (h.2 w).independent h.1 henabled.2 hfinds fun u => (hnext u).loop
  · rintro sys ⟨w, e⟩ ⟨hsound, hagrees⟩ henabled hsame
    exact hsame.findsOwn hagrees hsound henabled

/-- With a single object nothing can come between. -/
theorem findsOwn_single [DecidableEq ι] [Subsingleton ι] (address : ι → SockAddr)
    {steps : List (ι × Event)} (hrun : (system ι).Runs (System.initial address) steps) :
    (system ι).Along FindsOwn (System.initial address) steps := by
  refine Machine.along_of_invariant (I := fun sys => ∀ w,
    sys.process.conn.status = (sys.stored w).status ∧
      sys.process.conn.socket = (sys.stored w).socket ∧
        sys.process.conn.timer = (sys.stored w).timer) ?_ ?_ (fun _ => ⟨rfl, rfl, rfl⟩) hrun hrun
  · rintro sys ⟨v, e⟩ h - - w
    obtain rfl := Subsingleton.elim v w
    obtain ⟨hstatus, hsocket, htimer⟩ := h v
    change (sys.next (v, e)).process.conn.status = ((sys.next (v, e)).stored v).status ∧
      (sys.next (v, e)).process.conn.socket = ((sys.next (v, e)).stored v).socket ∧
        (sys.next (v, e)).process.conn.timer = ((sys.next (v, e)).stored v).timer
    rw [System.next_process, System.next_stored_self, status_next, socket_next, timer_next,
      System.view_conn]
    refine ⟨?_, ?_, ?_⟩
    · cases hw : writesStatus sys.process.conn.status e with
      | true => rfl
      | false =>
          rw [statusAfter_of_not_writes hw]
          exact hstatus
    · cases hw : writesSocket sys.process.conn.status e with
      | true => rfl
      | false => exact hsocket
    · cases hw : startsTimer e with
      | true => rfl
      | false => exact htimer
  · rintro sys ⟨v, e⟩ h - -
    obtain ⟨hstatus, hsocket, htimer⟩ := h v
    have hfinds : sys.FindsTimer v := fun t _ => by rw [htimer]
    cases e with
    | body ret => exact iff_of_eq (congrArg (· = Status.disconnect) hstatus)
    | timerCb t heap ret => exact hsocket
    | connectCb | writeCb => exact fun _ => hfinds
    | exit => exact fun w => Subsingleton.elim w v
    | stopLoopClose => exact .inr fun w => Subsingleton.elim w v
    | _ => trivial

/-- Two lines of a plant, each with its own L1. -/
def twoLines (line : Bool) : SockAddr := if line then ⟨"10.0.0.3", 3011⟩ else ⟨"10.0.0.2", 3011⟩

/-- While the first attempt of one sender has failed and the next is still to
come, the other one connects and sends a heartbeat. -/
def relayRun : List (Bool × Event) :=
  [(false, .start), (false, .enter), (false, .test), (false, .body 0),
   (false, .connectCb 0 1 (-111)), (false, .runEnd), (true, .start), (true, .enter),
   (true, .test), (true, .body 0), (true, .connectCb 2 3 0), (true, .timerCb 4 (fun _ => 0) 0)]

theorem sender_objects_independent_iff_relayRun :
    (system Bool).Along Independent (System.initial twoLines) relayRun ↔
      (system Bool).Along FindsOwn (System.initial twoLines) relayRun :=
  sender_objects_independent_iff twoLines (by decide)

/-- Both senders are started. -/
def rivalsRun : List (Bool × Event) :=
  [(false, .start), (false, .enter), (false, .test), (false, .body 0),
   (true, .start), (true, .enter), (true, .test), (true, .body 0)]

/-- The first turn of the second sender's loop finds the status that the first
one has stored, and does not connect. -/
theorem second_sender_never_connects :
    (system Bool).Runs (System.initial twoLines) rivalsRun ∧
      ¬ (system Bool).Along Independent (System.initial twoLines) rivalsRun := by
  refine ⟨by decide, fun h => ?_⟩
  have hlast := ((Machine.along_append rivalsRun.dropLast [(true, .body 0)]).mp h).2.1
  have hconnects := hlast.first 0 rfl rfl
  exact absurd hconnects (by decide)

end L1Comm.Sender
