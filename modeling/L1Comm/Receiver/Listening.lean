import L1Comm.Receiver.Invariant

/-!
The listening socket. Two pieces of code close it: `exit`, and the error branch
of `onConnection`, although an error such as `EMFILE` concerns one connection
and not the socket. Nothing opens it again, so after such an error the loop
runs on without a server, and the end of `thread_task` closes it a second
time. Everything else the receiver does leaves the server alone.
-/

namespace L1Comm.Receiver

open Uv

def Listens : Event → Prop
  | .enter ret => ret = 0
  | _ => True

instance : DecidablePred Listens
  | .enter ret => Int.decEq ret 0
  | .start | .test | .connectionCb .. | .readCb .. | .readErrorCb .. | .closeCb _ | .runEnd
  | .exit | .stopFlag | .stopLoopClose | .stopJoin => .isTrue trivial

/-- The worker, with a `uv_listen` that succeeds. -/
def served : Machine State Event where
  enabled s e := machine.enabled s e ∧ Listens e
  next := next

instance (s : State) (e : Event) : Decidable (served.enabled s e) :=
  inferInstanceAs (Decidable (_ ∧ _))

/-- How often `uv_close` has been called on the handle. -/
def closes (trace : List Call) (h : Addr) : Nat := trace.count (.close (some h))

/-- The traces that close this handle only while it is open. -/
def closedWhileOpen (h : Addr) : Machine (Loop SockAddr) Call where
  enabled l c := c = .close (some h) → l.stage h = .opened
  next := Loop.after

/-- What the server is owed: up to the call of `Stop` it is open and listens;
it is closed once, and by the time the thread ends; and it is never closed
after that. -/
structure ServerKept (s : State) : Prop where
  listening : s.worker.pc.Live → s.worker.stop = false →
    s.loop.stage s.worker.server = .opened ∧ s.loop.listening s.worker.server = true
  once : closes s.trace s.worker.server ≤ 1
  finished : s.worker.pc = .done → closes s.trace s.worker.server = 1
  legal : (closedWhileOpen s.worker.server).Runs {} s.trace

/-- The entry reports an error for a connection of the server. -/
@[simp] def FailsConnection (h : Addr) : Call → Prop
  | .connectionCb server status => server = h ∧ status ≠ 0
  | _ => False

def ConnectionFailed (trace : List Call) (h : Addr) : Prop := ∃ c ∈ trace, FailsConnection h c

/-- No error of a connection is reported before `Stop` is called, and none has
been reported at all when the thread comes to its end. -/
def ListenSafe (s : State) : Event → Prop
  | .connectionCb _ status _ => status ≠ 0 → s.worker.stop = true
  | .exit => ¬ ConnectionFailed s.trace s.worker.server
  | _ => True

section Traces

variable (first second : List Call) (h : Addr)

@[simp] theorem closes_nil : closes [] h = 0 := rfl

@[simp] theorem closes_append : closes (first ++ second) h = closes first h + closes second h :=
  List.count_append

@[simp] theorem closes_cons (c : Call) :
    closes (c :: first) h = closes first h + if c = .close (some h) then 1 else 0 := by
  simp [closes, List.count_cons]

@[simp] theorem connectionFailed_nil : ¬ ConnectionFailed [] h := by
  simp [ConnectionFailed]

@[simp] theorem connectionFailed_append :
    ConnectionFailed (first ++ second) h ↔
      ConnectionFailed first h ∨ ConnectionFailed second h := by
  simp [ConnectionFailed, or_and_right, exists_or]

@[simp] theorem connectionFailed_cons (c : Call) :
    ConnectionFailed (c :: first) h ↔ FailsConnection h c ∨ ConnectionFailed first h := by
  simp [ConnectionFailed]

@[simp] theorem closedWhileOpen_enabled (l : Loop SockAddr) (c : Call) :
    (closedWhileOpen h).enabled l c = (c = .close (some h) → l.stage h = .opened) := rfl

@[simp] theorem closedWhileOpen_next (l : Loop SockAddr) (c : Call) :
    (closedWhileOpen h).next l c = l.after c := rfl

variable {first h}

/-- A trace without the handle is no matter. -/
theorem closedWhileOpen_of_closes (l : Loop SockAddr) (hnone : closes first h = 0) :
    (closedWhileOpen h).Runs l first := by
  induction first generalizing l with
  | nil => trivial
  | cons c rest ih =>
      rw [closes_cons] at hnone
      obtain ⟨hrest, hc⟩ := Nat.add_eq_zero_iff.mp hnone
      exact ⟨fun hclose => by simp [hclose] at hc, ih _ hrest⟩

end Traces

/-- The server that a trace entry closes or reports a connection of. -/
@[simp] def names : Call → Ptr
  | .close p => p
  | .connectionCb server _ => some server
  | _ => none

/-- Handles that are named have been allocated. -/
def Named (trace : List Call) (bound : Addr) : Prop := ∀ c ∈ trace, ∀ h ∈ names c, h < bound

theorem Named.unused {trace : List Call} {bound : Addr} (h : Named trace bound) :
    closes trace bound = 0 ∧ ¬ ConnectionFailed trace bound := by
  constructor
  · apply List.count_eq_zero_of_not_mem
    intro hmem
    exact Nat.lt_irrefl _ (h _ hmem bound rfl)
  · rintro ⟨c, hmem, hfails⟩
    cases c with
    | connectionCb server status =>
        obtain ⟨rfl, -⟩ := hfails
        exact Nat.lt_irrefl _ (h _ hmem server rfl)
    | _ => exact hfails

/-- The invariant of the runs whose steps are all `ListenSafe`: the server is
as it was made, or `Stop` has been called and it has been closed. -/
structure Kept (s : State) : Prop where
  replayed : s.Replayed
  named : Named s.trace s.fresh
  legal : (closedWhileOpen s.worker.server).Runs {} s.trace
  once : closes s.trace s.worker.server ≤ 1
  finished : s.worker.pc = .done → closes s.trace s.worker.server = 1
  serving : s.worker.pc.Live → ¬ ConnectionFailed s.trace s.worker.server →
    s.loop.stage s.worker.server = .opened ∧ s.loop.listening s.worker.server = true ∧
      closes s.trace s.worker.server = 0
  failed : s.worker.pc.Live → ConnectionFailed s.trace s.worker.server →
    s.worker.stop = true ∧ s.loop.listening s.worker.server = false ∧
      closes s.trace s.worker.server = 1

theorem kept_initial (host : String) (port : Int) (callback : Addr) :
    Kept (initial host port callback) := by
  refine ⟨rfl, ?_, trivial, ?_, ?_, ?_, ?_⟩ <;> simp [initial, Pc.Live, Named]

namespace Kept

variable {s : State}

theorem serverKept (h : Kept s) : ServerKept s where
  listening hlive hstop := by
    by_cases hfailed : ConnectionFailed s.trace s.worker.server
    · have hstopped := (h.failed hlive hfailed).1
      rw [hstop] at hstopped
      exact absurd hstopped Bool.false_ne_true
    · obtain ⟨hopen, hlistening, -⟩ := h.serving hlive hfailed
      exact ⟨hopen, hlistening⟩
  once := h.once
  finished := h.finished
  legal := h.legal

/-- Most steps add nothing to the trace that is about the server. -/
theorem of_frame (h : Kept s) {s' : State} (added : List Call)
    (htrace : s'.trace = s.trace ++ added) (hreplayed : s'.Replayed) (hfresh : s.fresh ≤ s'.fresh)
    (hnames : Named added s'.fresh) (hcloses : closes added s.worker.server = 0)
    (hfails : ¬ ConnectionFailed added s.worker.server)
    (hserver : s'.worker.server = s.worker.server)
    (hlive : s'.worker.pc.Live →
      s.worker.pc.Live ∧ (s.worker.stop = true → s'.worker.stop = true))
    (hdone : s'.worker.pc = .done → s.worker.pc = .done)
    (hstage : s.loop.stage s.worker.server = .opened → s'.loop.stage s.worker.server = .opened)
    (hlistening : s'.loop.listening s.worker.server = s.loop.listening s.worker.server) :
    Kept s' := by
  have hcount : closes s'.trace s.worker.server = closes s.trace s.worker.server := by
    rw [htrace, closes_append, hcloses, Nat.add_zero]
  have hfailed : ConnectionFailed s'.trace s.worker.server ↔
      ConnectionFailed s.trace s.worker.server := by
    rw [htrace, connectionFailed_append, or_iff_left hfails]
  constructor
  · exact hreplayed
  · intro c hc a ha
    rw [htrace] at hc
    rcases List.mem_append.mp hc with hold | hnew
    · exact Nat.lt_of_lt_of_le (h.named c hold a ha) hfresh
    · exact hnames c hnew a ha
  · rw [hserver, htrace]
    exact (Machine.along_append _ _).mpr ⟨h.legal, closedWhileOpen_of_closes _ hcloses⟩
  · rw [hserver, hcount]
    exact h.once
  · intro hpc
    rw [hserver, hcount]
    exact h.finished (hdone hpc)
  · intro hpc hnot
    rw [hserver, hfailed] at hnot
    obtain ⟨hopen, hlistens, hnone⟩ := h.serving (hlive hpc).1 hnot
    rw [hserver, hcount, hlistening]
    exact ⟨hstage hopen, hlistens, hnone⟩
  · intro hpc hsome
    rw [hserver, hfailed] at hsome
    obtain ⟨hstop, hlistens, hone⟩ := h.failed (hlive hpc).1 hsome
    rw [hserver, hcount, hlistening]
    exact ⟨(hlive hpc).2 hstop, hlistens, hone⟩

theorem enter (h : Kept s) : Kept (next s (.enter 0)) := by
  obtain ⟨hcloses, hfails⟩ := h.named.unused
  constructor
  · exact replayed_next h.replayed _
  · intro c hc a ha
    simp [next, Receiver.enter] at hc ⊢
    rcases hc with hold | rfl | rfl | rfl | rfl
    · exact Nat.le_of_lt (h.named c hold a ha)
    all_goals simp at ha
  · change (closedWhileOpen s.fresh).Runs {} (next s (.enter 0)).trace
    apply closedWhileOpen_of_closes
    simp [next, Receiver.enter, hcloses]
  · simp [next, Receiver.enter, hcloses]
  · simp [next, Receiver.enter]
  · simp [next, Receiver.enter, hcloses]
  · simp [next, Receiver.enter, hfails]

/-- Of the error branch: the server, still open, is closed after `Stop`. -/
theorem connectionCb_failed (h : Kept s) (hwf : WellFormed s) {server : Addr} {status ret : Int}
    (henabled : Enabled s (.connectionCb server status ret)) (hstatus : status ≠ 0)
    (hok : ListenSafe s (.connectionCb server status ret)) :
    Kept (next s (.connectionCb server status ret)) := by
  obtain ⟨hlive, rfl⟩ := hwf.listening server henabled.2
  have hbefore : ¬ ConnectionFailed s.trace s.worker.server := by
    intro hfailed
    have hdeaf := (h.failed hlive hfailed).2.1
    rw [henabled.2] at hdeaf
    exact Bool.false_ne_true hdeaf.symm
  obtain ⟨hopen, -, hnone⟩ := h.serving hlive hbefore
  have hreplayed : s.loop = (closedWhileOpen s.worker.server).after {} s.trace := h.replayed
  constructor
  · exact replayed_next h.replayed _
  · intro c hc a ha
    simp [next, onConnection, hstatus] at hc ⊢
    rcases hc with hold | rfl | rfl
    · exact h.named c hold a ha
    all_goals
      simp at ha
      rw [← ha]
      exact hwf.server_lt
  · simp [next, onConnection, hstatus, h.legal, ← hreplayed, hopen]
  · simp [next, onConnection, hstatus, hnone]
  · simp [next, henabled.1]
  · simp [next, onConnection, hstatus]
  · simp [next, onConnection, hstatus, hnone, hok hstatus]

theorem connectionCb (h : Kept s) (hwf : WellFormed s) {server : Addr} {status ret : Int}
    (henabled : Enabled s (.connectionCb server status ret))
    (hok : ListenSafe s (.connectionCb server status ret)) :
    Kept (next s (.connectionCb server status ret)) := by
  by_cases hstatus : status = 0
  · subst hstatus
    have hlt : server < s.fresh := by
      rw [(hwf.listening server henabled.2).2]
      exact hwf.server_lt
    have hne : s.fresh ≠ s.worker.server := Nat.ne_of_gt hwf.server_lt
    by_cases hret : ret = 0
    · refine h.of_frame [.connectionCb server 0, .malloc s.fresh, .tcpInit s.fresh,
        .accept server s.fresh ret, .readStart s.fresh] ?_ (replayed_next h.replayed _) ?_ ?_
        ?_ ?_ rfl (fun hpc => ⟨hpc, id⟩) id ?_ ?_
      all_goals simp [next, onConnection, hret, Named, hne]
      exact Nat.le_of_lt hlt
    · refine h.of_frame [.connectionCb server 0, .malloc s.fresh, .tcpInit s.fresh,
        .accept server s.fresh ret, .close (some s.fresh)] ?_ (replayed_next h.replayed _) ?_ ?_
        ?_ ?_ rfl (fun hpc => ⟨hpc, id⟩) id ?_ ?_
      all_goals simp [next, onConnection, hret, Named, hne]
      exact Nat.le_of_lt hlt
  · exact h.connectionCb_failed hwf henabled hstatus hok

/-- Only clients are read from, and the buffer is not a handle. -/
theorem readCb (h : Kept s) (hwf : WellFormed s) {a : Addr} {nread : Int} {buf : Buffer}
    (henabled : Enabled s (.readCb a nread buf)) : Kept (next s (.readCb a nread buf)) := by
  obtain ⟨hlt, hclient⟩ := hwf.connections_lt a (hwf.reading a henabled.2.1).1
  have hne : s.fresh ≠ s.worker.server := Nat.ne_of_gt hwf.server_lt
  by_cases hnread : nread < 0
  · refine h.of_frame [.malloc s.fresh, .readCb a nread buf, .close (some a)] ?_
      (replayed_next h.replayed _) ?_ ?_ ?_ ?_ rfl (fun hpc => ⟨hpc, id⟩) id ?_ ?_
    all_goals simp [next, onRead, allocBuffer, hnread, Named, hclient]
    exact Nat.le_of_lt hlt
  · refine h.of_frame [.malloc s.fresh, .readCb a nread buf, .free (some s.fresh)] ?_
      (replayed_next h.replayed _) ?_ ?_ ?_ ?_ rfl (fun hpc => ⟨hpc, id⟩) id ?_ ?_
    all_goals simp [next, onRead, allocBuffer, hnread, Named, hne]

theorem readErrorCb (h : Kept s) (hwf : WellFormed s) {a : Addr} {nread : Int}
    (henabled : Enabled s (.readErrorCb a nread)) : Kept (next s (.readErrorCb a nread)) := by
  obtain ⟨hlt, hclient⟩ := hwf.connections_lt a (hwf.reading a henabled.2.1).1
  refine h.of_frame [.readErrorCb a nread, .close (some a)] ?_
    (replayed_next h.replayed _) ?_ ?_ ?_ ?_ rfl (fun hpc => ⟨hpc, id⟩) id ?_ ?_
  all_goals simp [next, Named, hclient, hlt]

theorem closeCb (h : Kept s) {a : Addr} (henabled : Enabled s (.closeCb a)) :
    Kept (next s (.closeCb a)) := by
  refine h.of_frame [.closeCb a, .free (some a)] ?_ (replayed_next h.replayed _) ?_ ?_ ?_ ?_ rfl
    (fun hpc => ⟨hpc, id⟩) id ?_ ?_
  all_goals simp [next, onClose, Named]
  intro hopen
  have hne : a ≠ s.worker.server := by
    rintro rfl
    rw [henabled.2] at hopen
    exact absurd hopen (by decide)
  simp [hne, hopen]

/-- Without an error before, the end of the thread closes an open server. -/
theorem exit (h : Kept s) (hwf : WellFormed s) (hexit : s.worker.pc = .exit)
    (hok : ListenSafe s .exit) : Kept (next s .exit) := by
  obtain ⟨hopen, -, hnone⟩ := h.serving (.inr (.inr hexit)) hok
  have hreplayed : s.loop = (closedWhileOpen s.worker.server).after {} s.trace := h.replayed
  constructor
  · exact replayed_next h.replayed _
  · intro c hc a ha
    simp [next, Receiver.exit] at hc ⊢
    rcases hc with hold | rfl
    · exact h.named c hold a ha
    · simp at ha
      rw [← ha]
      exact hwf.server_lt
  · simp [next, Receiver.exit, h.legal, ← hreplayed, hopen]
  · simp [next, Receiver.exit, hnone]
  · simp [next, Receiver.exit, hnone]
  · simp [next, Receiver.exit, Pc.Live]
  · simp [next, Receiver.exit, Pc.Live]

/-- A step of the thread or the caller that adds nothing to the trace. -/
theorem of_worker (h : Kept s) (w : Worker) (hserver : w.server = s.worker.server)
    (hlive : w.pc.Live → s.worker.pc.Live ∧ (s.worker.stop = true → w.stop = true))
    (hdone : w.pc = .done → s.worker.pc = .done) : Kept {s with worker := w} :=
  h.of_frame [] (List.append_nil _).symm h.replayed le_rfl (by simp [Named]) rfl (by simp)
    hserver hlive hdone id rfl

protected theorem next (h : Kept s) (hwf : WellFormed s) {e : Event}
    (henabled : served.enabled s e) (hok : ListenSafe s e) : Kept (next s e) := by
  obtain ⟨⟨-, henabled⟩, hlistens⟩ := henabled
  cases e with
  | start => exact h.of_worker _ rfl (by simp [Pc.Live]) (by simp)
  | enter ret =>
      rw [show ret = 0 from hlistens]
      exact h.enter
  | test =>
      have hhead : s.worker.pc = .head := henabled
      refine h.of_worker _ rfl (fun _ => ⟨.inl hhead, id⟩) ?_
      dsimp only
      split <;> simp
  | connectionCb server status ret => exact h.connectionCb hwf henabled hok
  | readCb a nread buf => exact h.readCb hwf henabled
  | readErrorCb a nread => exact h.readErrorCb hwf henabled
  | closeCb a => exact h.closeCb henabled
  | runEnd =>
      have hrun : s.worker.pc = .run := henabled
      exact h.of_worker _ rfl (fun _ => ⟨.inr (.inl hrun), id⟩) (by simp)
  | exit => exact h.exit hwf henabled hok
  | stopFlag => exact h.of_worker _ rfl (fun hpc => ⟨hpc, fun _ => rfl⟩) id
  | stopLoopClose =>
      refine h.of_frame [.loopClose (loopCloseRet s.loop)] ?_ (replayed_next h.replayed _) ?_ ?_
        ?_ ?_ rfl (fun hpc => ⟨hpc, id⟩) id ?_ ?_
      all_goals simp [Receiver.next, Named]
  | stopJoin => exact h.of_worker _ rfl (by simp [Pc.Live]) (by simp)

/-- A step that is not `ListenSafe` breaks the property at once. -/
theorem fault (h : Kept s) (hwf : WellFormed s) {e : Event} (henabled : Enabled s e)
    (hbad : ¬ ListenSafe s e) : ¬ ServerKept (Receiver.next s e) := by
  cases e with
  | connectionCb server status ret =>
      obtain ⟨hstatus, hstop⟩ : status ≠ 0 ∧ s.worker.stop = false := by
        simpa [ListenSafe] using hbad
      obtain ⟨hlive, rfl⟩ := hwf.listening server henabled.2
      intro hkept
      have hlistens := (hkept.listening hlive hstop).2
      simp [Receiver.next, onConnection, hstatus] at hlistens
  | exit =>
      have hfailed : ConnectionFailed s.trace s.worker.server := not_not.mp hbad
      have hexit : s.worker.pc = .exit := henabled
      have hone := (h.failed (.inr (.inr hexit)) hfailed).2.2
      intro hkept
      have honce := hkept.once
      simp [Receiver.next, Receiver.exit, hone] at honce
  | _ => exact absurd trivial hbad

end Kept

/-- In a run whose `uv_listen` has succeeded the server is open and listening
until `Stop`, and closed once by the end of the thread, if and only if no error
of a connection is reported before `Stop`, nor any before the thread ends. -/
theorem server_kept_iff {host : String} {port : Int} {callback : Addr} {events : List Event}
    (hrun : served.Runs (initial host port callback) events) :
    served.Always ServerKept (initial host port callback) events ↔
      served.Along ListenSafe (initial host port callback) events :=
  Machine.always_iff_along (I := fun s => WellFormed s ∧ Kept s)
    (fun _ _ h henabled hok => ⟨h.1.next henabled.1.2, h.2.next h.1 henabled hok⟩)
    (fun _ h => h.2.serverKept)
    (fun _ _ h henabled hbad => h.2.fault h.1 henabled.1.2 hbad)
    ⟨wellFormed_initial host port callback, kept_initial host port callback⟩ hrun

/-- Two clients, one of which is not accepted, and a stop. -/
def servingRun : List Event :=
  [.start, .enter 0, .test, .connectionCb 1 0 0, .connectionCb 1 0 (-11), .closeCb 3, .runEnd,
   .stopFlag, .test, .exit]

theorem server_kept_iff_servingRun :
    served.Always ServerKept (initial "10.0.0.1" 3001 0) servingRun ↔
      served.Along ListenSafe (initial "10.0.0.1" 3001 0) servingRun :=
  server_kept_iff (by decide)

/-- The process is out of file descriptors for a moment: the connection is
reported with `-24`. -/
def exhaustedRun : List Event :=
  [.start, .enter 0, .test, .connectionCb 1 (-24) 0, .closeCb 1, .runEnd, .stopFlag, .test, .exit]

/-- The server is closed and released while the loop runs on, and closed again
when it ends. -/
theorem server_lost_to_error :
    served.Runs (initial "10.0.0.1" 3001 0) exhaustedRun ∧
      ¬ served.Always ServerKept (initial "10.0.0.1" 3001 0) exhaustedRun := by
  refine ⟨by decide, fun h => ?_⟩
  have honce := h.last.once
  exact absurd honce (by decide)

end L1Comm.Receiver
