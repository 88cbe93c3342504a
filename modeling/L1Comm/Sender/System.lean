import L1Comm.Sender.Actions
import Mathlib.Logic.Function.Basic

/-!
Several sender objects in one process. Host, port, thread and stop flag belong
to the object; `conn_struct` and the loop are static, so all objects share
them. `System` is the process with a family of workers; a callback is an event
on account of the worker that created its handle, and any thread inside
`uv_run` may run it.

Besides the process and the workers the system records which worker allocated
an address, so that a callback has an account, what each worker itself has
last stored in the fields of `conn_struct`, and what the worker would be in a
process of its own, where it takes the same steps with the same outcomes,
addresses from `malloc` included.
-/

namespace L1Comm.Sender

open Uv

variable {ι : Type*}

/-- What a worker has last stored in `conn_struct`. -/
structure Stored where
  status : Status := .disconnect
  socket : Ptr := none
  timer : Ptr := none

structure System (ι : Type*) where
  process : Process := {}
  worker : ι → Worker
  owner : Addr → Option ι := fun _ => none
  stored : ι → Stored := fun _ => {}
  /-- Each worker in a process of its own. -/
  alone : ι → State

namespace System

/-- The process as one of the workers sees it. -/
def view (sys : System ι) (w : ι) : State := ⟨sys.process, sys.worker w⟩

/-- The worker in its own process, where `malloc` goes on as in the system. -/
def aloneView (sys : System ι) (w : ι) : State := {sys.alone w with fresh := sys.process.fresh}

/-- Steps of a thread are taken by the thread. Callbacks are run by whichever
thread is inside `uv_run`. -/
def Enabled (sys : System ι) (step : ι × Event) : Prop :=
  match step.2.handle with
  | none => Sender.Enabled (sys.view step.1) step.2
  | some h => sys.owner h = some step.1 ∧ (∃ v, (sys.worker v).pc = .run) ∧
      Sender.Enabled {sys.view step.1 with worker.pc := .run} step.2

def next [DecidableEq ι] (sys : System ι) (step : ι × Event) : System ι :=
  let (w, e) := step
  let status := sys.process.conn.status
  let s := Sender.next (sys.view w) e
  {process := s.toProcess
   worker := Function.update sys.worker w s.worker
   owner := fun a => if sys.process.fresh ≤ a ∧ a < s.fresh then some w else sys.owner a
   stored := Function.update sys.stored w
    {status := if writesStatus status e then s.conn.status else (sys.stored w).status
     socket := if writesSocket status e then s.conn.socket else (sys.stored w).socket
     timer := if startsTimer e then s.conn.timer else (sys.stored w).timer}
   alone := Function.update sys.alone w (Sender.next (sys.aloneView w) e)}

end System

def system (ι : Type*) [DecidableEq ι] : Machine (System ι) (ι × Event) where
  enabled sys step := sys.process.loop.Permits step.2.usesLoop ∧ sys.Enabled step
  next := System.next

instance [DecidableEq ι] [Fintype ι] (sys : System ι) (step : ι × Event) :
    Decidable (sys.Enabled step) :=
  match h : step.2.handle with
  | none => decidable_of_iff (Sender.Enabled (sys.view step.1) step.2) (by
      simp only [System.Enabled, h])
  | some a => decidable_of_iff
      (sys.owner a = some step.1 ∧ (∃ v, (sys.worker v).pc = .run) ∧
        Sender.Enabled {sys.view step.1 with worker.pc := .run} step.2) (by
      simp only [System.Enabled, h])

instance [DecidableEq ι] [Fintype ι] (sys : System ι) (step : ι × Event) :
    Decidable ((system ι).enabled sys step) :=
  inferInstanceAs (Decidable (_ ∧ _))

/-- A fresh process with workers that have not been started. -/
def System.initial (address : ι → SockAddr) : System ι where
  worker w := (Sender.initial (address w).host (address w).port).worker
  alone w := Sender.initial (address w).host (address w).port

namespace System

section Views

variable (sys : System ι) (w : ι)

@[simp] theorem view_conn : (sys.view w).conn = sys.process.conn := rfl

@[simp] theorem view_loop : (sys.view w).loop = sys.process.loop := rfl

@[simp] theorem view_fresh : (sys.view w).fresh = sys.process.fresh := rfl

@[simp] theorem view_worker : (sys.view w).worker = sys.worker w := rfl

@[simp] theorem aloneView_conn : (sys.aloneView w).conn = (sys.alone w).conn := rfl

@[simp] theorem aloneView_trace : (sys.aloneView w).trace = (sys.alone w).trace := rfl

@[simp] theorem aloneView_fresh : (sys.aloneView w).fresh = sys.process.fresh := rfl

@[simp] theorem aloneView_worker : (sys.aloneView w).worker = (sys.alone w).worker := rfl

end Views

variable [DecidableEq ι] {sys : System ι} {w v : ι} {e : Event}

@[simp] theorem next_process :
    (sys.next (w, e)).process = (Sender.next (sys.view w) e).toProcess := rfl

theorem next_worker_self : (sys.next (w, e)).worker w = (Sender.next (sys.view w) e).worker :=
  Function.update_self ..

theorem next_worker_of_ne (h : w ≠ v) : (sys.next (v, e)).worker w = sys.worker w :=
  Function.update_of_ne h ..

theorem next_alone_self : (sys.next (w, e)).alone w = Sender.next (sys.aloneView w) e :=
  Function.update_self ..

theorem next_alone_of_ne (h : w ≠ v) : (sys.next (v, e)).alone w = sys.alone w :=
  Function.update_of_ne h ..

theorem next_stored_self : (sys.next (w, e)).stored w =
    {status := if writesStatus sys.process.conn.status e then
        (Sender.next (sys.view w) e).conn.status else (sys.stored w).status
     socket := if writesSocket sys.process.conn.status e then
        (Sender.next (sys.view w) e).conn.socket else (sys.stored w).socket
     timer := if startsTimer e then
        (Sender.next (sys.view w) e).conn.timer else (sys.stored w).timer} :=
  Function.update_self ..

theorem next_stored_of_ne (h : w ≠ v) : (sys.next (v, e)).stored w = sys.stored w :=
  Function.update_of_ne h ..

theorem next_owner_of_lt {a : Addr} (h : a < sys.process.fresh) :
    (sys.next (v, e)).owner a = sys.owner a :=
  if_neg fun hnew => absurd h (Nat.not_lt.mpr hnew.1)

theorem next_owner_fresh
    (h : (Sender.next (sys.view v) e).fresh = sys.process.fresh + 1) :
    (sys.next (v, e)).owner sys.process.fresh = some v :=
  if_pos ⟨Nat.le_refl _, by rw [h]; exact Nat.lt_succ_self _⟩

theorem next_owner_newHandle {a : Addr} (h : newHandle (sys.view v) e = some a) :
    a = sys.process.fresh ∧ (sys.next (v, e)).owner a = some v := by
  rw [newHandle] at h
  split at h
  · next hnew =>
    obtain rfl := Option.some.inj h
    refine ⟨rfl, next_owner_fresh ?_⟩
    rcases hnew with hsocket | htimer
    · exact fresh_next_of_writesSocket _ _ hsocket
    · exact fresh_next_of_startsTimer _ _ htimer
  · cases h

end System

section Enabled

variable {sys : System ι} {v : ι} {e : Event}

theorem System.Enabled.thread (h : sys.Enabled (v, e)) (hthread : e.handle = none) :
    Sender.Enabled (sys.view v) e := by
  unfold System.Enabled at h
  simpa only [hthread] using h

/-- A close callback is run for a closing handle of the worker. -/
theorem System.Enabled.closing {a : Addr} (h : sys.Enabled (v, .closeCb a)) :
    sys.owner a = some v ∧ sys.process.loop.stage a = .closing :=
  ⟨h.1, h.2.2.2.1⟩

theorem System.Enabled.pending {req a : Addr} {status : Int}
    (h : sys.Enabled (v, .writeCb req a status)) : ⟨req, a⟩ ∈ sys.process.loop.writes :=
  h.2.2.2.1

end Enabled

/-- What the objects of a process have in the loop and on the heap: each its
socket, which is open, its connect request, its timers, and the requests and
payloads of its heartbeats. -/
structure Sound (sys : System ι) : Prop where
  replayed : sys.process.Replayed
  owner_lt : ∀ a w, sys.owner a = some w → a < sys.process.fresh
  blank : ∀ a, sys.process.fresh ≤ a → sys.process.loop.stage a = .uninitialised
  connect : ∀ w, (sys.worker w).pc.Live → (sys.worker w).connect < sys.process.fresh ∧
    sys.process.loop.stage (sys.worker w).connect = .uninitialised
  socket : ∀ w h, (sys.worker w).socket = some h →
    sys.owner h = some w ∧ sys.process.loop.stage h = .opened
  timer : ∀ t, sys.process.conn.timer = some t →
    t < sys.process.fresh ∧ ∀ w, (sys.worker w).socket ≠ some t
  active : ∀ t, sys.process.loop.active t = true →
    (∃ w, sys.owner t = some w) ∧ sys.process.loop.stage t ≠ .uninitialised ∧
      ∀ w, (sys.worker w).socket ≠ some t
  connects : ∀ c ∈ sys.process.loop.connects, c.handle < sys.process.fresh
  requests : ∀ c ∈ sys.process.loop.writes, c.req < sys.process.fresh ∧
    sys.process.loop.stage c.req = .uninitialised
  payloads : ∀ a payload, sys.process.data a = some payload → payload < sys.process.fresh ∧
    sys.process.loop.stage payload = .uninitialised
  queue : ∀ h ∈ sys.process.loop.queue, ∃ w, sys.owner h = some w

theorem sound_initial (address : ι → SockAddr) : Sound (System.initial address) := by
  refine ⟨rfl, ?_, ?_, ?_, ?_, ?_, ?_, ?_, ?_, ?_, ?_⟩ <;>
    simp [System.initial, Sender.initial, Pc.Live]

namespace Sound

variable {sys : System ι} {w v : ι} {e : Event} {a : Addr}

theorem exit_plain (h : Sound sys) (henabled : sys.Enabled (v, e)) (hexit : e = .exit) :
    sys.process.loop.stage (sys.worker v).connect = .uninitialised := by
  subst hexit
  have hpc : (sys.worker v).pc = .exit := henabled
  exact (h.connect v (.inr (.inr (.inr hpc)))).2

theorem socket_lt (h : Sound sys) (hsocket : (sys.worker w).socket = some a) :
    a < sys.process.fresh :=
  h.owner_lt a w (h.socket w a hsocket).1

/-- Each object has a socket of its own. -/
theorem socket_ne (h : Sound sys) (hsocket : (sys.worker w).socket = some a) (hne : w ≠ v) :
    (sys.worker v).socket ≠ some a := by
  intro hother
  have hsame := (h.socket w a hsocket).1.symm.trans (h.socket v a hother).1
  exact hne (Option.some.inj hsame)

variable [DecidableEq ι]

theorem fresh_le (sys : System ι) (step : ι × Event) :
    sys.process.fresh ≤ (sys.next step).process.fresh :=
  fresh_le_next (sys.view step.1) step.2

/-- Memory that is no handle stays so. -/
theorem plain_next (henabled : sys.Enabled (v, e)) (hlt : a < sys.process.fresh)
    (hplain : sys.process.loop.stage a = .uninitialised) :
    (sys.next (v, e)).process.loop.stage a = .uninitialised := by
  refine Sender.plain_next (s := sys.view v) hlt ?_ hplain
  rintro rfl
  have hclosing := henabled.closing.2
  rw [hplain] at hclosing
  cases hclosing

/-- The sockets of all objects stay open; only its own object replaces one. -/
theorem opened_next (h : Sound sys) (henabled : sys.Enabled (v, e))
    (hsocket : (sys.worker w).socket = some a)
    (hown : w = v → writesSocket sys.process.conn.status e = false) :
    (sys.next (v, e)).process.loop.stage a = .opened := by
  obtain ⟨-, hopen⟩ := h.socket w a hsocket
  have hplain {b : Addr} (hb : sys.process.loop.stage b = .uninitialised) : b ≠ a := by
    rintro rfl
    rw [hopen] at hb
    cases hb
  refine Sender.opened_next (s := sys.view v) (h.socket_lt hsocket) ?_ ?_ ?_ ?_ ?_ hopen
  · intro hwrites
    by_cases hw : w = v
    · rw [System.view_conn, hown hw] at hwrites
      cases hwrites
    · exact h.socket_ne hsocket hw
  · exact fun htimer => (h.timer a htimer).2 w hsocket
  · rintro req b status rfl
    exact ⟨hplain (h.requests _ henabled.pending).2, fun hdata =>
      hplain (h.payloads req a hdata).2 rfl⟩
  · rintro rfl
    have hclosing := henabled.closing.2
    rw [hopen] at hclosing
    cases hclosing
  · exact h.exit_plain henabled

theorem owner_next {w : ι} (hlt : a < sys.process.fresh) :
    (sys.next (v, e)).owner a = some w ↔ sys.owner a = some w := by
  rw [System.next_owner_of_lt hlt]

theorem connect_next (h : Sound sys) (henabled : sys.Enabled (v, e))
    (hlive : ((sys.next (v, e)).worker w).pc.Live) :
    ((sys.next (v, e)).worker w).connect < (sys.next (v, e)).process.fresh ∧
      (sys.next (v, e)).process.loop.stage ((sys.next (v, e)).worker w).connect =
        .uninitialised := by
  have hold (hlive : (sys.worker w).pc.Live) :
      (sys.worker w).connect < (sys.next (v, e)).process.fresh ∧
        (sys.next (v, e)).process.loop.stage (sys.worker w).connect = .uninitialised := by
    obtain ⟨hlt, hplain⟩ := h.connect w hlive
    exact ⟨Nat.lt_of_lt_of_le hlt (fresh_le sys (v, e)), plain_next henabled hlt hplain⟩
  by_cases hw : w = v
  · subst hw
    rw [System.next_worker_self] at hlive ⊢
    by_cases henter : e = .enter
    · subst henter
      exact ⟨Nat.lt_succ_self _, h.blank _ le_rfl⟩
    · rw [worker_connect_next henter]
      exact hold ((live_of_next (s := sys.view w) henabled.thread hlive).resolve_right henter)
  · rw [System.next_worker_of_ne hw] at hlive ⊢
    exact hold hlive

theorem socket_next (h : Sound sys) (henabled : sys.Enabled (v, e))
    (hsocket : ((sys.next (v, e)).worker w).socket = some a) :
    (sys.next (v, e)).owner a = some w ∧ (sys.next (v, e)).process.loop.stage a = .opened := by
  have hold (hsocket : (sys.worker w).socket = some a)
      (hown : w = v → writesSocket sys.process.conn.status e = false) :
      (sys.next (v, e)).owner a = some w ∧
        (sys.next (v, e)).process.loop.stage a = .opened :=
    ⟨(owner_next (h.socket_lt hsocket)).mpr (h.socket w a hsocket).1,
      h.opened_next henabled hsocket hown⟩
  by_cases hw : w = v
  · subst hw
    rw [System.next_worker_self] at hsocket
    rcases worker_socket_next hsocket with ⟨hkeeps, hsame⟩ | ⟨hwrites, hnew⟩
    · exact hold hsame fun _ => hkeeps
    · have hhandle : newHandle (sys.view w) e = some a := by
        rw [newHandle, if_pos (.inl hwrites), hnew]
      exact ⟨(System.next_owner_newHandle hhandle).2, newHandle_opened hhandle⟩
  · rw [System.next_worker_of_ne hw] at hsocket
    exact hold hsocket fun hsame => absurd hsame hw

/-- A handle that was there before is no object's new socket. -/
theorem not_socket_next (hlt : a < sys.process.fresh) (hnot : ∀ w, (sys.worker w).socket ≠ some a) :
    ∀ w, ((sys.next (v, e)).worker w).socket ≠ some a := by
  intro w hsocket
  by_cases hw : w = v
  · subst hw
    rw [System.next_worker_self] at hsocket
    rcases worker_socket_next hsocket with ⟨-, hsame⟩ | ⟨-, rfl⟩
    · exact hnot w hsame
    · exact Nat.lt_irrefl _ hlt
  · rw [System.next_worker_of_ne hw] at hsocket
    exact hnot w hsocket

/-- Nor is a new timer. -/
theorem timer_not_socket (h : Sound sys) (hstarts : startsTimer e = true) :
    ∀ w, ((sys.next (v, e)).worker w).socket ≠ some sys.process.fresh := by
  intro w hsocket
  by_cases hw : w = v
  · subst hw
    rw [System.next_worker_self] at hsocket
    rcases worker_socket_next hsocket with ⟨-, hsame⟩ | ⟨hwrites, -⟩
    · exact Nat.lt_irrefl _ (h.socket_lt hsame)
    · cases e <;> simp [startsTimer, writesSocket] at hstarts hwrites
  · rw [System.next_worker_of_ne hw] at hsocket
    exact Nat.lt_irrefl _ (h.socket_lt hsocket)

theorem timer_next (h : Sound sys) {t : Addr}
    (ht : (sys.next (v, e)).process.conn.timer = some t) :
    t < (sys.next (v, e)).process.fresh ∧ ∀ w, ((sys.next (v, e)).worker w).socket ≠ some t := by
  rw [System.next_process, Sender.timer_next] at ht
  split at ht
  · next hstarts =>
    obtain rfl := Option.some.inj ht
    refine ⟨?_, h.timer_not_socket hstarts⟩
    rw [System.next_process, fresh_next_of_startsTimer _ _ hstarts]
    exact Nat.lt_succ_self _
  · obtain ⟨hlt, hnot⟩ := h.timer t ht
    exact ⟨Nat.lt_of_lt_of_le hlt (fresh_le sys (v, e)), not_socket_next hlt hnot⟩

theorem active_next (h : Sound sys) {t : Addr}
    (ht : (sys.next (v, e)).process.loop.active t = true) :
    (∃ w, (sys.next (v, e)).owner t = some w) ∧
      (sys.next (v, e)).process.loop.stage t ≠ .uninitialised ∧
        ∀ w, ((sys.next (v, e)).worker w).socket ≠ some t := by
  by_cases hold : sys.process.loop.active t = true
  · obtain ⟨⟨w, howner⟩, hused, hnot⟩ := h.active t hold
    have hlt := h.owner_lt t w howner
    exact ⟨⟨w, (owner_next hlt).mpr howner⟩, used_next (s := sys.view v) h.replayed e hused,
      not_socket_next hlt hnot⟩
  · obtain ⟨rfl, -, req, b, status, rfl⟩ :=
      (Sender.active_next (sys.view v) e ht).resolve_left hold
    have hstarts : startsTimer (.connectCb req b status) = true := by
      by_contra hkeeps
      have hstatus : status < 0 := by simpa [startsTimer] using hkeeps
      rw [System.next_process, connectCb_failed req hstatus] at ht
      exact hold ht
    have hhandle : newHandle (sys.view v) (.connectCb req b status) = some sys.process.fresh := by
      rw [newHandle, if_pos (.inr hstarts)]
      rfl
    refine ⟨⟨v, (System.next_owner_newHandle hhandle).2⟩, fun hplain => ?_,
      h.timer_not_socket hstarts⟩
    cases (newHandle_opened hhandle).symm.trans hplain

theorem requests_next (h : Sound sys) (henabled : sys.Enabled (v, e)) :
    ∀ c ∈ (sys.next (v, e)).process.loop.writes, c.req < (sys.next (v, e)).process.fresh ∧
      (sys.next (v, e)).process.loop.stage c.req = .uninitialised := by
  intro c hc
  rcases mem_writes_next (sys.view v) e hc with hold | ⟨hreq, t, heap, ret, rfl⟩
  · obtain ⟨hlt, hplain⟩ := h.requests c hold
    exact ⟨Nat.lt_of_lt_of_le hlt (fresh_le sys (v, e)), plain_next henabled hlt hplain⟩
  · rw [hreq, System.next_process, timerCb_stage]
    exact ⟨Nat.lt_succ_self _, h.blank _ (Nat.le_succ _)⟩

theorem payloads_next (h : Sound sys) (henabled : sys.Enabled (v, e)) {payload : Addr}
    (hdata : (sys.next (v, e)).process.data a = some payload) :
    payload < (sys.next (v, e)).process.fresh ∧
      (sys.next (v, e)).process.loop.stage payload = .uninitialised := by
  rcases data_next_some (sys.view v) e hdata with hold | ⟨rfl, t, heap, ret, rfl⟩
  · obtain ⟨hlt, hplain⟩ := h.payloads a payload hold
    exact ⟨Nat.lt_of_lt_of_le hlt (fresh_le sys (v, e)), plain_next henabled hlt hplain⟩
  · rw [System.next_process, timerCb_stage]
    exact ⟨Nat.lt_add_of_pos_right Nat.two_pos, h.blank _ le_rfl⟩

theorem mem_queue_next (h : Sound sys) (hmem : a ∈ (sys.next (v, e)).process.loop.queue) :
    ∃ w, (sys.next (v, e)).owner a = some w := by
  rw [System.next_process, queue_next] at hmem
  rcases List.mem_append.mp hmem with hold | hnew
  · have hbefore : a ∈ sys.process.loop.queue := by
      cases hclosed : closedHandle e with
      | none => simpa [hclosed] using hold
      | some b =>
          rw [hclosed] at hold
          exact List.mem_of_mem_erase hold
    obtain ⟨w, howner⟩ := h.queue a hbefore
    exact ⟨w, (owner_next (h.owner_lt a w howner)).mpr howner⟩
  · exact ⟨v, (System.next_owner_newHandle (Option.mem_toList.mp hnew)).2⟩

protected theorem next (h : Sound sys) (henabled : sys.Enabled (v, e)) :
    Sound (sys.next (v, e)) where
  replayed := replayed_next (s := sys.view v) h.replayed e
  owner_lt a w howner := by
    by_cases hlt : a < sys.process.fresh
    · exact Nat.lt_of_lt_of_le hlt (fresh_le sys (v, e))
    · by_contra hge
      have hnot : ¬ (sys.process.fresh ≤ a ∧ a < (sys.next (v, e)).process.fresh) :=
        fun hnew => hge hnew.2
      have hkept : sys.owner a = some w := (if_neg hnot).symm.trans howner
      exact hlt (h.owner_lt a w hkept)
  blank a ha := by
    refine blank_next (s := sys.view v) h.blank ?_ ha
    rintro b rfl
    exact h.owner_lt b v henabled.closing.1
  connect _ := h.connect_next henabled
  socket _ _ := h.socket_next henabled
  timer _ := h.timer_next
  active _ := h.active_next
  connects c hc := by
    rcases mem_connects_next (sys.view v) e hc with hold | ⟨hfresh, hnew⟩
    · exact Nat.lt_of_lt_of_le (h.connects c hold) (fresh_le sys (v, e))
    · rw [hfresh, System.next_process, fresh_next_of_writesSocket _ _ hnew]
      exact Nat.lt_succ_self _
  requests := h.requests_next henabled
  payloads _ _ := h.payloads_next henabled
  queue _ := h.mem_queue_next

end Sound

end L1Comm.Sender
