import L1Comm.Receiver.Service
import L1Comm.Uv.Renaming
import Mathlib.Logic.Function.Basic

/-!
Several receiver objects in one process. Host, port, the user's function, thread
and stop flag belong to the object; the loop is static, so all objects share it,
and whichever thread is inside `uv_run` runs the callbacks of all of them.

The senders of a process get into each other's way, because their connection
state is a global. Receivers keep what a connection needs in the `data` member
of its handle: each function is called for the clients of its own object and
for nobody else, also for those that are heard when the object has been stopped.
-/

namespace L1Comm.Receiver

open Uv

namespace Event

/-- The handle whose callback the event is. -/
@[simp] def handle : Event → Ptr
  | .connectionCb server _ _ => some server
  | .readCb h _ _ | .readErrorCb h _ | .closeCb h => some h
  | _ => none

/-- Whether a client is heard to signal that something is in place. -/
def Signals : Event → Prop
  | .readCb _ nread buf => 0 ≤ nread ∧ (message buf.request).Calls
  | _ => False

instance : (e : Event) → Decidable e.Signals
  | .readCb _ nread buf => inferInstanceAs (Decidable (0 ≤ nread ∧ (message buf.request).Calls))
  | .start | .enter _ | .test | .connectionCb .. | .readErrorCb .. | .closeCb _ | .runEnd | .exit
  | .stopFlag | .stopLoopClose | .stopJoin => inferInstanceAs (Decidable False)

/-- How many objects are allocated. -/
@[simp] def allocations : Event → Nat
  | .enter _ | .readCb .. => 1
  | .connectionCb _ status _ => if status ≠ 0 then 0 else 1
  | _ => 0

end Event

/-! ## What a step mentions -/

section Steps

variable (s : State) (e : Event)

theorem fresh_next : (next s e).fresh = s.fresh + e.allocations := by
  cases e with
  | connectionCb server status ret =>
      by_cases hstatus : status = 0
      · by_cases hret : ret = 0 <;> simp [next, onConnection, hstatus, hret]
      · simp [next, onConnection, hstatus]
  | readCb h nread buf =>
      by_cases hnread : nread < 0 <;> simp [next, allocBuffer, onRead, hnread]
  | _ => rfl

variable {s e}

/-- A step mentions what it allocates, the handle of its callback, and at the end
of the thread its server. -/
theorem addresses_calls : ∀ c ∈ calls s e, ∀ x ∈ c.addresses,
    (x = s.fresh ∧ e.allocations = 1) ∨ e.handle = some x ∨ (e = .exit ∧ x = s.worker.server) := by
  cases e with
  | connectionCb server status ret =>
      by_cases hstatus : status = 0
      · by_cases hret : ret = 0 <;> simp [calls, hstatus, hret]
      · simp [calls, hstatus]
  | readCb h nread buf => by_cases hnread : nread < 0 <;> simp [calls, hnread]
  | _ => simp [calls]

theorem data_next_of_ne {a : Addr} (h : a ≠ s.fresh) : (next s e).data a = s.data a := by
  cases e with
  | enter ret => exact Function.update_of_ne h _ _
  | connectionCb server status ret =>
      by_cases hstatus : status = 0
      · by_cases hret : ret = 0
        · simp [next, onConnection, hstatus, hret, h]
        · simp [next, onConnection, hstatus, hret]
      · simp [next, onConnection, hstatus]
  | readCb b nread buf =>
      by_cases hnread : nread < 0 <;> simp [next, allocBuffer, onRead, hnread]
  | _ => rfl

/-- Connections are reported, or data are, for the handle. -/
def Serves (l : Loop SockAddr) (a : Addr) : Prop := l.listening a = true ∨ l.reading a = true

/-- A new server serves, and a new client that has been accepted; otherwise no
handle begins to. -/
theorem serves_next {a : Addr} (h : Serves (next s e).loop a) :
    Serves s.loop a ∨
      a = s.fresh ∧ ((∃ ret, e = .enter ret) ∨ ∃ server, e = .connectionCb server 0 0) := by
  by_cases hnew : a = s.fresh ∧ ((∃ ret, e = .enter ret) ∨ ∃ server, e = .connectionCb server 0 0)
  · exact .inr hnew
  refine .inl ?_
  cases e with
  | enter ret =>
      have hne : s.fresh ≠ a := fun hsame => hnew ⟨hsame.symm, .inl ⟨ret, rfl⟩⟩
      simpa [Serves, next, enter, hne] using h
  | connectionCb server status ret =>
      by_cases hstatus : status = 0
      · by_cases hret : ret = 0
        · subst hstatus hret
          have hne : s.fresh ≠ a := fun hsame => hnew ⟨hsame.symm, .inr ⟨server, rfl⟩⟩
          simpa [Serves, next, onConnection, hne] using h
        · simp [Serves, next, onConnection, hstatus, hret] at h
          exact h.imp And.right And.right
      · simp [Serves, next, onConnection, hstatus] at h
        exact h.imp And.right And.right
  | readCb b nread buf =>
      by_cases hnread : nread < 0
      · simp [Serves, next, allocBuffer, onRead, hnread] at h
        exact h.imp And.right And.right
      · simpa [Serves, next, allocBuffer, onRead, hnread] using h
  | readErrorCb b nread =>
      simp [Serves, next] at h
      exact h.imp And.right And.right
  | closeCb b => simpa [Serves, next, onClose] using h
  | exit =>
      simp [Serves, next, exit] at h
      exact h.imp And.right And.right
  | stopLoopClose => simpa [Serves, next] using h
  | start | test | runEnd | stopFlag | stopJoin => exact h

theorem data_enter (ret : Int) :
    (next s (.enter ret)).data s.fresh = some s.worker.callback := by
  simp [next, enter]

theorem data_accepted (server : Addr) :
    (next s (.connectionCb server 0 0)).data s.fresh = s.data server := by
  simp [next, onConnection]

theorem handleRequest_quiet (p : Process) (stream : Addr) {req : L1Request}
    (h : ¬ (message req).Calls) : (handleRequest p stream req).invoked = p.invoked := by
  by_cases hdata : p.data stream = none
  · simp only [handleRequest, hdata, ne_eq, not_true_eq_false, false_and, if_false]
    split <;> rfl
  · rw [(handleRequest_service hdata req).1, if_neg h, Nat.add_zero]

/-- The user's function is called for a signal on a handle that knows it, and for
nothing else. -/
theorem invoked_next_of_not_signals (h : ¬ e.Signals) : (next s e).invoked = s.invoked := by
  cases e with
  | connectionCb server status ret =>
      by_cases hstatus : status = 0
      · by_cases hret : ret = 0 <;> simp [next, onConnection, hstatus, hret]
      · simp [next, onConnection, hstatus]
  | readCb a nread buf =>
      by_cases hnread : nread < 0
      · simp [next, allocBuffer, onRead, hnread]
      · have hquiet : ¬ (message buf.request).Calls := fun hcalls => h ⟨not_lt.mp hnread, hcalls⟩
        simp [next, allocBuffer, onRead, hnread, handleRequest_quiet _ _ hquiet]
  | _ => rfl

theorem invoked_readCb_of_signals {h : Addr} {nread : Int} {buf : Buffer}
    (hsignals : (Event.readCb h nread buf).Signals) (hdata : s.data h ≠ none) :
    (next s (.readCb h nread buf)).invoked = s.invoked + 1 := by
  have hread : ((allocBuffer s.toProcess).call (.readCb h nread buf)).data h ≠ none := hdata
  have hcalled := (handleRequest_service hread buf.request).1
  rw [if_pos hsignals.2] at hcalled
  simp only [next, onRead, not_lt.mpr hsignals.1, if_false]
  exact hcalled

/-- What a step makes of the thread's server. -/
theorem server_next_or : (next s e).worker.server = s.worker.server ∨
    (∃ ret, e = .enter ret) ∧ (next s e).worker.server = s.fresh := by
  cases e with
  | enter ret => exact .inr ⟨⟨ret, rfl⟩, rfl⟩
  | _ => exact .inl rfl

theorem callback_next : (next s e).worker.callback = s.worker.callback := by
  cases e <;> rfl

/-- A thread with a server has just made it, or has had it before. -/
theorem server_of_live_next (henabled : e.handle = none → Enabled s e)
    (hlive : (next s e).worker.pc.Live) :
    (∃ ret, e = .enter ret) ∨
      s.worker.pc.Live ∧ (next s e).worker.server = s.worker.server := by
  cases e with
  | enter ret => exact .inl ⟨ret, rfl⟩
  | connectionCb | readCb | readErrorCb | closeCb | stopFlag | stopLoopClose =>
      exact .inr ⟨hlive, rfl⟩
  | test => exact .inr ⟨.inl (henabled rfl), rfl⟩
  | runEnd => exact .inr ⟨.inr (.inl (henabled rfl)), rfl⟩
  | start | exit | stopJoin => simp [next, exit, Pc.Live] at hlive

end Steps

/-! ## The system -/

/-- The process and its objects. Besides them the system records on whose account
an address has been allocated, and how often each user's function has been
called. -/
structure System (n : Nat) where
  process : Process
  worker : Fin n → Worker
  owner : Addr → Option (Fin n) := fun _ => none
  called : Addr → Nat := fun _ => 0

variable {n : Nat}

namespace System

/-- The process as one of the objects sees it. -/
def view (sys : System n) (w : Fin n) : State := ⟨sys.process, sys.worker w⟩

/-- Steps of a thread are taken by the thread. Callbacks are run by whichever
thread is inside `uv_run`. -/
def Enabled (sys : System n) (step : Fin n × Event) : Prop :=
  match step.2.handle with
  | none => Receiver.Enabled (sys.view step.1) step.2
  | some h => sys.owner h = some step.1 ∧ (∃ v, (sys.worker v).pc = .run) ∧
      Receiver.Enabled {sys.view step.1 with worker.pc := .run} step.2

/-- The function that is called is the one in the `data` member of the handle. -/
def calledAfter (sys : System n) (calls : Nat) : Event → Addr → Nat
  | .readCb h _ _ =>
      match sys.process.data h with
      | some function => Function.update sys.called function (sys.called function + calls)
      | none => sys.called
  | _ => sys.called

def next (sys : System n) (step : Fin n × Event) : System n :=
  let (w, e) := step
  let s := Receiver.next (sys.view w) e
  {process := s.toProcess
   worker := Function.update sys.worker w s.worker
   owner := fun a => if sys.process.fresh ≤ a ∧ a < s.fresh then some w else sys.owner a
   called := sys.calledAfter (s.invoked - sys.process.invoked) e}

end System

def system (n : Nat) : Machine (System n) (Fin n × Event) where
  enabled sys step := sys.process.loop.Permits step.2.usesLoop ∧ sys.Enabled step
  next := System.next

instance (sys : System n) (step : Fin n × Event) : Decidable (sys.Enabled step) :=
  match h : step.2.handle with
  | none => decidable_of_iff (Receiver.Enabled (sys.view step.1) step.2) (by
      simp only [System.Enabled, h])
  | some a => decidable_of_iff
      (sys.owner a = some step.1 ∧ (∃ v, (sys.worker v).pc = .run) ∧
        Receiver.Enabled {sys.view step.1 with worker.pc := .run} step.2) (by
      simp only [System.Enabled, h])

instance (sys : System n) (step : Fin n × Event) : Decidable ((system n).enabled sys step) :=
  inferInstanceAs (Decidable (_ ∧ _))

/-- A fresh process in which the objects have been made, one after the other: the
address of a function is the place of its object. -/
def System.initial (address : Fin n → SockAddr) : System n where
  process := {fresh := n}
  worker w := (Receiver.initial (address w).host (address w).port w).worker

/-- What the objects own: their servers, while their threads have one, and the
handles made for their clients. A handle that serves knows the function of its
object. -/
structure Allocated (sys : System n) : Prop where
  replayed : sys.process.Replayed
  owner_lt : ∀ a w, sys.owner a = some w → a < sys.process.fresh
  blank : ∀ a, sys.process.fresh ≤ a → sys.process.loop.cell a = {}
  callback : ∀ w, (sys.worker w).callback = w
  server_lt : ∀ w, (sys.worker w).server < sys.process.fresh
  server : ∀ w, (sys.worker w).pc.Live → sys.owner (sys.worker w).server = some w
  data : ∀ a w, sys.owner a = some w → Serves sys.process.loop a → sys.process.data a = some w.val

theorem allocated_initial (address : Fin n → SockAddr) : Allocated (System.initial address) where
  replayed := rfl
  owner_lt _ _ h := by cases h
  blank _ _ := rfl
  callback _ := rfl
  server_lt w := Nat.zero_lt_of_lt w.isLt
  server w h := by simp [System.initial, Receiver.initial, Pc.Live] at h
  data _ _ h := by cases h

namespace System

variable {sys : System n} {w v : Fin n} {e : Event} {a : Addr}

theorem next_worker_self : (sys.next (w, e)).worker w = (Receiver.next (sys.view w) e).worker :=
  Function.update_self ..

theorem next_worker_of_ne (h : w ≠ v) : (sys.next (v, e)).worker w = sys.worker w :=
  Function.update_of_ne h ..

theorem next_fresh : (sys.next (v, e)).process.fresh = sys.process.fresh + e.allocations :=
  fresh_next (sys.view v) e

theorem next_owner_of_lt (h : a < sys.process.fresh) :
    (sys.next (v, e)).owner a = sys.owner a :=
  if_neg fun hnew => absurd h (Nat.not_lt.mpr hnew.1)

/-- What the step has allocated belongs to the object, and nothing else is new. -/
theorem next_owner_of_ge (h : sys.process.fresh ≤ a) (howner : (sys.next (v, e)).owner a = some w)
    (hbefore : ∀ a w, sys.owner a = some w → a < sys.process.fresh) :
    w = v ∧ a = sys.process.fresh ∧ e.allocations = 1 := by
  by_cases hnew : sys.process.fresh ≤ a ∧ a < (Receiver.next (sys.view v) e).fresh
  · have hself : (sys.next (v, e)).owner a = some v := if_pos hnew
    have hlt := hnew.2
    have hle : e.allocations ≤ 1 := by
      cases e with
      | connectionCb server status ret => by_cases hstatus : status = 0 <;> simp [hstatus]
      | _ => simp
    rw [fresh_next] at hlt
    change a < sys.process.fresh + e.allocations at hlt
    rw [hself] at howner
    rcases Nat.le_one_iff_eq_zero_or_eq_one.mp hle with hzero | hone
    · rw [hzero] at hlt
      exact absurd hlt (Nat.not_lt.mpr h)
    · rw [hone] at hlt
      exact ⟨(Option.some.inj howner).symm, Nat.le_antisymm (Nat.le_of_lt_succ hlt) h, hone⟩
  · have hold : (sys.next (v, e)).owner a = sys.owner a := if_neg hnew
    rw [hold] at howner
    exact absurd (hbefore a w howner) (Nat.not_lt.mpr h)

theorem next_owner_fresh (h : e.allocations = 1) :
    (sys.next (v, e)).owner sys.process.fresh = some v := by
  refine if_pos ⟨Nat.le_refl _, ?_⟩
  rw [fresh_next, h]
  exact Nat.lt_succ_self _

theorem Enabled.thread (h : sys.Enabled (w, e)) (hthread : e.handle = none) :
    Receiver.Enabled (sys.view w) e := by
  unfold System.Enabled at h
  simpa only [hthread] using h

/-- The handle of a callback is the object's own. -/
theorem Enabled.owner (h : sys.Enabled (w, e)) (hhandle : e.handle = some a) :
    sys.owner a = some w := by
  unfold System.Enabled at h
  simp only [hhandle] at h
  exact h.1

end System

namespace Allocated

variable {sys : System n} {w v : Fin n} {e : Event} {a : Addr}

/-- A step mentions only what is its object's own, or is so from then on. -/
theorem owner_next (h : Allocated sys) (henabled : sys.Enabled (v, e)) {c : Call}
    (hc : c ∈ calls (sys.view v) e) (ha : a ∈ c.addresses) :
    (sys.next (v, e)).owner a = some v := by
  have hkeeps (hself : sys.owner a = some v) : (sys.next (v, e)).owner a = some v := by
    rw [System.next_owner_of_lt (h.owner_lt a v hself), hself]
  rcases addresses_calls c hc a ha with ⟨rfl, hnew⟩ | hhandle | ⟨rfl, rfl⟩
  · exact System.next_owner_fresh hnew
  · exact hkeeps (henabled.owner hhandle)
  · have hexit : (sys.worker v).pc = .exit := henabled
    exact hkeeps (h.server v (.inr (.inr hexit)))

/-- The others do not notice it. -/
theorem cell_next (h : Allocated sys) (henabled : sys.Enabled (v, e))
    (ha : (sys.next (v, e)).owner a ≠ some v) :
    (sys.next (v, e)).process.loop.cell a = sys.process.loop.cell a := by
  have hloop : (sys.next (v, e)).process.loop =
      protocol.after sys.process.loop (calls (sys.view v) e) :=
    loop_next e (s := sys.view v) h.replayed
  rw [hloop]
  exact Loop.cell_trace_of_notMem fun c hc hmem => ha (h.owner_next henabled hc hmem)

theorem owner_lt_next (h : Allocated sys) (howner : (sys.next (v, e)).owner a = some w) :
    a < (sys.next (v, e)).process.fresh := by
  rw [System.next_fresh]
  by_cases hlt : a < sys.process.fresh
  · exact Nat.lt_of_lt_of_le hlt (Nat.le_add_right _ _)
  · obtain ⟨-, rfl, hone⟩ := System.next_owner_of_ge (Nat.not_lt.mp hlt) howner h.owner_lt
    rw [hone]
    exact Nat.lt_succ_self _

/-- A handle that serves knows the function of its object. -/
theorem data_next (h : Allocated sys) (henabled : sys.Enabled (v, e))
    (howner : (sys.next (v, e)).owner a = some w)
    (hserves : Serves (sys.next (v, e)).process.loop a) :
    (sys.next (v, e)).process.data a = some w.val := by
  by_cases hlt : a < sys.process.fresh
  · rw [System.next_owner_of_lt hlt] at howner
    have hbefore : Serves sys.process.loop a :=
      (serves_next hserves).resolve_right fun hnew => Nat.ne_of_lt hlt hnew.1
    have hdata : (sys.next (v, e)).process.data a = sys.process.data a :=
      data_next_of_ne (s := sys.view v) (Nat.ne_of_lt hlt)
    rw [hdata]
    exact h.data a w howner hbefore
  · obtain ⟨rfl, rfl, -⟩ := System.next_owner_of_ge (Nat.not_lt.mp hlt) howner h.owner_lt
    have hblank : ¬ Serves sys.process.loop sys.process.fresh := by
      have hcell := h.blank sys.process.fresh (Nat.le_refl _)
      have hlistening := congrArg Cell.listening hcell
      have hreading := congrArg Cell.reading hcell
      simp only [Loop.cell] at hlistening hreading
      simp [Serves, hlistening, hreading]
    rcases serves_next hserves with hold | ⟨-, ⟨ret, rfl⟩ | ⟨server, rfl⟩⟩
    · exact absurd hold hblank
    · exact (data_enter (s := sys.view w) ret).trans (congrArg some (h.callback w))
    · have hlistening : sys.process.loop.listening server = true := henabled.2.2.2
      have hserver := h.data server w (henabled.owner rfl) (.inl hlistening)
      exact (data_accepted (s := sys.view w) server).trans hserver

protected theorem next (h : Allocated sys) (henabled : sys.Enabled (v, e)) :
    Allocated (sys.next (v, e)) where
  replayed := replayed_next (s := sys.view v) h.replayed e
  owner_lt _ _ := h.owner_lt_next
  blank a ha := by
    have hnone : (sys.next (v, e)).owner a ≠ some v :=
      fun howner => Nat.not_lt.mpr ha (h.owner_lt_next howner)
    rw [h.cell_next henabled hnone]
    exact h.blank a (Nat.le_trans (fresh_le_next (sys.view v) e) ha)
  callback w := by
    by_cases hsame : w = v
    · subst hsame
      rw [System.next_worker_self, callback_next]
      exact h.callback w
    · rw [System.next_worker_of_ne hsame]
      exact h.callback w
  server_lt w := by
    have hle := fresh_le_next (sys.view v) e
    by_cases hsame : w = v
    · subst hsame
      rw [System.next_worker_self]
      rcases server_next_or (s := sys.view w) (e := e) with hserver | ⟨⟨ret, rfl⟩, hserver⟩
      · rw [hserver]
        exact Nat.lt_of_lt_of_le (h.server_lt w) hle
      · rw [hserver]
        exact Nat.lt_succ_self _
    · rw [System.next_worker_of_ne hsame]
      exact Nat.lt_of_lt_of_le (h.server_lt w) hle
  server w hlive := by
    by_cases hsame : w = v
    · subst hsame
      rw [System.next_worker_self] at hlive ⊢
      rcases server_of_live_next henabled.thread hlive with ⟨ret, rfl⟩ | ⟨hbefore, hserver⟩
      · exact System.next_owner_fresh rfl
      · rw [hserver]
        exact (System.next_owner_of_lt (h.server_lt w)).trans (h.server w hbefore)
    · rw [System.next_worker_of_ne hsame] at hlive ⊢
      exact (System.next_owner_of_lt (h.server_lt w)).trans (h.server w hlive)
  data _ _ := h.data_next henabled

/-- A step calls the function of its own object for a signal, and no function
for anything else. -/
theorem called_next (h : Allocated sys) (henabled : sys.Enabled (v, e)) (w : Fin n) :
    (sys.next (v, e)).called w =
      sys.called w + if v = w ∧ e.Signals then 1 else 0 := by
  have hcalled : (sys.next (v, e)).called =
      sys.calledAfter ((Receiver.next (sys.view v) e).invoked - sys.process.invoked) e := rfl
  cases e with
  | readCb b nread buf =>
      have hreading : sys.process.loop.reading b = true := henabled.2.2.2.1
      have hdata : sys.process.data b = some v.val :=
        h.data b v (henabled.owner rfl) (.inr hreading)
      have hdata' : (sys.view v).data b ≠ none := by
        change sys.process.data b ≠ none
        rw [hdata]
        exact Option.some_ne_none _
      rw [hcalled, System.calledAfter, hdata]
      by_cases hsignals : (Event.readCb b nread buf).Signals
      · rw [invoked_readCb_of_signals hsignals hdata']
        by_cases hsame : v = w
        · subst hsame
          simp [hsignals, System.view]
        · have hne : w.val ≠ v.val := fun heq => hsame (Fin.ext heq.symm)
          simp [Function.update_of_ne hne, hsame]
      · rw [invoked_next_of_not_signals hsignals, if_neg fun hboth => hsignals hboth.2]
        simp [System.view]
  | _ => simp [hcalled, System.calledAfter, Event.Signals]

end Allocated

/-! ## Whose function is called -/

/-- The steps on account of one object. -/
def part (w : Fin n) (events : List (Fin n × Event)) : List Event :=
  events.filterMap fun step => if step.1 = w then some step.2 else none

section Part

variable {w v : Fin n} {e : Event} {events : List (Fin n × Event)}

@[simp] theorem part_nil : part w [] = [] := rfl

theorem part_cons_self : part w ((w, e) :: events) = e :: part w events := by
  simp [part]

theorem part_cons_of_ne (h : v ≠ w) : part w ((v, e) :: events) = part w events := by
  simp [part, h]

end Part

variable {sys : System n} {events : List (Fin n × Event)}

theorem called_after (h : Allocated sys) (hrun : (system n).Runs sys events) (w : Fin n) :
    ((system n).after sys events).called w =
      sys.called w + (part w events).countP (·.Signals) := by
  induction events generalizing sys with
  | nil => rfl
  | cons step rest ih =>
      obtain ⟨v, e⟩ := step
      have henabled : sys.Enabled (v, e) := hrun.1.2
      have hnext : (system n).next sys (v, e) = sys.next (v, e) := rfl
      have hcalled := h.called_next henabled w
      rw [Machine.after_cons, hnext, ih (h.next henabled) hrun.2, hcalled, Nat.add_assoc]
      by_cases hsame : v = w
      · subst hsame
        rw [part_cons_self, List.countP_cons]
        simp [Nat.add_comm]
      · rw [part_cons_of_ne hsame, if_neg fun hboth => hsame hboth.1, Nat.zero_add]

/-- In a process with any number of objects, whichever thread runs the callbacks,
each user's function is called for the signals heard on handles of its own
object, and for nothing else. -/
theorem called_own {address : Fin n → SockAddr}
    (hrun : (system n).Runs (System.initial address) events) (w : Fin n) :
    ((system n).after (System.initial address) events).called w =
      (part w events).countP (·.Signals) :=
  (called_after (allocated_initial address) hrun w).trans (Nat.zero_add _)

/-- A client of the first object speaks after this object has been stopped, and
the thread of the second object listens. -/
def strayRun : List (Fin 2 × Event) :=
  [(0, .start), (0, .enter 0), (0, .test), (0, .connectionCb 2 0 0), (0, .readCb 3 8 (flagged 3)),
   (0, .runEnd), (0, .stopFlag), (0, .stopLoopClose), (0, .test), (0, .exit), (0, .stopJoin),
   (1, .start), (1, .enter 0), (1, .test), (0, .readCb 3 8 (flagged 3))]

def addresses (w : Fin 2) : SockAddr := ⟨"10.0.0.1", 3001 + w.val⟩

theorem runs_strayRun : (system 2).Runs (System.initial addresses) strayRun := by decide

theorem called_own_strayRun :
    ((system 2).after (System.initial addresses) strayRun).called (0 : Fin 2) =
      (part 0 strayRun).countP (·.Signals) :=
  called_own runs_strayRun 0

end L1Comm.Receiver
