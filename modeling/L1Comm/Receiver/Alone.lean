import L1Comm.Receiver.HandleProtocol
import L1Comm.Receiver.Independence

/-!
What a receiver object among others has in common with the same object in a
process of its own: everything, up to the addresses that `malloc` returns, as
long as its callbacks are run by its own thread and the process and the loop go
on as they would for the object alone. The last is not in its hands. Another
object whose server has failed ends the process when it is stopped, and
`uv_loop_close` returns `0` only if no object has a handle in the loop.
-/

namespace L1Comm.Receiver

open Uv

@[simp] def Event.rename (name : Addr → Addr) : Event → Event
  | .connectionCb server status ret => .connectionCb (name server) status ret
  | .readCb h nread buf => .readCb (name h) nread buf
  | .readErrorCb h nread => .readErrorCb (name h) nread
  | .closeCb h => .closeCb (name h)
  | .start => .start
  | .enter ret => .enter ret
  | .test => .test
  | .runEnd => .runEnd
  | .exit => .exit
  | .stopFlag => .stopFlag
  | .stopLoopClose => .stopLoopClose
  | .stopJoin => .stopJoin

/-! ## A step under other names -/

variable {s : State} {e : Event}

section Rename

variable {s' : State} {name : Addr → Addr}

theorem rename_congr {other : Addr → Addr} (h : ∀ a ∈ e.handle, name a = other a) :
    e.rename name = e.rename other := by
  cases e <;> simp_all

theorem allocations_rename : (e.rename name).allocations = e.allocations := by
  cases e <;> rfl

theorem handle_rename : (e.rename name).handle = e.handle.map name := by
  cases e <;> rfl

theorem usesLoop_rename : (e.rename name).usesLoop = e.usesLoop := by
  cases e <;> rfl

theorem signals_rename : (e.rename name).Signals ↔ e.Signals := by
  cases e <;> rfl

/-- Under names for what it mentions the calls of a step are the same; what
`uv_loop_close` returns depends on the whole loop. -/
theorem calls_rename (hfresh : name s.fresh = s'.fresh)
    (hworker : s'.worker = {s.worker with server := name s.worker.server})
    (hne : e ≠ .stopLoopClose) : calls s' (e.rename name) = (calls s e).map (Call.rename name) := by
  cases e with
  | connectionCb server status ret =>
      by_cases hstatus : status = 0
      · by_cases hret : ret = 0 <;> simp [calls, hstatus, hret, hfresh]
      · simp [calls, hstatus]
  | readCb a nread buf => by_cases hnread : nread < 0 <;> simp [calls, hnread, hfresh]
  | stopLoopClose => exact absurd rfl hne
  | _ => simp [calls, hfresh, hworker]

/-- A step under other names, as seen from what has one of them. -/
theorem cell_next_rename (hs : s.Replayed) (hs' : s'.Replayed) (hfresh : name s.fresh = s'.fresh)
    (hworker : s'.worker = {s.worker with server := name s.worker.server}) {a : Addr}
    (hname : ∀ c ∈ calls s e, ∀ x ∈ c.addresses, name x = name a ↔ x = a)
    (hcell : s'.loop.cell (name a) = s.loop.cell a) :
    (next s' (e.rename name)).loop.cell (name a) = (next s e).loop.cell a := by
  by_cases hclose : e = .stopLoopClose
  · subst hclose
    exact hcell
  · rw [loop_next _ hs, loop_next _ hs', calls_rename hfresh hworker hclose]
    exact Loop.cell_trace_rename hname hcell

theorem worker_next_rename (hfresh : name s.fresh = s'.fresh)
    (hworker : s'.worker = {s.worker with server := name s.worker.server}) :
    (next s' (e.rename name)).worker =
      {(next s e).worker with server := name (next s e).worker.server} := by
  cases e <;> simp [next, enter, exit, hworker, hfresh]

/-- The steps of a thread depend on the object alone. -/
theorem enabled_congr (hpc : s'.worker.pc = s.worker.pc)
    (hcaller : s'.worker.caller = s.worker.caller) (hthread : e.handle = none)
    (henabled : Enabled s e) : Enabled s' (e.rename name) := by
  cases e with
  | connectionCb | readCb | readErrorCb | closeCb => cases hthread
  | stopJoin => exact ⟨hcaller.trans henabled.1, hpc.trans henabled.2⟩
  | stopFlag | stopLoopClose => exact hcaller.trans henabled
  | start | enter | test | runEnd | exit => exact hpc.trans henabled

end Rename

/-- The handle that leaves the loop. -/
def closedHandle : Event → Ptr
  | .closeCb h => some h
  | _ => none

/-- Whether a handle is initialised, which is the one that is allocated. -/
def makesHandle : Event → Bool
  | .enter _ => true
  | .connectionCb _ status _ => status = 0
  | _ => false

section Queue

/-- A handle is in the loop from its initialisation to its close callback. -/
theorem queue_next : (next s e).loop.queue =
    (closedHandle e).elim s.loop.queue s.loop.queue.erase ++
      if makesHandle e then [s.fresh] else [] := by
  cases e with
  | connectionCb server status ret =>
      by_cases hstatus : status = 0
      · by_cases hret : ret = 0 <;>
          simp [next, onConnection, closedHandle, makesHandle, hstatus, hret]
      · simp [next, onConnection, closedHandle, makesHandle, hstatus]
  | readCb a nread buf =>
      by_cases hnread : nread < 0 <;>
        simp [next, onRead, allocBuffer, closedHandle, makesHandle, hnread]
  | enter | closeCb | exit | stopLoopClose =>
      simp [next, enter, onClose, exit, closedHandle, makesHandle]
  | start | test | readErrorCb | runEnd | stopFlag | stopJoin =>
      simp [next, closedHandle, makesHandle]

theorem handle_of_closed {a : Addr} (h : closedHandle e = some a) : e.handle = some a := by
  cases e with
  | closeCb b => exact h
  | _ => cases h

theorem allocations_of_makes (h : makesHandle e = true) : e.allocations = 1 := by
  cases e with
  | enter ret => rfl
  | connectionCb server status ret =>
      have hstatus : status = 0 := of_decide_eq_true h
      simp [hstatus]
  | _ => cases h

theorem closedHandle_rename {name : Addr → Addr} :
    closedHandle (e.rename name) = (closedHandle e).map name := by
  cases e <;> rfl

theorem makesHandle_rename {name : Addr → Addr} :
    makesHandle (e.rename name) = makesHandle e := by
  cases e <;> rfl

end Queue

/-! ## An object among others -/

variable {n : Nat}

/-- The object among others and the object alone agree, except that addresses
have other names. -/
structure Agrees (sys : System n) (w : Fin n) (name : Addr → Addr) (s : State) : Prop where
  worker : s.worker = {sys.worker w with server := name (sys.worker w).server}
  cell : ∀ a, sys.owner a = some w → s.loop.cell (name a) = sys.process.loop.cell a
  injective : ∀ a b, sys.owner a = some w → sys.owner b = some w → name a = name b → a = b
  queue : s.loop.queue = (sys.process.loop.queue.filter (sys.owner · = some w)).map name
  fate : s.loop.fate = sys.process.loop.fate
  invoked : s.invoked = sys.called w

/-- What is more to be known of the objects of a process: what serves is open,
and the handles in the loop have been allocated. -/
structure Housed (sys : System n) : Prop extends Allocated sys where
  opened : ∀ a, Serves sys.process.loop a → sys.process.loop.stage a = .opened
  queue_lt : ∀ h ∈ sys.process.loop.queue, h < sys.process.fresh

section Agreement

variable {sys : System n} {w : Fin n} {name : Addr → Addr} {s : State}

theorem Agrees.pc (h : Agrees sys w name s) : s.worker.pc = (sys.worker w).pc := by
  rw [h.worker]

/-- The object alone could close the loop. -/
theorem Agrees.queue_eq_nil (h : Agrees sys w name s) :
    s.loop.queue = [] ↔ ¬ ∃ b ∈ sys.process.loop.queue, sys.owner b = some w := by
  rw [h.queue, List.map_eq_nil_iff, List.filter_eq_nil_iff]
  simp

/-- Names of what has not been allocated yet do not matter. -/
theorem Agrees.congr {name' : Addr → Addr} (h : Agrees sys w name s) (hsys : Housed sys)
    (hname : ∀ a < sys.process.fresh, name' a = name a) : Agrees sys w name' s := by
  have hown : ∀ a, sys.owner a = some w → name' a = name a :=
    fun a howner => hname a (hsys.owner_lt a w howner)
  refine ⟨?_, ?_, ?_, ?_, h.fate, h.invoked⟩
  · rw [hname _ (hsys.server_lt w)]
    exact h.worker
  · intro a howner
    rw [hown a howner]
    exact h.cell a howner
  · intro a b ha hb hsame
    rw [hown a ha, hown b hb] at hsame
    exact h.injective a b ha hb hsame
  · rw [h.queue]
    refine List.map_congr_left fun a ha => (hname a ?_).symm
    exact hsys.queue_lt a (List.mem_of_mem_filter ha)

end Agreement

/-- Step by step the object alone does what the object among the others does,
and they agree all the time. -/
def Follows (w : Fin n) (name : Addr → Addr) : System n → State → List (Fin n × Event) → Prop
  | sys, s, [] => Agrees sys w name s
  | sys, s, (v, e) :: rest =>
      Agrees sys w name s ∧
        if v = w then
          machine.enabled s (e.rename name) ∧
            Follows w name (sys.next (v, e)) (next s (e.rename name)) rest
        else Follows w name (sys.next (v, e)) s rest

/-- What keeps the object apart from the others. Its callbacks are run by its own
thread, and its `Stop` finds a handle of its own in the loop or finds the loop
empty. No other object comes to its end with a failed server, which aborts the
process, and none finds the loop empty in its `Stop`, which destroys it. -/
def Undisturbed (w : Fin n) (sys : System n) (step : Fin n × Event) : Prop :=
  if step.1 = w then
    (step.2.handle ≠ none → (sys.worker w).pc = .run) ∧
      (step.2 = .stopLoopClose →
        sys.process.loop.queue = [] ∨ ∃ h ∈ sys.process.loop.queue, sys.owner h = some w)
  else
    (step.2 = .exit → sys.process.loop.stage (sys.worker step.1).server = .opened) ∧
      (step.2 = .stopLoopClose → sys.process.loop.queue ≠ [])

theorem housed_initial (address : Fin n → SockAddr) : Housed (System.initial address) := by
  refine ⟨allocated_initial address, ?_, ?_⟩ <;> simp [System.initial, Serves]

variable {sys : System n} {w v : Fin n} {name : Addr → Addr}

namespace Housed

theorem mem_queue_next (h : Housed sys) {a : Addr}
    (ha : a ∈ (sys.next (v, e)).process.loop.queue) : a < (sys.next (v, e)).process.fresh := by
  have hqueue : (sys.next (v, e)).process.loop.queue = (next (sys.view v) e).loop.queue := rfl
  rw [hqueue, queue_next, List.mem_append] at ha
  rw [System.next_fresh]
  rcases ha with hold | hnew
  · have hmem : a ∈ sys.process.loop.queue := by
      cases hclosed : closedHandle e with
      | none =>
          rw [hclosed] at hold
          exact hold
      | some b =>
          rw [hclosed] at hold
          exact List.mem_of_mem_erase hold
    exact Nat.lt_of_lt_of_le (h.queue_lt a hmem) (Nat.le_add_right _ _)
  · by_cases hmakes : makesHandle e = true
    · rw [if_pos hmakes, List.mem_singleton] at hnew
      rw [hnew, allocations_of_makes hmakes]
      exact Nat.lt_succ_self _
    · rw [if_neg hmakes] at hnew
      exact absurd hnew List.not_mem_nil

/-- The handles of an object that were in the loop before a step. -/
theorem filter_queue (h : Housed sys) :
    sys.process.loop.queue.filter ((sys.next (v, e)).owner · = some w) =
      sys.process.loop.queue.filter (sys.owner · = some w) :=
  List.filter_congr fun a ha => by rw [System.next_owner_of_lt (h.queue_lt a ha)]

/-- Other objects have no part in them. -/
theorem queue_other (h : Housed sys) (henabled : sys.Enabled (v, e)) (hne : v ≠ w) :
    (sys.next (v, e)).process.loop.queue.filter ((sys.next (v, e)).owner · = some w) =
      sys.process.loop.queue.filter (sys.owner · = some w) := by
  have hqueue : (sys.next (v, e)).process.loop.queue = (next (sys.view v) e).loop.queue := rfl
  have hforeign {a : Addr} (ha : (sys.next (v, e)).owner a = some v) :
      ¬ (sys.next (v, e)).owner a = some w :=
    fun hown => hne (Option.some.inj (ha.symm.trans hown))
  have hnew : (if makesHandle e then [(sys.view v).fresh] else []).filter
      ((sys.next (v, e)).owner · = some w) = [] := by
    by_cases hmakes : makesHandle e = true
    · rw [if_pos hmakes]
      refine List.filter_cons_of_neg ?_
      exact mt of_decide_eq_true (hforeign (System.next_owner_fresh (allocations_of_makes hmakes)))
    · rw [if_neg hmakes]
      rfl
  rw [hqueue, queue_next, List.filter_append, hnew, List.append_nil]
  cases hclosed : closedHandle e with
  | none => exact h.filter_queue
  | some b =>
      have howner := henabled.owner (handle_of_closed hclosed)
      rw [Option.elim_some, ← List.erase_filter]
      refine (List.erase_of_not_mem fun hmem => ?_).trans h.filter_queue
      refine hforeign ?_ (of_decide_eq_true (List.mem_filter.mp hmem).2)
      rw [System.next_owner_of_lt (h.owner_lt b v howner), howner]

protected theorem next (h : Housed sys) (henabled : sys.Enabled (v, e)) :
    Housed (sys.next (v, e)) := by
  refine ⟨h.toAllocated.next henabled, fun a ha => ?_, fun a ha => h.mem_queue_next ha⟩
  have hplain := congrArg Cell.stage (h.blank sys.process.fresh le_rfl)
  refine opened_next (s := sys.view v) hplain ?_ (fun hold => h.opened a hold) ha
  rintro b rfl
  exact henabled.2.2.2

/-- Only the end of an object with a failed server ends the process, and only
`uv_loop_close` of an empty loop destroys it. -/
theorem fate_next (h : Housed sys) (henabled : (system n).enabled sys (v, e)) :
    (sys.next (v, e)).process.loop.fate = sys.process.loop.fate ↔
      (e = .exit → sys.process.loop.stage (sys.worker v).server = .opened) ∧
        (e = .stopLoopClose → sys.process.loop.queue ≠ []) := by
  obtain ⟨hpermits, henabled⟩ := henabled
  have hfate : (sys.next (v, e)).process.loop.fate = (next (sys.view v) e).loop.fate := rfl
  rw [hfate]
  cases e with
  | connectionCb server status ret =>
      have hopen : sys.process.loop.stage server = .opened := h.opened server (.inl henabled.2.2.2)
      by_cases hstatus : status = 0
      · by_cases hret : ret = 0 <;> simp [next, onConnection, hstatus, hret, System.view]
      · simp [next, onConnection, hstatus, System.view, hopen]
  | readCb a nread buf =>
      have hopen : sys.process.loop.stage a = .opened := h.opened a (.inr henabled.2.2.2.1)
      by_cases hnread : nread < 0 <;>
        simp [next, onRead, allocBuffer, hnread, System.view, hopen]
  | readErrorCb a nread =>
      have hopen : sys.process.loop.stage a = .opened := h.opened a (.inr henabled.2.2.2.1)
      simp [next, System.view, hopen]
  | exit =>
      have halive := hpermits.not_aborted
      by_cases hopen : sys.process.loop.stage (sys.worker v).server = .opened
      · simp [next, exit, System.view, hopen]
      · simp [next, exit, System.view, hopen, halive.symm]
  | stopLoopClose =>
      have husable : sys.process.loop.fate = .usable :=
        hpermits.resolve_right fun hdestroyed => Bool.noConfusion hdestroyed.2
      by_cases hempty : sys.process.loop.queue = [] <;>
        simp [next, System.view, loopCloseRet, husable, hempty]
  | start | enter | test | closeCb | runEnd | stopFlag | stopJoin =>
      simp [next, enter, onClose, System.view]

end Housed

/-- The object alone, with what its process guarantees. -/
structure Alone (sys : System n) (w : Fin n) (name : Addr → Addr) (s : State) : Prop
    extends Agrees sys w name s where
  wellFormed : WellFormed s
  replayed : s.Replayed
  name_lt : ∀ a, sys.owner a = some w → name a < s.fresh
  blank : ∀ a, s.fresh ≤ a → s.loop.cell a = {}

theorem alone_initial (address : Fin n → SockAddr) (w : Fin n) :
    Alone (System.initial address) w id
      (Receiver.initial (address w).host (address w).port w) where
  worker := rfl
  cell _ h := by cases h
  injective _ _ h := by cases h
  queue := rfl
  fate := rfl
  invoked := rfl
  wellFormed := wellFormed_initial _ _ _
  replayed := rfl
  name_lt _ h := by cases h
  blank _ _ := rfl

/-- What is allocated next is called by the next address of the object alone. -/
def extend (sys : System n) (name : Addr → Addr) (s : State) : Addr → Addr :=
  Function.update name sys.process.fresh s.fresh

theorem extend_fresh : extend sys name s sys.process.fresh = s.fresh := Function.update_self ..

theorem extend_of_lt {a : Addr} (h : a < sys.process.fresh) : extend sys name s a = name a :=
  Function.update_of_ne (Nat.ne_of_lt h) _ _

/-- What has been allocated keeps its name, and what a step allocates is new in
both processes. -/
theorem Allocated.owner_cases (h : Allocated sys) {a : Addr}
    (howner : (sys.next (w, e)).owner a = some w) :
    (sys.owner a = some w ∧ extend sys name s a = name a) ∨
      a = sys.process.fresh ∧ extend sys name s a = s.fresh ∧ e.allocations = 1 := by
  by_cases hlt : a < sys.process.fresh
  · rw [System.next_owner_of_lt hlt] at howner
    exact .inl ⟨howner, extend_of_lt hlt⟩
  · obtain ⟨-, rfl, hone⟩ := System.next_owner_of_ge (Nat.not_lt.mp hlt) howner h.owner_lt
    exact .inr ⟨rfl, extend_fresh, hone⟩

theorem erase_map {l : List Addr} {a : Addr} (h : ∀ b ∈ l, name b = name a → b = a) :
    (l.map name).erase (name a) = (l.erase a).map name := by
  induction l with
  | nil => rfl
  | cons b rest ih =>
      by_cases hsame : b = a
      · subst hsame
        simp
      · have hne : name b ≠ name a := fun hname => hsame (h b List.mem_cons_self hname)
        simp [hsame, hne, ih fun c hc => h c (List.mem_cons_of_mem _ hc)]

namespace Alone

variable (h : Alone sys w name s) (hhoused : Housed sys)

include h hhoused

theorem worker_extend :
    s.worker = {sys.worker w with server := extend sys name s (sys.worker w).server} := by
  rw [extend_of_lt (hhoused.server_lt w)]
  exact h.worker

theorem injective_extend {a b : Addr} (ha : (sys.next (w, e)).owner a = some w)
    (hb : (sys.next (w, e)).owner b = some w)
    (hname : extend sys name s a = extend sys name s b) : a = b := by
  rcases hhoused.owner_cases ha with ⟨hown, haname⟩ | ⟨rfl, haname, -⟩
  · rcases hhoused.owner_cases hb with ⟨hown', hbname⟩ | ⟨rfl, hbname, -⟩
    · rw [haname, hbname] at hname
      exact h.injective a b hown hown' hname
    · rw [haname, hbname] at hname
      exact absurd hname (Nat.ne_of_lt (h.name_lt a hown))
  · rcases hhoused.owner_cases hb with ⟨hown', hbname⟩ | ⟨rfl, hbname, -⟩
    · rw [haname, hbname] at hname
      exact absurd hname (Nat.ne_of_gt (h.name_lt b hown'))
    · rfl

theorem cell_extend {a : Addr} (howner : (sys.next (w, e)).owner a = some w) :
    s.loop.cell (extend sys name s a) = sys.process.loop.cell a := by
  rcases hhoused.owner_cases howner with ⟨hown, hname⟩ | ⟨rfl, hname, -⟩
  · rw [hname]
    exact h.cell a hown
  · rw [hname, h.blank _ (Nat.le_refl _), hhoused.blank _ (Nat.le_refl _)]

/-- The object alone can take the step if the callbacks are run by its thread. -/
theorem enabled (henabled : (system n).enabled sys (w, e))
    (hhome : e.handle ≠ none → (sys.worker w).pc = .run) :
    machine.enabled s (e.rename (extend sys name s)) := by
  obtain ⟨hpermits, henabled⟩ := henabled
  have hpc : s.worker.pc = (sys.worker w).pc := by rw [h.worker]
  have hcaller : s.worker.caller = (sys.worker w).caller := by rw [h.worker]
  refine ⟨?_, ?_⟩
  · rw [usesLoop_rename, Loop.Permits, h.fate]
    exact hpermits
  cases hhandle : e.handle with
  | none => exact enabled_congr hpc hcaller hhandle (henabled.thread hhandle)
  | some a =>
      have hrun : s.worker.pc = .run :=
        hpc.trans (hhome (by rw [hhandle]; exact Option.some_ne_none a))
      have howner := henabled.owner hhandle
      have hcell := h.cell a howner
      have hname : extend sys name s a = name a := extend_of_lt (hhoused.owner_lt a w howner)
      rw [← hname] at hcell
      cases e with
      | connectionCb server status ret =>
          obtain rfl := Option.some.inj hhandle
          exact ⟨hrun, (congrArg Cell.listening hcell).trans henabled.2.2.2⟩
      | readCb b nread buf =>
          obtain rfl := Option.some.inj hhandle
          obtain ⟨-, -, -, hreading, hlength⟩ := henabled
          exact ⟨hrun, (congrArg Cell.reading hcell).trans hreading, hlength⟩
      | readErrorCb b nread =>
          obtain rfl := Option.some.inj hhandle
          obtain ⟨-, -, -, hreading, hnread⟩ := henabled
          exact ⟨hrun, (congrArg Cell.reading hcell).trans hreading, hnread⟩
      | closeCb b =>
          obtain rfl := Option.some.inj hhandle
          exact ⟨hrun, (congrArg Cell.stage hcell).trans henabled.2.2.2⟩
      | _ => cases hhandle

/-- The object alone calls the user's function when it is called among others. -/
theorem invoked_next (henabled : (system n).enabled sys (w, e))
    (hhome : e.handle ≠ none → (sys.worker w).pc = .run) :
    (next s (e.rename (extend sys name s))).invoked = (sys.next (w, e)).called w := by
  rw [hhoused.called_next henabled.2 w, ← h.invoked]
  by_cases hsignals : e.Signals
  · rw [if_pos ⟨rfl, hsignals⟩]
    cases e with
    | readCb b nread buf =>
        have hreading := (h.enabled hhoused henabled hhome).2.2.1
        refine invoked_readCb_of_signals hsignals ?_
        rw [(h.wellFormed.reading _ hreading).2]
        exact Option.some_ne_none _
    | _ => cases hsignals
  · rw [if_neg fun hboth => hsignals hboth.2, Nat.add_zero]
    exact invoked_next_of_not_signals (mt signals_rename.mp hsignals)

/-- The handles of the object that are in the loop before a step. -/
theorem queue_extend : s.loop.queue =
    (sys.process.loop.queue.filter ((sys.next (w, e)).owner · = some w)).map
      (extend sys name s) := by
  rw [h.queue, hhoused.filter_queue]
  refine List.map_congr_left fun a ha => (extend_of_lt ?_).symm
  exact hhoused.queue_lt a (List.mem_of_mem_filter ha)

theorem queue_next (henabled : sys.Enabled (w, e)) :
    (next s (e.rename (extend sys name s))).loop.queue =
      ((sys.next (w, e)).process.loop.queue.filter ((sys.next (w, e)).owner · = some w)).map
        (extend sys name s) := by
  have hqueue : (sys.next (w, e)).process.loop.queue = (next (sys.view w) e).loop.queue := rfl
  have hbefore := h.queue_extend hhoused (e := e)
  rw [hqueue, Receiver.queue_next, Receiver.queue_next, List.filter_append, List.map_append,
    closedHandle_rename, makesHandle_rename]
  congr 1
  · cases hclosed : closedHandle e with
    | none => exact hbefore
    | some b =>
        have hown : (sys.next (w, e)).owner b = some w := by
          have howner := henabled.owner (handle_of_closed hclosed)
          rw [System.next_owner_of_lt (hhoused.owner_lt b w howner), howner]
        rw [Option.map_some, Option.elim_some, Option.elim_some, hbefore, erase_map,
          List.erase_filter]
        · rfl
        · intro a ha hsame
          have howner := of_decide_eq_true (List.mem_filter.mp ha).2
          exact h.injective_extend hhoused howner hown hsame
  · by_cases hmakes : makesHandle e = true
    · have hown : (sys.next (w, e)).owner (sys.view w).fresh = some w :=
        System.next_owner_fresh (allocations_of_makes hmakes)
      rw [if_pos hmakes, if_pos hmakes, List.filter_cons_of_pos (by simpa using hown)]
      exact congrArg (fun a => [a]) extend_fresh.symm
    · rw [if_neg hmakes, if_neg hmakes]
      rfl

theorem fate_next (henabled : sys.Enabled (w, e))
    (hclose : e = .stopLoopClose →
      sys.process.loop.queue = [] ∨ ∃ b ∈ sys.process.loop.queue, sys.owner b = some w) :
    (next s (e.rename (extend sys name s))).loop.fate = (sys.next (w, e)).process.loop.fate := by
  have hfate : (sys.next (w, e)).process.loop.fate = (next (sys.view w) e).loop.fate := rfl
  rw [hfate]
  by_cases hstop : e = .stopLoopClose
  · subst hstop
    have hret : loopCloseRet s.loop = loopCloseRet sys.process.loop := by
      rcases hclose rfl with hempty | ⟨b, hb, howner⟩
      · have halone : s.loop.queue = [] := by
          rw [h.queue_eq_nil]
          simp [hempty]
        rw [loopCloseRet, loopCloseRet, if_pos halone, if_pos hempty]
      · have halone : s.loop.queue ≠ [] := fun hnil => h.queue_eq_nil.mp hnil ⟨b, hb, howner⟩
        rw [loopCloseRet, loopCloseRet, if_neg halone, if_neg (List.ne_nil_of_mem hb)]
    simp [next, System.view, hret, h.fate]
  · rw [loop_next _ h.replayed, loop_next e (s := sys.view w) hhoused.replayed,
      calls_rename (s := sys.view w) extend_fresh (h.worker_extend hhoused) hstop]
    have hown : ∀ c ∈ calls (sys.view w) e, ∀ x ∈ c.addresses,
        (sys.next (w, e)).owner x = some w := fun c hc x hx => hhoused.owner_next henabled hc hx
    refine Loop.fate_trace_rename h.fate ?_ fun c hc x hx => h.cell_extend hhoused (hown c hc x hx)
    intro c hc x hx d hd y hy
    exact ⟨h.injective_extend hhoused (hown c hc x hx) (hown d hd y hy), congrArg _⟩

/-- A step of the object's own. -/
theorem next_own (henabled : (system n).enabled sys (w, e)) (hok : Undisturbed w sys (w, e)) :
    Alone (sys.next (w, e)) w (extend sys name s)
      (next s (e.rename (extend sys name s))) := by
  obtain ⟨hhome, hclose⟩ : (e.handle ≠ none → (sys.worker w).pc = .run) ∧
      (e = .stopLoopClose → sys.process.loop.queue = [] ∨
        ∃ b ∈ sys.process.loop.queue, sys.owner b = some w) := (if_pos rfl).mp hok
  refine ⟨⟨?_, ?_, ?_, ?_, ?_, ?_⟩, ?_, ?_, ?_, ?_⟩
  · rw [System.next_worker_self]
    exact worker_next_rename (s := sys.view w) extend_fresh (h.worker_extend hhoused)
  · intro a howner
    refine cell_next_rename (s := sys.view w) hhoused.replayed h.replayed extend_fresh
      (h.worker_extend hhoused) ?_ (h.cell_extend hhoused howner)
    intro c hc x hx
    have hown := hhoused.owner_next henabled.2 hc hx
    exact ⟨h.injective_extend hhoused hown howner, fun hsame => congrArg _ hsame⟩
  · exact fun _ _ => h.injective_extend hhoused
  · exact h.queue_next hhoused henabled.2
  · exact h.fate_next hhoused henabled.2 hclose
  · exact h.invoked_next hhoused henabled hhome
  · exact h.wellFormed.next (h.enabled hhoused henabled hhome).2
  · exact replayed_next h.replayed _
  · intro a howner
    rw [fresh_next, allocations_rename]
    rcases hhoused.owner_cases howner with ⟨hown, hname⟩ | ⟨rfl, hname, hone⟩
    · rw [hname]
      exact Nat.lt_of_lt_of_le (h.name_lt a hown) (Nat.le_add_right _ _)
    · rw [hname, hone]
      exact Nat.lt_succ_self _
  · intro a ha
    rw [fresh_next, allocations_rename] at ha
    rw [loop_next _ h.replayed, Loop.cell_trace_of_notMem ?_]
    · exact h.blank a (Nat.le_trans (Nat.le_add_right _ _) ha)
    · intro c hc hmem
      rcases addresses_calls c hc a hmem with ⟨rfl, hone⟩ | hhandle | ⟨-, rfl⟩
      · rw [allocations_rename] at hone
        rw [hone] at ha
        exact Nat.not_succ_le_self _ ha
      · rw [handle_rename, Option.map_eq_some_iff] at hhandle
        obtain ⟨b, hb, rfl⟩ := hhandle
        have hown := henabled.2.owner hb
        rw [extend_of_lt (hhoused.owner_lt b w hown)] at ha
        exact Nat.not_lt.mpr (Nat.le_trans (Nat.le_add_right _ _) ha) (h.name_lt b hown)
      · exact Nat.not_lt.mpr (Nat.le_trans (Nat.le_add_right _ _) ha) h.wellFormed.server_lt

/-- A step of another object. -/
theorem next_other (henabled : (system n).enabled sys (v, e)) (hne : v ≠ w)
    (hok : Undisturbed w sys (v, e)) : Alone (sys.next (v, e)) w name s := by
  have howner {a : Addr} (ha : (sys.next (v, e)).owner a = some w) : sys.owner a = some w := by
    by_cases hlt : a < sys.process.fresh
    · rwa [System.next_owner_of_lt hlt] at ha
    · exact absurd (System.next_owner_of_ge (Nat.not_lt.mp hlt) ha hhoused.owner_lt).1.symm hne
  refine ⟨⟨?_, ?_, ?_, ?_, ?_, ?_⟩, h.wellFormed, h.replayed,
    fun a ha => h.name_lt a (howner ha), h.blank⟩
  · rw [System.next_worker_of_ne (Ne.symm hne)]
    exact h.worker
  · intro a ha
    have hforeign : (sys.next (v, e)).owner a ≠ some v := fun hsame =>
      hne (Option.some.inj (hsame.symm.trans ha))
    rw [hhoused.cell_next henabled.2 hforeign]
    exact h.cell a (howner ha)
  · exact fun a b ha hb => h.injective a b (howner ha) (howner hb)
  · rw [h.queue, hhoused.queue_other henabled.2 hne]
  · rw [(hhoused.fate_next henabled).mpr ((if_neg hne).mp hok)]
    exact h.fate
  · rw [hhoused.called_next henabled.2, if_neg fun hboth => hne hboth.1]
    exact h.invoked

end Alone

/-! ## Whole runs -/

theorem Follows.agrees {events : List (Fin n × Event)} (h : Follows w name sys s events) :
    Agrees sys w name s := by
  cases events with
  | nil => exact h
  | cons step rest => exact h.1

/-- A run among others in which the object is undisturbed is one alone. The names
that the addresses have got so far stay. -/
theorem follows_of_undisturbed {events : List (Fin n × Event)} (h : Alone sys w name s)
    (hhoused : Housed sys) (hrun : (system n).Runs sys events)
    (hok : (system n).Along (Undisturbed w) sys events) :
    ∃ name', (∀ a < sys.process.fresh, name' a = name a) ∧ Follows w name' sys s events := by
  induction events generalizing sys name s with
  | nil => exact ⟨name, fun _ _ => rfl, h.toAgrees⟩
  | cons step rest ih =>
      obtain ⟨v, e⟩ := step
      have henabled : (system n).enabled sys (v, e) := hrun.1
      have hle : sys.process.fresh ≤ (sys.next (v, e)).process.fresh :=
        fresh_le_next (sys.view v) e
      have hnext := hhoused.next henabled.2
      by_cases hsame : v = w
      · subst hsame
        obtain ⟨name', hkeeps, hfollows⟩ :=
          ih (h.next_own hhoused henabled hok.1) hnext hrun.2 hok.2
        have hnames : ∀ a < sys.process.fresh, name' a = name a := fun a ha => by
          rw [hkeeps a (Nat.lt_of_lt_of_le ha hle), extend_of_lt ha]
        have hrename : e.rename name' = e.rename (extend sys name s) := by
          refine rename_congr fun a ha => hkeeps a ?_
          exact Nat.lt_of_lt_of_le (hhoused.owner_lt a v (henabled.2.owner ha)) hle
        refine ⟨name', hnames, h.toAgrees.congr hhoused hnames, ?_⟩
        rw [if_pos rfl, hrename]
        exact ⟨h.enabled hhoused henabled ((if_pos rfl).mp hok.1).1, hfollows⟩
      · obtain ⟨name', hkeeps, hfollows⟩ :=
          ih (h.next_other hhoused henabled hsame hok.1) hnext hrun.2 hok.2
        have hnames : ∀ a < sys.process.fresh, name' a = name a :=
          fun a ha => hkeeps a (Nat.lt_of_lt_of_le ha hle)
        refine ⟨name', hnames, h.toAgrees.congr hhoused hnames, ?_⟩
        rw [if_neg hsame]
        exact hfollows

/-- The object alone shows what its step needs. -/
theorem undisturbed_own (h : Agrees sys w name s) (hpermits : (system n).enabled sys (w, e))
    (halone : machine.enabled s (e.rename name))
    (hnext : Agrees (sys.next (w, e)) w name (next s (e.rename name))) :
    Undisturbed w sys (w, e) := by
  refine (if_pos rfl).mpr ⟨fun hcallback => ?_, ?_⟩
  · rw [← h.pc]
    cases e with
    | connectionCb | readCb | readErrorCb | closeCb => exact halone.2.1
    | _ => exact absurd rfl hcallback
  · rintro rfl
    by_contra hnone
    obtain ⟨hbusy, hforeign⟩ := not_or.mp hnone
    have husable : s.loop.fate = .usable :=
      halone.1.resolve_right fun hdestroyed => Bool.noConfusion hdestroyed.2
    have hempty := h.queue_eq_nil.mpr hforeign
    have hfate := hnext.fate
    simp [next, System.next, System.view, loopCloseRet, hempty, hbusy, husable, ← h.fate] at hfate

/-- And that the others keep from it. -/
theorem undisturbed_other (h : Agrees sys w name s) (hhoused : Housed sys) (hne : v ≠ w)
    (henabled : (system n).enabled sys (v, e)) (hnext : Agrees (sys.next (v, e)) w name s) :
    Undisturbed w sys (v, e) :=
  (if_neg hne).mpr ((hhoused.fate_next henabled).mp (hnext.fate.symm.trans h.fate))

theorem undisturbed_of_follows {events : List (Fin n × Event)} (hhoused : Housed sys)
    (hrun : (system n).Runs sys events) (h : Follows w name sys s events) :
    (system n).Along (Undisturbed w) sys events := by
  induction events generalizing sys s with
  | nil => trivial
  | cons step rest ih =>
      obtain ⟨v, e⟩ := step
      have henabled : (system n).enabled sys (v, e) := hrun.1
      have hnext := hhoused.next henabled.2
      obtain ⟨hagrees, hrest⟩ := h
      by_cases hsame : v = w
      · subst hsame
        obtain ⟨halone, hrest⟩ := (if_pos rfl).mp hrest
        exact ⟨undisturbed_own hagrees henabled halone hrest.agrees, ih hnext hrun.2 hrest⟩
      · replace hrest := (if_neg hsame).mp hrest
        exact ⟨undisturbed_other hagrees hhoused hsame henabled hrest.agrees,
          ih hnext hrun.2 hrest⟩

end L1Comm.Receiver
