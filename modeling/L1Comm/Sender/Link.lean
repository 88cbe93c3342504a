import L1Comm.Machine.Recording
import L1Comm.Machine.Simulation
import L1Comm.Sender.Heartbeats
import L1Comm.Sender.Actions
import L1Comm.Sender.LateCompletions
import L1Comm.Sender.Sockets

/-!
What the sender is for, in its own terms: a link to L1 that is down, being
dialled or up, that is dialled whenever it is down, and that carries heartbeats
with increasing numbers while it is up. An established link is given up when
one of the heartbeats queued on it fails; a heartbeat that is refused outright
is lost without a trace.

The code keeps no such state. It has a status, an active timer, a socket and
requests in flight, also those of sockets it has closed, and a callback looks
at none of this to see what it is about. The second part says when it is a
link all the same.
-/

namespace L1Comm.Sender

open Uv

/-! ## The link -/

inductive Phase where
  | down | dialing | up
  deriving DecidableEq, Repr

/-- The link, with the heartbeats queued on it and the number of the next one. -/
structure Link where
  phase : Phase := .down
  queued : Nat := 0
  number : Nat := 0

inductive Link.Event where
  | dial
  | refused
  | established
  | beat (number : Nat) (accepted : Bool)
  | confirmed
  | lost
  deriving DecidableEq

namespace Link

@[simp] def Enabled (l : Link) : Link.Event → Prop
  | .dial => l.phase = .down
  | .refused | .established => l.phase = .dialing
  | .beat number _ => l.phase = .up ∧ number = l.number
  | .confirmed | .lost => l.phase = .up ∧ 0 < l.queued

@[simp] def next (l : Link) : Link.Event → Link
  | .dial => {l with phase := .dialing}
  | .refused => {l with phase := .down}
  | .established => {l with phase := .up}
  | .beat _ accepted =>
      {l with
        queued := if accepted then l.queued + 1 else l.queued
        number := (l.number + 1) % numMax}
  | .confirmed => {l with queued := l.queued - 1}
  | .lost => {l with phase := .down, queued := 0}

def machine : Machine Link Link.Event where
  enabled := Enabled
  next := next

/-- The events that take the link down. -/
@[simp] def Event.isFailure : Link.Event → Bool
  | .refused | .lost => true
  | _ => false

@[simp] def Event.isDial : Link.Event → Bool
  | .dial => true
  | _ => false

/-- Attempts that have not failed so far. -/
@[simp] def attempts (l : Link) : Nat :=
  match l.phase with
  | .down => 0
  | .dialing | .up => 1

@[simp] theorem machine_enabled (l : Link) (e : Link.Event) : machine.enabled l e = Enabled l e :=
  rfl

@[simp] theorem machine_next (l : Link) (e : Link.Event) : machine.next l e = next l e := rfl

theorem attempts_next {l : Link} {e : Link.Event} (henabled : Enabled l e) :
    l.attempts + (if e.isDial then 1 else 0) =
      (next l e).attempts + if e.isFailure then 1 else 0 := by
  cases e with
  | dial => simp [show l.phase = .down from henabled]
  | refused | established => simp [show l.phase = .dialing from henabled]
  | confirmed | lost => simp [henabled.1]
  | beat number accepted => simp

end Link

/-! ## The sender as a link -/

def Status.phase : Status → Phase
  | .disconnect => .down
  | .connecting => .dialing
  | .connected => .up

section Phase

variable {status : Status}

theorem Status.phase_eq_down : status.phase = .down ↔ status = .disconnect := by
  cases status <;> simp [phase]

end Phase

/-- A heartbeat is queued on the link while its write on the current socket is
pending and no other has failed. -/
def State.link (s : State) : Link where
  phase := s.conn.status.phase
  queued :=
    if s.conn.status = .connected then s.loop.writes.countP (s.conn.socket = some ·.handle) else 0
  number := s.num

/-- What a step does to the link. A completion that comes for a replaced
socket, or for a connection that has failed, is no event of the link. -/
def linkEvent (s : State) : Event → Option Link.Event
  | .body _ => if s.conn.status = .disconnect then some .dial else none
  | .connectCb _ h status =>
      if s.conn.socket = some h then some (if status < 0 then .refused else .established) else none
  | .writeCb _ h status =>
      if s.conn.socket = some h ∧ s.conn.status = .connected then
        some (if status < 0 then .lost else .confirmed)
      else none
  | .timerCb _ _ ret => some (.beat s.num (ret = 0))
  | _ => none

/-- The step is the one of the link that it stands for. -/
abbrev MatchesLink : State → Event → Prop :=
  machine.Matches Link.machine State.link linkEvent

/-- What the state of the sender owes to that of the link, beside `Quiescent`:
requests are told apart, and the connect of the current socket is pending only
while connecting. -/
structure Linked (s : State) : Prop where
  number : s.num < numMax
  nodup : s.loop.writes.Nodup
  dialing : ∀ c ∈ s.loop.connects, s.conn.socket = some c.handle → s.conn.status = .connecting
  socket : s.conn.status ≠ .disconnect → s.conn.socket ≠ none

theorem linked_initial (host : String) (port : Int) : Linked (initial host port) := by
  constructor <;> simp [initial, numMax]

variable {s : State} {e : Event}

/-- The heartbeat that is handed over now is the last one pending. -/
theorem timerCb_writes {h : Addr} (hsocket : s.conn.socket = some h) (t : Addr) (heap : Payload)
    (ret : Int) : (next s (.timerCb t heap ret)).loop.writes =
      if ret = 0 then s.loop.writes ++ [⟨s.fresh + 1, h⟩] else s.loop.writes := by
  by_cases hret : ret = 0 <;> simp [next, onTimer, hsocket, hret]

namespace Linked

theorem number_next (h : Linked s) (e : Event) : (next s e).num < numMax := by
  rw [num_next]
  split
  · exact Nat.mod_lt _ (by decide)
  · exact h.number

/-- Most steps leave the status, the socket and the requests alone. -/
theorem of_frame (h : Linked s) (hstatus : (next s e).conn.status = s.conn.status)
    (hsocket : (next s e).conn.socket = s.conn.socket)
    (hwrites : (next s e).loop.writes = s.loop.writes)
    (hconnects : (next s e).loop.connects = s.loop.connects) : Linked (next s e) := by
  refine ⟨h.number_next e, ?_, ?_, ?_⟩
  · rw [hwrites]
    exact h.nodup
  · rw [hconnects, hsocket, hstatus]
    exact h.dialing
  · rw [hsocket, hstatus]
    exact h.socket

/-- No connect is pending on the socket that is about to be made. -/
theorem body (h : Linked s) (ret : Int) : Linked (next s (.body ret)) := by
  by_cases hstatus : s.conn.status = .disconnect
  · refine ⟨h.number_next _, ?_, ?_, ?_⟩
    all_goals rw [next, Sender.body, if_pos hstatus]
    · rw [reconnect_writes]
      exact h.nodup
    · intro c _ _
      rw [reconnect_conn]
    · intro _
      rw [reconnect_conn]
      exact Option.some_ne_none _
  · refine h.of_frame ?_ ?_ ?_ ?_
    all_goals rw [next, Sender.body, if_neg hstatus]

/-- The connect of the current socket is over, and no other is pending on it. -/
theorem connectCb (h : Linked s) (hwf : WellFormed s) {req a : Addr} {status : Int}
    (henabled : Enabled s (.connectCb req a status))
    (hok : LateHarmless s (.connectCb req a status)) :
    Linked (next s (.connectCb req a status)) := by
  have hpending := henabled.2.1
  have hsocket : (next s (.connectCb req a status)).conn.socket = s.conn.socket := by
    rw [socket_next]
    rfl
  refine ⟨h.number_next _, ?_, ?_, ?_⟩
  · rw [connectCb_writes]
    exact h.nodup
  · intro c hc hcurrent
    rw [connectCb_connects] at hc
    rw [hsocket] at hcurrent
    obtain ⟨hold, hother⟩ := List.mem_filter.mp hc
    have hconnecting := h.dialing c hold hcurrent
    by_cases hsame : s.conn.socket = some a
    · have hhandle : c.handle = a := Option.some.inj (hcurrent.symm.trans hsame)
      have hrequest := hwf.connects_unique c hold _ hpending hhandle
      exact absurd hrequest (of_decide_eq_true hother)
    · have hdown := hok hsame
      rw [hconnecting] at hdown
      exact absurd hdown (by simp)
  · intro hup
    rw [hsocket]
    by_cases hsame : s.conn.socket = some a
    · rw [hsame]
      exact Option.some_ne_none _
    · rw [connectCb_failed req (late_connectCb_failed hwf henabled hsame)] at hup
      exact absurd rfl hup

theorem writeCb (h : Linked s) (hq : Quiescent s) {req a : Addr} {status : Int}
    (henabled : Enabled s (.writeCb req a status))
    (hok : LateHarmless s (.writeCb req a status)) : Linked (next s (.writeCb req a status)) := by
  refine ⟨h.number_next _, ?_, ?_, ?_⟩
  · rw [writeCb_writes]
    exact h.nodup.filter _
  · intro c hc hcurrent
    rw [writeCb_connects] at hc
    rw [writeCb_conn] at hcurrent
    have hconnecting := h.dialing c hc hcurrent
    have hlate : s.conn.socket ≠ some a := hq.writes hconnecting _ henabled.2.1
    have hdown := hok hlate
    rw [hconnecting] at hdown
    exact absurd hdown (by simp)
  · rw [writeCb_conn]
    intro hstatus
    apply h.socket
    by_cases hfailed : status < 0 <;> simp_all

/-- The request of a heartbeat is in new memory. -/
theorem timerCb (h : Linked s) (hwf : WellFormed s) (t : Addr) (heap : Payload) (ret : Int) :
    Linked (next s (.timerCb t heap ret)) := by
  refine ⟨h.number_next _, ?_, ?_, h.socket⟩
  · cases hsocket : s.conn.socket with
    | none =>
        have hwrites : (next s (.timerCb t heap ret)).loop.writes = s.loop.writes := by
          simp [next, onTimer, hsocket]
        rw [hwrites]
        exact h.nodup
    | some a =>
        rw [timerCb_writes hsocket]
        split
        · have hnew : ⟨s.fresh + 1, a⟩ ∉ s.loop.writes := fun hold =>
            absurd (hwf.writes_lt _ hold).2 (Nat.not_lt.mpr (Nat.le_succ _))
          exact List.nodup_append.mpr ⟨h.nodup, List.nodup_singleton _, by grind⟩
        · exact h.nodup
  · rw [timerCb_connects]
    exact h.dialing

protected theorem next (h : Linked s) (hwf : WellFormed s) (hq : Quiescent s)
    (henabled : Enabled s e) (hok : LateHarmless s e) : Linked (next s e) := by
  cases e with
  | body ret => exact h.body ret
  | connectCb req a status => exact h.connectCb hwf henabled hok
  | writeCb req a status => exact h.writeCb hq henabled hok
  | timerCb t heap ret => exact h.timerCb hwf t heap ret
  | exit =>
      refine h.of_frame ?_ ?_ (exit_writes s) (exit_connects s)
      · rw [Sender.next, exit_conn]
      · rw [Sender.next, exit_conn]
  | start | enter | test | closeCb | runEnd | stopFlag | stopLoopClose | stopJoin =>
      exact h.of_frame rfl rfl rfl rfl

end Linked

/-! ## The simulation -/

/-- While the link is not up nothing is queued on it. -/
theorem link_of_not_connected (hstatus : s.conn.status ≠ .connected) :
    s.link = {phase := s.conn.status.phase, queued := 0, number := s.num} := by
  rw [State.link, if_neg hstatus]

theorem link_of_connected {h : Addr} (hstatus : s.conn.status = .connected)
    (hsocket : s.conn.socket = some h) :
    s.link =
      {phase := .up, queued := s.loop.writes.countP (·.handle = h), number := s.num} := by
  simp [State.link, hstatus, hsocket, Status.phase, eq_comm]

/-- A step without a label that leaves alone what the link is made of. -/
theorem matches_of_frame (hlabel : linkEvent s e = none)
    (hstatus : (next s e).conn.status = s.conn.status)
    (hsocket : (next s e).conn.socket = s.conn.socket)
    (hwrites : (next s e).loop.writes = s.loop.writes) (hnum : (next s e).num = s.num) :
    MatchesLink s e := by
  rw [MatchesLink, Machine.Matches, hlabel]
  change (next s e).link = s.link
  simp only [State.link, hstatus, hsocket, hwrites, hnum]

theorem matches_body (ret : Int) : MatchesLink s (.body ret) := by
  by_cases hstatus : s.conn.status = .disconnect
  · have hlabel : linkEvent s (.body ret) = some .dial := if_pos hstatus
    rw [MatchesLink, Machine.Matches, hlabel]
    have hold := link_of_not_connected (s := s) (by simp [hstatus])
    have hnew := link_of_not_connected (s := next s (.body ret))
      (by simp [next, body, hstatus])
    have hnum : (next s (.body ret)).num = s.num := num_next s _
    refine ⟨?_, ?_⟩
    · simp [hold, hstatus, Status.phase]
    · change (next s (.body ret)).link = _
      rw [hnew, hold, hnum]
      simp [next, body, hstatus, Status.phase]
  · refine matches_of_frame (if_neg hstatus) ?_ ?_ ?_ ?_
    all_goals rw [next, body, if_neg hstatus]

/-- On the current socket it is the outcome of the attempt, and nothing has
been queued so far. -/
theorem matches_connectCb (hwf : WellFormed s) (hq : Quiescent s) (hl : Linked s)
    {req a : Addr} {status : Int} (henabled : Enabled s (.connectCb req a status))
    (hok : LateHarmless s (.connectCb req a status)) :
    MatchesLink s (.connectCb req a status) := by
  have hnum : (next s (.connectCb req a status)).num = s.num := num_next s _
  by_cases hsocket : s.conn.socket = some a
  · have hconnecting := hl.dialing _ henabled.2.1 hsocket
    have hlabel : linkEvent s (.connectCb req a status) =
        some (if status < 0 then .refused else .established) := if_pos hsocket
    rw [MatchesLink, Machine.Matches, hlabel]
    have hold := link_of_not_connected (s := s) (by simp [hconnecting])
    refine ⟨?_, ?_⟩
    · by_cases hstatus : status < 0 <;> simp [hold, hstatus, hconnecting, Status.phase]
    · change (next s (.connectCb req a status)).link = _
      by_cases hstatus : status < 0
      · rw [link_of_not_connected (by simp [connectCb_failed req hstatus]), hold, hnum]
        simp [hstatus, connectCb_failed req hstatus, Status.phase]
      · have hnone : s.loop.writes.countP (·.handle = a) = 0 := by
          rw [List.countP_eq_zero]
          intro c hc hcurrent
          have hhandle : c.handle = a := of_decide_eq_true hcurrent
          rw [← hhandle] at hsocket
          exact hq.writes hconnecting c hc hsocket
        rw [link_of_connected (h := a) (by rw [connectCb_conn req hstatus])
          (by rw [connectCb_conn req hstatus, hsocket]), connectCb_writes, hnone, hold, hnum]
        simp [hstatus]
  · have hdown := hok hsocket
    have hfailed := late_connectCb_failed hwf henabled hsocket
    refine matches_of_frame (if_neg hsocket) ?_ ?_ (connectCb_writes req status) hnum
    · rw [connectCb_failed req hfailed, hdown]
    · rw [socket_next]
      rfl

theorem matches_writeCb (hq : Quiescent s) (hl : Linked s) {req a : Addr} {status : Int}
    (henabled : Enabled s (.writeCb req a status))
    (hok : LateHarmless s (.writeCb req a status)) : MatchesLink s (.writeCb req a status) := by
  have hpending := henabled.2.1
  have hnum : (next s (.writeCb req a status)).num = s.num := num_next s _
  by_cases hcurrent : s.conn.socket = some a ∧ s.conn.status = .connected
  · obtain ⟨hsocket, hconnected⟩ := hcurrent
    have hlabel : linkEvent s (.writeCb req a status) =
        some (if status < 0 then .lost else .confirmed) := if_pos ⟨hsocket, hconnected⟩
    have hold := link_of_connected hconnected hsocket
    have hqueued : 0 < s.loop.writes.countP (·.handle = a) :=
      List.countP_pos_iff.mpr ⟨_, hpending, decide_eq_true rfl⟩
    rw [MatchesLink, Machine.Matches, hlabel]
    refine ⟨?_, ?_⟩
    · by_cases hstatus : status < 0 <;> simp [hold, hstatus] <;> simpa using hqueued
    · change (next s (.writeCb req a status)).link = _
      by_cases hstatus : status < 0
      · rw [link_of_not_connected (by simp [writeCb_conn, hstatus]), hold, hnum]
        simp [hstatus, writeCb_conn, Status.phase]
      · have herase : s.loop.writes.filter (· ≠ ⟨req, a⟩) = s.loop.writes.erase ⟨req, a⟩ := by
          rw [hl.nodup.erase_eq_filter]
          refine List.filter_congr fun c _ => ?_
          by_cases hsame : c = ⟨req, a⟩ <;> simp [hsame]
        rw [link_of_connected (h := a) (by simp [writeCb_conn, hstatus, hconnected])
          (by rw [writeCb_conn, hsocket]), writeCb_writes, herase, List.countP_erase, hold, hnum]
        simp [hstatus, hpending]
  · have hdown : s.conn.status = .disconnect := by
      by_cases hsocket : s.conn.socket = some a
      · cases hstatus : s.conn.status with
        | disconnect => rfl
        | connecting => exact absurd hsocket (hq.writes hstatus _ hpending)
        | connected => exact absurd ⟨hsocket, hstatus⟩ hcurrent
      · exact hok hsocket
    have hstill : (next s (.writeCb req a status)).conn.status = .disconnect := by
      simp [writeCb_conn, hdown]
    rw [MatchesLink, Machine.Matches, show linkEvent s (.writeCb req a status) = none from
      if_neg hcurrent]
    change (next s (.writeCb req a status)).link = s.link
    rw [link_of_not_connected (by simp [hstill]), link_of_not_connected (by simp [hdown]),
      hstill, hdown, hnum]

/-- The timer that fires is that of an established link. -/
theorem matches_timerCb (hq : Quiescent s) (hl : Linked s) {t : Addr} {heap : Payload} {ret : Int}
    (henabled : Enabled s (.timerCb t heap ret)) : MatchesLink s (.timerCb t heap ret) := by
  have hconnected := (hq.active t henabled.2).1
  obtain ⟨a, hsocket⟩ := Option.ne_none_iff_exists'.mp (hl.socket (by simp [hconnected]))
  have hold := link_of_connected hconnected hsocket
  refine ⟨⟨by rw [hold], by rw [hold]⟩, ?_⟩
  change (next s (.timerCb t heap ret)).link = _
  rw [link_of_connected (s := next s (.timerCb t heap ret)) hconnected hsocket,
    timerCb_writes hsocket, num_next, NumGenerator.getNum_of_lt hl.number, hold]
  by_cases hret : ret = 0 <;> simp [hret, Event.isTick]

theorem matches_next (hwf : WellFormed s) (hq : Quiescent s) (hl : Linked s)
    (henabled : Enabled s e) (hok : LateHarmless s e) : MatchesLink s e := by
  cases e with
  | body ret => exact matches_body ret
  | connectCb req a status => exact matches_connectCb hwf hq hl henabled hok
  | writeCb req a status => exact matches_writeCb hq hl henabled hok
  | timerCb t heap ret => exact matches_timerCb hq hl henabled
  | exit =>
      refine matches_of_frame rfl ?_ ?_ (exit_writes s) (num_next s _)
      · rw [next, exit_conn]
      · rw [next, exit_conn]
  | start | enter | test | closeCb | runEnd | stopFlag | stopLoopClose | stopJoin =>
      exact matches_of_frame rfl rfl rfl rfl rfl

/-- A late completion is no event of the link. -/
theorem linkEvent_of_late (hlate : Late s e) : linkEvent s e = none := by
  cases e with
  | connectCb req a status => exact if_neg hlate
  | writeCb req a status => exact if_neg fun hcurrent => hlate hcurrent.1
  | _ => exact hlate.elim

theorem status_of_late (hwf : WellFormed s) (henabled : Enabled s e) (hlate : Late s e) :
    (next s e).conn.status = .disconnect := by
  cases e with
  | connectCb req a status =>
      rw [connectCb_failed req (late_connectCb_failed hwf henabled hlate)]
  | writeCb req a status =>
      rw [writeCb_conn]
      exact if_pos (late_writeCb_failed hwf henabled hlate)
  | _ => exact hlate.elim

theorem lateHarmless_of_matches (hwf : WellFormed s) (henabled : Enabled s e)
    (h : MatchesLink s e) : LateHarmless s e := by
  intro hlate
  rw [MatchesLink, Machine.Matches, linkEvent_of_late hlate] at h
  have hsame : (next s e).conn.status.phase = s.conn.status.phase := congrArg Link.phase h
  rw [status_of_late hwf henabled hlate] at hsame
  exact Status.phase_eq_down.mp hsame.symm

/-- What holds of the states of a run whose late completions are harmless. -/
structure LinkKept (s : State) : Prop where
  wellFormed : WellFormed s
  quiescent : Quiescent s
  linked : Linked s

namespace LinkKept

theorem initial (host : String) (port : Int) : LinkKept (initial host port) :=
  ⟨wellFormed_initial host port, quiescent_initial host port, linked_initial host port⟩

protected theorem next (h : LinkKept s) (henabled : Enabled s e) (hok : LateHarmless s e) :
    LinkKept (next s e) :=
  ⟨h.wellFormed.next henabled, h.quiescent.next h.wellFormed henabled hok,
    h.linked.next h.wellFormed h.quiescent henabled hok⟩

end LinkKept

variable {host : String} {port : Int} {events : List Event}

/-- The steps of a run are those of the link, one by one, if and only if each
late completion comes while the status is `-1`. -/
theorem matches_link_iff (hrun : machine.Runs (initial host port) events) :
    machine.Along MatchesLink (initial host port) events ↔
      machine.Along LateHarmless (initial host port) events :=
  Machine.along_iff_along (m := machine) (I := LinkKept)
    (fun _ _ h henabled hok => h.next henabled.2 hok)
    (fun _ _ h henabled hok => matches_next h.wellFormed h.quiescent h.linked henabled.2 hok)
    (fun _ _ h henabled hmatches => lateHarmless_of_matches h.wellFormed henabled.2 hmatches)
    (.initial host port) hrun

/-- The events of the link that a run stands for. -/
def linkEvents (host : String) (port : Int) (events : List Event) : List Link.Event :=
  machine.image linkEvent (initial host port) events

/-- The sender refines the link, step by step and so over whole runs, if and
only if each late completion comes while the status is `-1`. -/
theorem link_refined_iff (hrun : machine.Runs (initial host port) events) :
    (machine.Along MatchesLink (initial host port) events ↔
        machine.Along LateHarmless (initial host port) events) ∧
      (machine.Along LateHarmless (initial host port) events →
        Link.machine.Runs {} (linkEvents host port events) ∧
          Link.machine.after {} (linkEvents host port events) =
            (machine.after (initial host port) events).link) :=
  ⟨matches_link_iff hrun, fun hok => Machine.runs_image ((matches_link_iff hrun).mpr hok)⟩

/-- The two pending heartbeats of the first connection fail one after the
other before the second connection is made. -/
def linkRun : List Event :=
  [.start, .enter, .test, .body 0, .connectCb 0 1 0, .runEnd,
   .test, .body 0, .timerCb 2 (fun _ => 0) 0, .timerCb 2 (fun _ => 0) 0, .writeCb 4 1 (-32),
   .writeCb 6 1 (-32), .runEnd,
   .test, .body 0, .connectCb 0 7 (-111), .runEnd]

theorem link_refined_iff_linkRun :
    (machine.Along MatchesLink (initial "10.0.0.2" 3011) linkRun ↔
        machine.Along LateHarmless (initial "10.0.0.2" 3011) linkRun) ∧
      (machine.Along LateHarmless (initial "10.0.0.2" 3011) linkRun →
        Link.machine.Runs {} (linkEvents "10.0.0.2" 3011 linkRun) ∧
          Link.machine.after {} (linkEvents "10.0.0.2" 3011 linkRun) =
            (machine.after (initial "10.0.0.2" 3011) linkRun).link) :=
  link_refined_iff (by decide)

/-! ## Attempts and failures -/

/-- Sockets are created by the steps that dial. -/
theorem length_sockets_next (s : State) (e : Event) :
    (sockets (next s e).trace).length =
      (sockets s.trace).length + (linkEvent s e).toList.countP Link.Event.isDial := by
  rw [sockets_next, List.length_append]
  apply congrArg ((sockets s.trace).length + ·)
  cases e with
  | body ret =>
      by_cases hstatus : s.conn.status = .disconnect <;> simp [newSockets, linkEvent, hstatus]
  | connectCb req a status =>
      by_cases hsocket : s.conn.socket = some a
      · by_cases hstatus : status < 0 <;> simp [newSockets, linkEvent, hsocket, hstatus]
      · simp [newSockets, linkEvent, hsocket]
  | writeCb req a status =>
      by_cases hcurrent : s.conn.socket = some a ∧ s.conn.status = .connected
      · by_cases hstatus : status < 0 <;> simp [newSockets, linkEvent, hcurrent, hstatus]
      · simp [newSockets, linkEvent, hcurrent]
  | timerCb t heap ret => simp [newSockets, linkEvent]
  | _ => rfl

theorem attempts_link (s : State) :
    s.link.attempts = if s.conn.status = .disconnect then 0 else 1 := by
  cases hstatus : s.conn.status <;> simp [State.link, hstatus, Status.phase]

/-- The sender, and the events of its link so far. -/
abbrev linked : Machine (State × List Link.Event) Event :=
  machine.recording fun s e => (linkEvent s e).toList

/-- There is one socket for each failure of the link, and one more while the
status is not `-1`. -/
def OneSocketPerFailure (s : State × List Link.Event) : Prop :=
  (sockets s.1.trace).length =
    s.2.countP Link.Event.isFailure + if s.1.conn.status = .disconnect then 0 else 1

theorem oneSocketPerFailure_next {recorded : State × List Link.Event}
    (h : OneSocketPerFailure recorded) (hmatches : MatchesLink recorded.1 e) :
    OneSocketPerFailure (linked.next recorded e) := by
  have hsockets := length_sockets_next recorded.1 e
  rw [OneSocketPerFailure, ← attempts_link] at h ⊢
  change (sockets (next recorded.1 e).trace).length =
    (recorded.2 ++ (linkEvent recorded.1 e).toList).countP Link.Event.isFailure +
      (next recorded.1 e).link.attempts
  rw [List.countP_append]
  cases hlabel : linkEvent recorded.1 e with
  | none =>
      rw [MatchesLink, Machine.Matches, hlabel] at hmatches
      have hsame : (next recorded.1 e).link = recorded.1.link := hmatches
      simp only [hlabel, Option.toList_none, List.countP_nil] at hsockets ⊢
      rw [hsame]
      omega
  | some f =>
      rw [MatchesLink, Machine.Matches, hlabel] at hmatches
      obtain ⟨henabled, hnext⟩ := hmatches
      have hsame : (next recorded.1 e).link = Link.next recorded.1.link f := hnext
      have hbalance := Link.attempts_next henabled
      simp only [hlabel, Option.toList_some, List.countP_singleton] at hsockets ⊢
      rw [hsame]
      omega

/-- A completion of a replaced socket that takes the status down makes for an
attempt that no failure of the link is the reason of. -/
theorem oneSocketPerFailure_fault {recorded : State × List Link.Event}
    (h : OneSocketPerFailure recorded) (hwf : WellFormed recorded.1)
    (henabled : Enabled recorded.1 e) (hbad : ¬ LateHarmless recorded.1 e) :
    ¬ OneSocketPerFailure (linked.next recorded e) := by
  obtain ⟨hlate, hup⟩ := Classical.not_imp.mp hbad
  have hlabel := linkEvent_of_late hlate
  have hsockets := length_sockets_next recorded.1 e
  intro hbalanced
  have hafter : (sockets (next recorded.1 e).trace).length =
      (recorded.2 ++ (linkEvent recorded.1 e).toList).countP Link.Event.isFailure +
        if (next recorded.1 e).conn.status = .disconnect then 0 else 1 := hbalanced
  rw [OneSocketPerFailure, if_neg hup] at h
  rw [status_of_late hwf henabled hlate, hlabel] at hafter
  simp [hlabel] at hsockets hafter
  omega

/-- In every state of a run there is one socket for each failure of the link,
and one more while the status is not `-1`, if and only if each late completion
comes while the status is `-1`. -/
theorem one_socket_per_failure_iff (hrun : machine.Runs (initial host port) events) :
    linked.Always OneSocketPerFailure (initial host port, []) events ↔
      machine.Along LateHarmless (initial host port) events := by
  have hrun' : linked.Runs (initial host port, []) events :=
    (Machine.recording_runs _ events).mpr hrun
  rw [← Machine.recording_along (fun s e => (linkEvent s e).toList) LateHarmless
    (initial host port, []) events]
  refine Machine.always_iff_along (I := fun s => LinkKept s.1 ∧ OneSocketPerFailure s)
    ?_ (fun _ h => h.2) ?_ ⟨.initial host port, rfl⟩ hrun'
  · rintro s e ⟨hkept, hbalanced⟩ henabled hok
    exact ⟨hkept.next henabled.2 hok, oneSocketPerFailure_next hbalanced
      (matches_next hkept.wellFormed hkept.quiescent hkept.linked henabled.2 hok)⟩
  · rintro s e ⟨hkept, hbalanced⟩ henabled hbad
    exact oneSocketPerFailure_fault hbalanced hkept.wellFormed henabled.2 hbad

theorem one_socket_per_failure_iff_linkRun :
    linked.Always OneSocketPerFailure (initial "10.0.0.2" 3011, []) linkRun ↔
      machine.Along LateHarmless (initial "10.0.0.2" 3011) linkRun :=
  one_socket_per_failure_iff (by decide)

end L1Comm.Sender
