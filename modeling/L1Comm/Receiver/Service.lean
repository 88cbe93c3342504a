import L1Comm.Machine.Simulation
import L1Comm.Receiver.Buffers
import L1Comm.Receiver.Steps
import L1Comm.Wire.Accessors

/-!
What the receiver is for, in its own terms: a service that is down, or open to
new clients, or deaf to them. Clients come one after the other, speak and leave,
each by itself; a signal calls the user's function. The clients are not those
of a thread but of the process: when the service has been closed and is opened
again, whoever was connected still is.

The code has handles instead of clients, and bytes instead of what they say.
Every run of it is one of the service.
-/

namespace L1Comm.Receiver

open Uv

/-! ## The service -/

/-- What a request says. -/
structure Message where
  number : DWORD
  type : L1Request.RequestType
  signal : L1Request.SignalType
  deriving DecidableEq

namespace Message

/-- A signal calls the user's function if it is in place. -/
def Calls (m : Message) : Prop := m.type = .heartbeatAndSignal ∧ m.signal = .inPlace

/-- A signal that is not ready goes unnoticed. -/
def Noticed (m : Message) : Prop := m.type = .heartbeat ∨ m.signal = .inPlace

instance (m : Message) : Decidable m.Calls := inferInstanceAs (Decidable (_ ∧ _))

instance (m : Message) : Decidable m.Noticed := inferInstanceAs (Decidable (_ ∨ _))

/-- The request L1 makes of it. -/
def request (m : Message) : L1Request :=
  ((({} : L1Request).setHeartbeatSeqNum m.number).setRequestType m.type).setSignalType m.signal

end Message

inductive Service.Phase where
  | down | listening | deaf
  deriving DecidableEq

/-- The clients that have come so far, in this order, and whether they are
still there; how often the user's function has been called; and the numbers
that have been noticed. -/
@[ext] structure Service where
  phase : Service.Phase := .down
  clients : List Bool := []
  calls : Nat := 0
  numbers : List DWORD := []

namespace Service

inductive Event where
  | opened (listening : Bool)
  | joined
  | heard (client : Nat) (m : Message)
  | left (client : Nat)
  | deafened
  | closed
  deriving DecidableEq

@[simp] def Enabled (s : Service) : Service.Event → Prop
  | .opened _ => s.phase = .down
  | .joined | .deafened => s.phase = .listening
  | .heard client _ | .left client => s.phase ≠ .down ∧ s.clients[client]? = some true
  | .closed => s.phase ≠ .down

@[simp] def next (s : Service) : Service.Event → Service
  | .opened listening => {s with phase := if listening then .listening else .deaf}
  | .joined => {s with clients := s.clients ++ [true]}
  | .heard _ m =>
      {s with
        calls := s.calls + if m.Calls then 1 else 0
        numbers := s.numbers ++ if m.Noticed then [m.number] else []}
  | .left client => {s with clients := s.clients.set client false}
  | .deafened => {s with phase := .deaf}
  | .closed => {s with phase := .down}

def machine : Machine Service Service.Event where
  enabled := Enabled
  next := next

end Service

/-! ## The receiver as a service -/

def message (req : L1Request) : Message :=
  ⟨req.getHeartbeatSeqNum, req.getRequestType, req.getSignalType⟩

namespace Message

variable (m : Message)

@[simp] theorem message_request : message m.request = m := by
  obtain ⟨hnumber, htype, hsignal⟩ := L1Request.getters_after {}
    [.heartbeatSeqNum m.number, .requestType m.type, .signalType m.signal]
  exact congr (congrArg₂ Message.mk hnumber htype) hsignal

/-- A buffer that holds the request. -/
def buffer : Buffer where
  base := List.ofFn m.request.toBytes
  room := by simp

@[simp] theorem buffer_request : m.buffer.request = m.request := by
  have hcells : (fun i : Fin L1Request.size =>
      m.buffer.base.get ⟨i, Nat.lt_of_lt_of_le i.isLt m.buffer.room⟩) = m.request.toBytes := by
    funext i
    simp only [buffer, List.get_eq_getElem, List.getElem_ofFn]
  rw [Buffer.request, hcells, L1Request.ofBytes_toBytes]

end Message

/-- The clients in the order in which they were accepted. -/
def clients (trace : List Call) : List Addr :=
  trace.filterMap fun
    | .accept _ client ret => if ret = 0 then some client else none
    | _ => none

instance (pc : Pc) : Decidable pc.Live := inferInstanceAs (Decidable (_ ∨ _))

def State.service (s : State) : Service where
  phase :=
    if ¬ s.worker.pc.Live then .down
    else if s.loop.listening s.worker.server then .listening
    else .deaf
  clients := (clients s.trace).map s.loop.reading
  calls := s.invoked
  numbers := s.reported

/-- What a step is to the service. A connection that is not accepted is nothing
to it, nor is what the caller of `Stop` does. -/
def serviceEvent (s : State) : Event → Option Service.Event
  | .enter ret => some (.opened (ret = 0))
  | .connectionCb _ status ret =>
      if status ≠ 0 then some .deafened else if ret = 0 then some .joined else none
  | .readCb h nread buf =>
      let client := (clients s.trace).idxOf h
      some (if nread < 0 then .left client else .heard client (message buf.request))
  | .readErrorCb h _ => some (.left ((clients s.trace).idxOf h))
  | .exit => some .closed
  | .start | .test | .closeCb _ | .runEnd | .stopFlag | .stopLoopClose | .stopJoin => none

/-- Clients are told apart by their place. -/
structure Ordered (s : State) : Prop where
  wellFormed : WellFormed s
  nodup : (clients s.trace).Nodup

variable {s : State} {e : Event}

@[simp] theorem clients_append (first second : List Call) :
    clients (first ++ second) = clients first ++ clients second :=
  List.filterMap_append

theorem mem_clients {trace : List Call} {a : Addr} :
    a ∈ clients trace ↔ a ∈ connections trace := by
  induction trace with
  | nil => simp [clients]
  | cons c rest ih =>
      rw [← List.singleton_append, clients_append, List.mem_append, ih, List.singleton_append,
        connections_cons, Finset.mem_union]
      refine or_congr_left ?_
      cases c with
      | accept server client ret => by_cases hret : ret = 0 <;> simp [clients, hret]
      | _ => simp [clients]

theorem clients_next (s : State) (e : Event) : clients (next s e).trace =
    clients s.trace ++ if serviceEvent s e = some .joined then [s.fresh] else [] := by
  rw [trace_next, clients_append]
  congr 1
  cases e with
  | connectionCb server status ret =>
      by_cases hstatus : status = 0
      · by_cases hret : ret = 0 <;> simp [clients, calls, serviceEvent, hstatus, hret]
      · simp [clients, calls, serviceEvent, hstatus]
  | readCb h nread buf =>
      by_cases hnread : nread < 0 <;> simp [clients, calls, serviceEvent, hnread]
  | _ => simp [clients, calls, serviceEvent]

theorem Ordered.reading_mem (h : Ordered s) {a : Addr} (ha : s.loop.reading a = true) :
    a ∈ clients s.trace :=
  mem_clients.mpr (h.wellFormed.reading a ha).1

theorem Ordered.fresh_notMem (h : Ordered s) : s.fresh ∉ clients s.trace := fun hmem =>
  Nat.lt_irrefl _ (h.wellFormed.connections_lt _ (mem_clients.mp hmem)).1

theorem Ordered.server_notMem (h : Ordered s) : s.worker.server ∉ clients s.trace := fun hmem =>
  (h.wellFormed.connections_lt _ (mem_clients.mp hmem)).2 rfl

theorem ordered_initial (host : String) (port : Int) (callback : Addr) :
    Ordered (initial host port callback) :=
  ⟨wellFormed_initial host port callback, List.nodup_nil⟩

protected theorem Ordered.next (h : Ordered s) (henabled : Enabled s e) : Ordered (next s e) := by
  refine ⟨h.wellFormed.next henabled, ?_⟩
  rw [clients_next]
  split_ifs
  · exact List.nodup_append_comm.mp (List.nodup_cons.mpr ⟨h.fresh_notMem, h.nodup⟩)
  · simpa using h.nodup

/-- A client in its place. -/
theorem Ordered.getElem?_eq_some (h : Ordered s) {client : Nat} :
    s.service.clients[client]? = some true ↔
      ∃ a, s.loop.reading a = true ∧ (clients s.trace).idxOf a = client := by
  rw [State.service, List.getElem?_map, Option.map_eq_some_iff]
  constructor
  · rintro ⟨a, ha, hreading⟩
    obtain ⟨hlt, rfl⟩ := List.getElem?_eq_some_iff.mp ha
    exact ⟨_, hreading, h.nodup.idxOf_getElem client hlt⟩
  · rintro ⟨a, hreading, rfl⟩
    exact ⟨a, List.getElem?_idxOf (h.reading_mem hreading), hreading⟩

theorem phase_eq_down : s.service.phase = .down ↔ ¬ s.worker.pc.Live := by
  unfold State.service
  split_ifs <;> simp_all

/-- Only the server of a live thread listens. -/
theorem phase_eq_listening (h : WellFormed s) :
    s.service.phase = .listening ↔ s.loop.listening s.worker.server = true := by
  unfold State.service
  by_cases hlive : s.worker.pc.Live
  · cases hlistening : s.loop.listening s.worker.server <;> simp [hlive]
  · cases hlistening : s.loop.listening s.worker.server with
    | false => simp [hlive]
    | true => exact absurd (h.listening _ hlistening).1 hlive

/-- What neither the phase nor a client nor the user's function has to do with. -/
theorem service_of_frame (hevent : serviceEvent s e = none)
    (hlive : (next s e).worker.pc.Live ↔ s.worker.pc.Live)
    (hlistening : (next s e).loop.listening (next s e).worker.server =
      s.loop.listening s.worker.server)
    (hreading : ∀ a ∈ clients s.trace, (next s e).loop.reading a = s.loop.reading a)
    (hinvoked : (next s e).invoked = s.invoked) (hreported : (next s e).reported = s.reported) :
    machine.Matches Service.machine State.service serviceEvent s e := by
  have hclients : clients (next s e).trace = clients s.trace := by
    rw [clients_next, hevent]
    exact List.append_nil _
  simp only [Machine.Matches, hevent]
  change (next s e).service = s.service
  ext1
  · simp only [State.service, hlive, hlistening]
  · simp only [State.service, hclients]
    exact List.map_congr_left hreading
  · exact hinvoked
  · exact hreported

theorem handleRequest_service {p : Process} {stream : Addr} (hdata : p.data stream ≠ none)
    (req : L1Request) :
    (handleRequest p stream req).invoked = p.invoked + (if (message req).Calls then 1 else 0) ∧
      (handleRequest p stream req).reported =
        p.reported ++ (if (message req).Noticed then [req.getHeartbeatSeqNum] else []) := by
  unfold handleRequest
  cases htype : req.getRequestType <;> cases hsignal : req.getSignalType <;>
    simp [Message.Calls, Message.Noticed, message, htype, hsignal, hdata]

theorem matches_enter (h : Ordered s) (hstart : s.worker.pc = .start) (ret : Int) :
    (next s (.enter ret)).service = Service.next s.service (.opened (ret = 0)) := by
  have hdead : ¬ s.worker.pc.Live := by simp [Pc.Live, hstart]
  have hquiet : s.loop.listening s.fresh = false := by
    cases hlistening : s.loop.listening s.fresh with
    | false => rfl
    | true => exact absurd (h.wellFormed.listening _ hlistening).1 hdead
  ext1
  · by_cases hret : ret = 0 <;> simp [State.service, next, enter, Pc.Live, hret, hquiet]
  · simp [State.service, clients_next, serviceEvent]
    simp [next, enter]
  · rfl
  · rfl

theorem matches_connectionCb (h : Ordered s) {server : Addr} {status ret : Int}
    (henabled : Enabled s (.connectionCb server status ret)) :
    machine.Matches Service.machine State.service serviceEvent s
      (.connectionCb server status ret) := by
  obtain ⟨hlive, rfl⟩ := h.wellFormed.listening server henabled.2
  have hphase := (phase_eq_listening h.wellFormed).mpr henabled.2
  have hserver : ∀ a ∈ clients s.trace, s.worker.server ≠ a :=
    fun a ha hsame => h.server_notMem (hsame ▸ ha)
  have hfresh : ∀ a ∈ clients s.trace, s.fresh ≠ a := fun a ha hsame => h.fresh_notMem (hsame ▸ ha)
  by_cases hstatus : status = 0
  · by_cases hret : ret = 0
    · subst hstatus hret
      refine ⟨hphase, ?_⟩
      ext1
      · simp [State.service, machine, next, onConnection, Service.machine]
      · simp [State.service, machine, Service.machine, clients_next, serviceEvent]
        simp [next, onConnection]
        exact fun a ha hsame => absurd hsame (hfresh a ha)
      · simp [State.service, machine, next, onConnection, Service.machine]
      · rfl
    · subst hstatus
      refine service_of_frame (by simp [serviceEvent, hret]) Iff.rfl ?_ ?_ ?_ ?_
      · simp [next, onConnection, hret]
        exact fun _ => (Nat.ne_of_lt h.wellFormed.server_lt).symm
      · simp [next, onConnection, hret]
        exact fun a ha _ => hfresh a ha
      · simp [next, onConnection, hret]
      · simp [next, onConnection, hret]
        rfl
  · have hclients := clients_next s (.connectionCb s.worker.server status ret)
    simp only [Machine.Matches, serviceEvent, ne_eq, hstatus, not_false_eq_true, if_true]
    refine ⟨hphase, ?_⟩
    ext1
    · simp [State.service, machine, next, onConnection, hstatus, hlive, Service.machine]
    · simp only [State.service, machine, Service.machine, Service.next]
      rw [hclients]
      simp [serviceEvent, hstatus, next, onConnection]
      exact fun a ha _ => hserver a ha
    · simp [State.service, machine, next, onConnection, hstatus, Service.machine]
    · simp [State.service, machine, next, onConnection, hstatus, Service.machine]
      rfl

/-- A client that is closed is not read from any more, the others are. -/
theorem map_reading_update {l : List Addr} (hnodup : l.Nodup) {f g : Addr → Bool} {h : Addr}
    (hmem : h ∈ l) (hself : g h = false) (hother : ∀ a, a ≠ h → g a = f a) :
    l.map g = (l.map f).set (l.idxOf h) false := by
  have hlt : l.idxOf h < l.length := List.idxOf_lt_length_of_mem hmem
  apply List.ext_getElem
  · simp
  · intro i hi hi'
    rw [List.getElem_map, List.getElem_set, List.getElem_map]
    split_ifs with hsame
    · subst hsame
      rw [List.getElem_idxOf hlt, hself]
    · apply hother
      rintro rfl
      exact hsame (hnodup.idxOf_getElem i (by simpa using hi))

/-- A failed read closes its client and does nothing else to the service. -/
theorem matches_left (h : Ordered s) {a : Addr} (hrun : s.worker.pc = .run)
    (hreading : s.loop.reading a = true)
    (hevent : serviceEvent s e = some (.left ((clients s.trace).idxOf a)))
    (hworker : (next s e).worker = s.worker)
    (hlistening : (next s e).loop.listening s.worker.server = s.loop.listening s.worker.server)
    (hreads : ∀ b, (next s e).loop.reading b = if a = b then false else s.loop.reading b)
    (hinvoked : (next s e).invoked = s.invoked) (hreported : (next s e).reported = s.reported) :
    machine.Matches Service.machine State.service serviceEvent s e := by
  have hup : s.service.phase ≠ .down := fun hdown => phase_eq_down.mp hdown (.inr (.inl hrun))
  have hclient : s.service.clients[(clients s.trace).idxOf a]? = some true :=
    h.getElem?_eq_some.mpr ⟨a, hreading, rfl⟩
  have hclients : clients (next s e).trace = clients s.trace := by
    rw [clients_next, hevent]
    simp
  simp only [Machine.Matches, hevent]
  refine ⟨⟨hup, hclient⟩, ?_⟩
  ext1
  · simp only [State.service, machine, Service.machine, Service.next, hworker, hlistening]
  · simp only [State.service, machine, Service.machine, Service.next]
    rw [hclients]
    refine map_reading_update h.nodup (h.reading_mem hreading) ?_ fun b hb => ?_
    · rw [hreads, if_pos rfl]
    · rw [hreads, if_neg hb.symm]
  · exact hinvoked
  · exact hreported

theorem matches_readCb (h : Ordered s) {a : Addr} {nread : Int} {buf : Buffer}
    (henabled : Enabled s (.readCb a nread buf)) :
    machine.Matches Service.machine State.service serviceEvent s (.readCb a nread buf) := by
  obtain ⟨hrun, hreading, -⟩ := henabled
  by_cases hnread : nread < 0
  · have hserver : a ≠ s.worker.server :=
      fun hsame => h.server_notMem (hsame ▸ h.reading_mem hreading)
    refine matches_left h hrun hreading (by simp [serviceEvent, hnread]) rfl ?_ ?_ ?_ ?_
    all_goals simp [next, onRead, allocBuffer, hnread, hserver]
    rfl
  · have hup : s.service.phase ≠ .down := fun hdown => phase_eq_down.mp hdown (.inr (.inl hrun))
    have hclient : s.service.clients[(clients s.trace).idxOf a]? = some true :=
      h.getElem?_eq_some.mpr ⟨a, hreading, rfl⟩
    have hclients := clients_next s (.readCb a nread buf)
    have hdata : ((allocBuffer s.toProcess).call (.readCb a nread buf)).data a ≠ none := by
      simp [allocBuffer, (h.wellFormed.reading a hreading).2]
    obtain ⟨hinvoked, hreported⟩ := handleRequest_service hdata buf.request
    simp only [serviceEvent, hnread, if_false] at hclients
    simp only [Machine.Matches, serviceEvent, hnread, if_false]
    refine ⟨⟨hup, hclient⟩, ?_⟩
    ext1
    · simp [State.service, machine, next, onRead, allocBuffer, hnread, Service.machine]
    · simp only [State.service, machine, Service.machine, Service.next]
      rw [hclients]
      simp [next, onRead, allocBuffer, hnread]
    · simp only [State.service, machine, next, onRead, hnread, if_false]
      exact hinvoked
    · simp only [State.service, machine, next, onRead, hnread, if_false]
      exact hreported

theorem matches_readErrorCb (h : Ordered s) {a : Addr} {nread : Int}
    (henabled : Enabled s (.readErrorCb a nread)) :
    machine.Matches Service.machine State.service serviceEvent s (.readErrorCb a nread) := by
  obtain ⟨hrun, hreading, -⟩ := henabled
  have hserver : a ≠ s.worker.server :=
    fun hsame => h.server_notMem (hsame ▸ h.reading_mem hreading)
  refine matches_left h hrun hreading rfl rfl ?_ ?_ rfl rfl
  all_goals simp [next, hserver]

theorem matches_exit (h : Ordered s) :
    (next s .exit).service = Service.next s.service .closed := by
  have hserver : ∀ a ∈ clients s.trace, s.worker.server ≠ a :=
    fun a ha hsame => h.server_notMem (hsame ▸ ha)
  have hclients := clients_next s .exit
  ext1
  · simp [State.service, next, exit, Pc.Live]
  · simp only [State.service, Service.next]
    rw [hclients]
    simp [serviceEvent, next, exit]
    exact fun a ha _ => hserver a ha
  · rfl
  · rfl

/-- Each step does to the service what it says. -/
theorem matches_service (h : Ordered s) (henabled : Enabled s e) :
    machine.Matches Service.machine State.service serviceEvent s e := by
  cases e with
  | enter ret =>
      have hstart : s.worker.pc = .start := henabled
      exact ⟨phase_eq_down.mpr (by simp [Pc.Live, hstart]), matches_enter h hstart ret⟩
  | connectionCb server status ret => exact matches_connectionCb h henabled
  | readCb a nread buf => exact matches_readCb h henabled
  | readErrorCb a nread => exact matches_readErrorCb h henabled
  | exit =>
      have hexit : s.worker.pc = .exit := henabled
      exact ⟨fun hdown => phase_eq_down.mp hdown (.inr (.inr hexit)), matches_exit h⟩
  | start =>
      have hidle : s.worker.pc = .idle := henabled
      exact service_of_frame rfl (by simp [next, Pc.Live, hidle]) rfl (fun _ _ => rfl) rfl rfl
  | test =>
      have hhead : s.worker.pc = .head := henabled
      refine service_of_frame rfl ?_ rfl (fun _ _ => rfl) rfl rfl
      simp only [next, Pc.Live, hhead]
      split <;> simp
  | closeCb a =>
      refine service_of_frame rfl Iff.rfl ?_ ?_ rfl rfl
      · simp [next, onClose]
      · simp [next, onClose]
  | runEnd =>
      have hrun : s.worker.pc = .run := henabled
      exact service_of_frame rfl (by simp [next, Pc.Live, hrun]) rfl (fun _ _ => rfl) rfl rfl
  | stopFlag => exact service_of_frame rfl Iff.rfl rfl (fun _ _ => rfl) rfl rfl
  | stopLoopClose =>
      refine service_of_frame rfl Iff.rfl ?_ ?_ rfl rfl
      · simp [next]
      · simp [next]
  | stopJoin =>
      have hdone : s.worker.pc = .done := henabled.2
      exact service_of_frame rfl (by simp [next, Pc.Live, hdone]) rfl (fun _ _ => rfl) rfl rfl

/-! ## Every run is one of the service -/

/-- What the events of a run are to the service. -/
abbrev serviceEvents (host : String) (port : Int) (callback : Addr) (events : List Event) :
    List Service.Event :=
  machine.image serviceEvent (initial host port callback) events

def Service.Event.said : Service.Event → Option Message
  | .heard _ m => some m
  | _ => none

/-- All that clients have said over a run of the service counts, whoever said it. -/
theorem Service.after_said (s : Service) (trace : List Service.Event) :
    (Service.machine.after s trace).calls =
        s.calls + (trace.filterMap Event.said).countP (·.Calls) ∧
      (Service.machine.after s trace).numbers =
        s.numbers ++ ((trace.filterMap Event.said).filter (·.Noticed)).map Message.number := by
  induction trace generalizing s with
  | nil => simp
  | cons e rest ih =>
      obtain ⟨hcalls, hnumbers⟩ := ih (Service.machine.next s e)
      rw [Machine.after_cons, hcalls, hnumbers]
      cases e with
      | heard client m =>
          simp only [List.filterMap_cons, Event.said, List.countP_cons, List.filter_cons,
            Service.machine, Service.next]
          by_cases hm : m.Calls <;> by_cases hm' : m.Noticed <;> simp [hm, hm'] <;> omega
      | opened | joined | left | deafened | closed =>
          simp [List.filterMap_cons, Event.said, Service.machine]

/-- Whatever the clients, libuv and the callers of `Start` and `Stop` do, the
receiver does what the service does, and the user's function is called, and
numbers are reported, for what clients have said. -/
theorem service_refined {host : String} {port : Int} {callback : Addr} {events : List Event}
    (hrun : machine.Runs (initial host port callback) events) :
    Service.machine.Runs {} (serviceEvents host port callback events) ∧
      (machine.after (initial host port callback) events).service =
        Service.machine.after {} (serviceEvents host port callback events) ∧
      (machine.after (initial host port callback) events).invoked =
        ((serviceEvents host port callback events).filterMap Service.Event.said).countP
          (·.Calls) ∧
      (machine.after (initial host port callback) events).reported =
        (((serviceEvents host port callback events).filterMap Service.Event.said).filter
          (·.Noticed)).map Message.number := by
  have hmatched : machine.Along
      (machine.Matches Service.machine State.service serviceEvent)
      (initial host port callback) events :=
    Machine.along_of_invariant (I := Ordered) (fun _ _ h henabled _ => h.next henabled.2)
      (fun _ _ h henabled _ => matches_service h henabled.2) (ordered_initial host port callback)
      hrun hrun
  obtain ⟨hruns, hafter⟩ := Machine.runs_image hmatched
  have hinit : (initial host port callback).service = {} := rfl
  rw [hinit] at hruns hafter
  obtain ⟨hcalls, hnumbers⟩ := Service.after_said {} (serviceEvents host port callback events)
  rw [hafter] at hcalls hnumbers
  refine ⟨hruns, hafter.symm, hcalls.trans (Nat.zero_add _), hnumbers.trans ?_⟩
  exact List.nil_append _

/-- A client speaks, another leaves, and when the receiver has been stopped and
started again the first one speaks again. -/
def restartedRun : List Event :=
  [.start, .enter 0, .test, .connectionCb 1 0 0, .connectionCb 1 0 0, .readCb 2 8 (flagged 3),
   .readCb 3 (-4095) (flagged 0), .stopFlag, .stopLoopClose, .runEnd, .test, .exit, .stopJoin,
   .start, .enter 0, .test, .readCb 2 8 (flagged 3)]

theorem service_refined_restartedRun :
    Service.machine.Runs {} (serviceEvents "10.0.0.1" 3001 0 restartedRun) ∧
      (machine.after (initial "10.0.0.1" 3001 0) restartedRun).service =
        Service.machine.after {} (serviceEvents "10.0.0.1" 3001 0 restartedRun) ∧
      (machine.after (initial "10.0.0.1" 3001 0) restartedRun).invoked =
        ((serviceEvents "10.0.0.1" 3001 0 restartedRun).filterMap Service.Event.said).countP
          (·.Calls) ∧
      (machine.after (initial "10.0.0.1" 3001 0) restartedRun).reported =
        (((serviceEvents "10.0.0.1" 3001 0 restartedRun).filterMap Service.Event.said).filter
          (·.Noticed)).map Message.number :=
  service_refined (by decide)

end L1Comm.Receiver
