import L1Comm.Receiver.Listening
import L1Comm.Receiver.Steps

/-!
The clients of the receiver: the handles that `onConnection` makes. Each of
them reads until its first negative `nread`, is then closing until its close
callback, and released from there on; one that `uv_accept` refuses is closing
from the start. What happens to one client is decided by the entries of the
trace about this client, and no other event adds any.
-/

namespace L1Comm.Receiver

open Uv

/-! ## What is said about clients -/

@[simp] def Accepts (h : Addr) : Call → Prop
  | .accept _ client ret => client = h ∧ ret = 0
  | _ => False

@[simp] def Refuses (h : Addr) : Call → Prop
  | .accept _ client ret => client = h ∧ ret ≠ 0
  | _ => False

/-- A negative `nread` is delivered, with a buffer or without one. -/
@[simp] def Ends (h : Addr) : Call → Prop
  | .readCb a nread _ | .readErrorCb a nread => a = h ∧ nread < 0
  | _ => False

/-- A handle made by `onConnection`. -/
def Client (trace : List Call) (h : Addr) : Prop :=
  Occurs (Accepts h) trace ∨ Occurs (Refuses h) trace

def Reading (s : State) (h : Addr) : Prop :=
  Occurs (Accepts h) s.trace ∧ ¬ Occurs (Ends h) s.trace

def Closing (s : State) (h : Addr) : Prop := .close (some h) ∈ s.trace ∧ .closeCb h ∉ s.trace

def Released (s : State) (h : Addr) : Prop := .free (some h) ∈ s.trace

/-- What each client is owed: it is in one of the three stages; it is closed at
most once, if it was refused or a negative `nread` has been delivered; its
storage is released by its close callback and by nothing else, all of it in
this order; and while it is reading its `data` is the worker's function. -/
structure ClientKept (s : State) (h : Addr) : Prop where
  one_stage : (Reading s h ∧ ¬ Closing s h ∧ ¬ Released s h) ∨
    (¬ Reading s h ∧ Closing s h ∧ ¬ Released s h) ∨
    (¬ Reading s h ∧ ¬ Closing s h ∧ Released s h)
  closed_once : closes s.trace h ≤ 1
  closed_iff : closes s.trace h = 1 ↔ Occurs (Refuses h) s.trace ∨ Occurs (Ends h) s.trace
  released_once : frees s.trace h ≤ 1
  released_by : frees s.trace h = s.trace.count (.closeCb h)
  order : history h s.trace <+:
    [.tcpInit h, .close (some h), .closeCb h, .free (some h)]
  data : Reading s h → s.data h = some s.worker.callback

/-- The client whose callback the event is. -/
def Event.client : Event → Ptr
  | .readCb h _ _ | .readErrorCb h _ | .closeCb h => some h
  | _ => none

/-- The step leaves every client that it is not a callback of in its stage. -/
def LeavesOthers (s : State) (e : Event) : Prop :=
  ∀ h, Client s.trace h → e.client ≠ some h →
    (Reading (next s e) h ↔ Reading s h) ∧ (Closing (next s e) h ↔ Closing s h) ∧
      (Released (next s e) h ↔ Released s h)

/-! ## Entries about a handle -/

/-- The entry is one of the history of the handle, or of its life as a client. -/
@[simp] def About (h : Addr) : Call → Prop
  | .accept _ client _ => client = h
  | .readStart a | .readCb a _ _ | .readErrorCb a _ => a = h
  | c => c.concerns h = true

section About

variable {h : Addr} {c : Call}

theorem concerns_of_not_about (hnot : ¬ About h c) : c.concerns h = false := by
  cases c with
  | accept | readStart | readCb | readErrorCb => rfl
  | _ => exact Bool.eq_false_iff.mpr hnot

theorem Accepts.about (haccepts : Accepts h c) : About h c := by
  cases c with
  | accept => exact haccepts.1
  | _ => exact haccepts.elim

theorem Refuses.about (hrefuses : Refuses h c) : About h c := by
  cases c with
  | accept => exact hrefuses.1
  | _ => exact hrefuses.elim

theorem Ends.about (hends : Ends h c) : About h c := by
  cases c with
  | readCb | readErrorCb => exact hends.1
  | _ => exact hends.elim

variable {trace added : List Call}

theorem history_of_not_about (hnone : ∀ c ∈ trace, ¬ About h c) : history h trace = [] :=
  history_eq_nil fun c hc => concerns_of_not_about (hnone c hc)

theorem not_occurs_of_not_about {P : Call → Prop} (hP : ∀ c, P c → About h c)
    (hnone : ∀ c ∈ trace, ¬ About h c) : ¬ Occurs P trace := by
  rintro ⟨c, hc, hoccurs⟩
  exact hnone c hc (hP c hoccurs)

theorem occurs_of_not_about {P : Call → Prop} (hP : ∀ c, P c → About h c)
    (hnone : ∀ c ∈ added, ¬ About h c) : Occurs P (trace ++ added) ↔ Occurs P trace := by
  rw [occurs_append, or_iff_left (not_occurs_of_not_about hP hnone)]

theorem Client.about (hclient : Client trace h) : ∃ c ∈ trace, About h c := by
  rcases hclient with ⟨c, hc, haccepts⟩ | ⟨c, hc, hrefuses⟩
  · exact ⟨c, hc, haccepts.about⟩
  · exact ⟨c, hc, hrefuses.about⟩

theorem reading_of_not_about (l : Loop SockAddr) (hnone : ∀ c ∈ trace, ¬ About h c) :
    (protocol.after l trace).reading h = l.reading h := by
  induction trace generalizing l with
  | nil => rfl
  | cons c rest ih =>
      have hrest : ∀ c ∈ rest, ¬ About h c := fun c hc => hnone c (List.mem_cons_of_mem _ hc)
      have hnot := hnone c List.mem_cons_self
      rw [Machine.after_cons, ih _ hrest, protocol_next, Loop.after_reading]
      cases c with
      | readStart a => exact if_neg hnot
      | close p =>
          have hne : p ≠ some h := fun hp => hnot (decide_eq_true hp)
          exact if_neg hne
      | _ => rfl

end About

theorem mem_connections {trace : List Call} {h : Addr} :
    h ∈ connections trace ↔ Occurs (Accepts h) trace := by
  induction trace with
  | nil => simp
  | cons c rest ih =>
      rw [connections_cons, Finset.mem_union, occurs_cons, ih]
      refine or_congr_left ?_
      cases c with
      | accept server client ret =>
          by_cases hret : ret = 0 <;> simp [hret, eq_comm]
      | _ => simp

/-! ## The stage of a client -/

inductive ClientStage where
  | reading | closing | released
  deriving DecidableEq, Repr

/-- The history of a client in the stage. -/
def ClientStage.history (h : Addr) : ClientStage → List Call
  | .reading => [.tcpInit h]
  | .closing => [.tcpInit h, .close (some h)]
  | .released => [.tcpInit h, .close (some h), .closeCb h, .free (some h)]

/-- libuv's view of it. -/
def ClientStage.stage : ClientStage → Stage
  | .reading => .opened
  | .closing => .closing
  | .released => .released

structure InStage (s : State) (h : Addr) (stage : ClientStage) : Prop where
  history : Uv.history h s.trace = stage.history h
  reading : s.loop.reading h = true ↔ stage = .reading
  accepted : Occurs (Accepts h) s.trace ↔ ¬ Occurs (Refuses h) s.trace
  ended : stage = .reading ↔ ¬ Occurs (Refuses h) s.trace ∧ ¬ Occurs (Ends h) s.trace

namespace InStage

variable {s : State} {h : Addr} {stage : ClientStage}

theorem mem_trace (hin : InStage s h stage) {c : Call} (hc : c.concerns h = true) :
    c ∈ s.trace ↔ c ∈ stage.history h := by
  rw [← hin.history, mem_history, and_iff_left hc]

theorem count_trace (hin : InStage s h stage) {c : Call} (hc : c.concerns h = true) :
    s.trace.count c = (stage.history h).count c := by
  rw [← hin.history, count_history h s.trace c hc]

theorem loop_stage (hin : InStage s h stage) (hreplayed : s.Replayed) :
    s.loop.stage h = stage.stage := by
  rw [hreplayed.stage, hin.history]
  cases stage <;> simp [ClientStage.history, ClientStage.stage]

theorem reading_iff (hin : InStage s h stage) : Reading s h ↔ stage = .reading := by
  rw [Reading, hin.accepted, ← hin.ended]

theorem closing_iff (hin : InStage s h stage) : Closing s h ↔ stage = .closing := by
  rw [Closing, hin.mem_trace (by simp), hin.mem_trace (by simp)]
  cases stage <;> simp [ClientStage.history]

theorem released_iff (hin : InStage s h stage) : Released s h ↔ stage = .released := by
  rw [Released, hin.mem_trace (by simp)]
  cases stage <;> simp [ClientStage.history]

theorem clientKept (hin : InStage s h stage) (hwf : WellFormed s) : ClientKept s h where
  one_stage := by
    rw [hin.reading_iff, hin.closing_iff, hin.released_iff]
    cases stage <;> decide
  closed_once := by
    rw [closes, hin.count_trace (by simp)]
    cases stage <;> simp [ClientStage.history]
  closed_iff := by
    have hended : stage ≠ .reading ↔
        Occurs (Refuses h) s.trace ∨ Occurs (Ends h) s.trace := by
      rw [ne_eq, hin.ended, not_and_or, not_not, not_not]
    rw [closes, hin.count_trace (by simp), ← hended]
    cases stage <;> simp [ClientStage.history]
  released_once := by
    rw [frees, hin.count_trace (by simp)]
    cases stage <;> simp [ClientStage.history]
  released_by := by
    rw [frees, hin.count_trace (by simp), hin.count_trace (by simp)]
    cases stage <;> simp [ClientStage.history]
  order := by
    rw [hin.history]
    cases stage with
    | reading => exact ⟨[.close (some h), .closeCb h, .free (some h)], rfl⟩
    | closing => exact ⟨[.closeCb h, .free (some h)], rfl⟩
    | released => exact List.prefix_refl _
  data := by
    rw [hin.reading_iff, ← hin.reading]
    exact fun hreading => (hwf.reading h hreading).2

/-- A step that adds nothing about the client leaves it in its stage. -/
theorem of_not_about (hin : InStage s h stage) (hreplayed : s.Replayed) {e : Event}
    (hnone : ∀ c ∈ calls s e, ¬ About h c) : InStage (next s e) h stage := by
  constructor
  · rw [trace_next, history_append, history_of_not_about hnone, List.append_nil, hin.history]
  · rw [loop_next e hreplayed, reading_of_not_about _ hnone, hin.reading]
  · rw [trace_next, occurs_of_not_about (fun _ => Accepts.about) hnone,
      occurs_of_not_about (fun _ => Refuses.about) hnone, hin.accepted]
  · rw [trace_next, occurs_of_not_about (fun _ => Refuses.about) hnone,
      occurs_of_not_about (fun _ => Ends.about) hnone, hin.ended]

/-- A client that is read from stays in its stage until a negative `nread`. -/
theorem readCb (hin : InStage s h .reading) (hlt : h < s.fresh) (nread : Int) (buf : Buffer) :
    InStage (next s (.readCb h nread buf)) h (if nread < 0 then .closing else .reading) := by
  have hne : s.fresh ≠ h := Nat.ne_of_gt hlt
  have hended := hin.ended.mp rfl
  by_cases hnread : nread < 0
  · rw [if_pos hnread]
    constructor
    · simp [trace_next, calls, hnread, hin.history, ClientStage.history]
    · simp [next, onRead, allocBuffer, hnread]
    · simpa [trace_next, calls, hnread] using hin.accepted
    · simp [trace_next, calls, hnread]
  · rw [if_neg hnread]
    constructor
    · simp [trace_next, calls, hnread, hne, hin.history, ClientStage.history]
    · simpa [next, onRead, allocBuffer, hnread] using hin.reading
    · simpa [trace_next, calls, hnread] using hin.accepted
    · simpa [trace_next, calls, hnread] using hended

theorem readErrorCb (hin : InStage s h .reading) {nread : Int} (hnread : nread < 0) :
    InStage (next s (.readErrorCb h nread)) h .closing := by
  constructor
  · simp [trace_next, calls, hin.history, ClientStage.history]
  · simp [next]
  · simpa [trace_next, calls] using hin.accepted
  · simp [trace_next, calls, hnread]

theorem closeCb (hin : InStage s h .closing) : InStage (next s (.closeCb h)) h .released := by
  have hreading : s.loop.reading h = false := by simpa using hin.reading
  have hended := hin.ended
  constructor
  · simp [trace_next, calls, hin.history, ClientStage.history]
  · simpa [next, onClose] using hreading
  · simpa [trace_next, calls] using hin.accepted
  · simpa [trace_next, calls] using hended

end InStage

/-! ## Any run -/

structure Clients (s : State) : Prop where
  wellFormed : WellFormed s
  replayed : s.Replayed
  bounded : ∀ h, s.fresh ≤ h → ∀ c ∈ s.trace, ¬ About h c
  server : ∀ h, Client s.trace h → h ≠ s.worker.server
  inStage : ∀ h, Client s.trace h → ∃ stage, InStage s h stage

theorem clients_initial (host : String) (port : Int) (callback : Addr) :
    Clients (initial host port callback) := by
  refine ⟨wellFormed_initial host port callback, rfl, ?_, ?_, ?_⟩ <;> simp [initial, Client]

namespace Clients

variable {s : State} {e : Event} {h : Addr}

theorem lt (hs : Clients s) (hclient : Client s.trace h) : h < s.fresh := by
  obtain ⟨c, hc, habout⟩ := hclient.about
  exact Nat.lt_of_not_le fun hle => hs.bounded h hle c hc habout

theorem client_of_reading (hs : Clients s) (hreading : s.loop.reading h = true) :
    Client s.trace h :=
  .inl (mem_connections.mp (hs.wellFormed.reading h hreading).1)

theorem closing_lt (hs : Clients s) (hclosing : s.loop.stage h = .closing) : h < s.fresh := by
  refine Nat.lt_of_not_le fun hle => ?_
  rw [hs.replayed.stage, history_of_not_about (hs.bounded h hle)] at hclosing
  cases hclosing

/-- A step adds entries about the object it allocates, the client whose
callback it is, and the server. -/
theorem about_calls (hs : Clients s) (henabled : Enabled s e) {c : Call} (hc : c ∈ calls s e)
    (habout : About h c) :
    (h = s.fresh ∧ s.fresh < (next s e).fresh) ∨
      h < s.fresh ∧ (e.client = some h ∨ h = s.worker.server) := by
  cases e with
  | enter ret =>
      have hnew : h = s.fresh := by
        simp only [calls, List.mem_cons, List.not_mem_nil, or_false] at hc
        rcases hc with rfl | rfl | rfl | rfl <;> simp at habout
        exact habout.symm
      exact .inl ⟨hnew, Nat.lt_succ_self _⟩
  | connectionCb server status ret =>
      obtain ⟨-, rfl⟩ := hs.wellFormed.listening server henabled.2
      by_cases hstatus : status = 0
      · left
        subst hstatus
        have hfresh : s.fresh < (next s (.connectionCb s.worker.server 0 ret)).fresh := by
          by_cases hret : ret = 0 <;> simp [next, onConnection, hret]
        simp only [calls, ne_eq, not_true, if_false, List.mem_cons, List.not_mem_nil,
          or_false] at hc
        refine ⟨?_, hfresh⟩
        rcases hc with rfl | rfl | rfl | rfl | rfl
        · simp at habout
        · simp at habout
        · simpa [eq_comm] using habout
        · simpa [eq_comm] using habout
        · split at habout <;> simpa [eq_comm] using habout
      · right
        simp only [calls, ne_eq, hstatus, not_false_eq_true, if_true, List.mem_cons,
          List.not_mem_nil, or_false] at hc
        rcases hc with rfl | rfl
        · simp at habout
        · obtain rfl : s.worker.server = h := by simpa using habout
          exact ⟨hs.wellFormed.server_lt, .inr rfl⟩
  | readCb a nread buf =>
      have hlt := (hs.wellFormed.connections_lt a (hs.wellFormed.reading a henabled.2.1).1).1
      simp only [calls, List.mem_cons, List.not_mem_nil, or_false] at hc
      rcases hc with rfl | rfl | rfl
      · simp at habout
      · obtain rfl : a = h := habout
        exact .inr ⟨hlt, .inl rfl⟩
      · by_cases hnread : nread < 0
        · obtain rfl : a = h := by simpa [hnread] using habout
          exact .inr ⟨hlt, .inl rfl⟩
        · obtain rfl : s.fresh = h := by simpa [hnread] using habout
          exact .inl ⟨rfl, by simp [next, onRead, allocBuffer, hnread]⟩
  | readErrorCb a nread =>
      have hlt := (hs.wellFormed.connections_lt a (hs.wellFormed.reading a henabled.2.1).1).1
      have ha : a = h := by
        simp only [calls, List.mem_cons, List.not_mem_nil, or_false] at hc
        rcases hc with rfl | rfl <;> simpa using habout
      subst ha
      exact .inr ⟨hlt, .inl rfl⟩
  | closeCb a =>
      have ha : a = h := by
        simp only [calls, List.mem_cons, List.not_mem_nil, or_false] at hc
        rcases hc with rfl | rfl <;> simpa using habout
      subst ha
      exact .inr ⟨hs.closing_lt henabled.2, .inl rfl⟩
  | exit =>
      obtain rfl := List.mem_singleton.mp hc
      obtain rfl : s.worker.server = h := by simpa using habout
      exact .inr ⟨hs.wellFormed.server_lt, .inr rfl⟩
  | stopLoopClose =>
      obtain rfl := List.mem_singleton.mp hc
      simp at habout
  | start | test | runEnd | stopFlag | stopJoin => exact absurd hc List.not_mem_nil

/-- No other event adds an entry about a client. -/
theorem not_about_calls (hs : Clients s) (henabled : Enabled s e) (hclient : Client s.trace h)
    (hother : e.client ≠ some h) : ∀ c ∈ calls s e, ¬ About h c := by
  intro c hc habout
  rcases hs.about_calls henabled hc habout with ⟨rfl, -⟩ | ⟨-, hown | hserver⟩
  · exact Nat.lt_irrefl _ (hs.lt hclient)
  · exact hother hown
  · exact hs.server h hclient hserver

/-- The new connection, which nothing in the trace is about. -/
theorem inStage_new (hs : Clients s) (server : Addr) (ret : Int) :
    InStage (next s (.connectionCb server 0 ret)) s.fresh
      (if ret = 0 then .reading else .closing) := by
  have hnone := hs.bounded s.fresh le_rfl
  have hhistory := history_of_not_about hnone
  have haccepts := not_occurs_of_not_about (fun _ => Accepts.about) hnone
  have hrefuses := not_occurs_of_not_about (fun _ => Refuses.about) hnone
  have hends := not_occurs_of_not_about (fun _ => Ends.about) hnone
  by_cases hret : ret = 0
  · constructor
    · simp [trace_next, calls, hret, hhistory, ClientStage.history]
    · simp [next, onConnection, hret]
    · simp [trace_next, calls, hret, hrefuses]
    · simp [trace_next, calls, hret, hrefuses, hends]
  · constructor
    · simp [trace_next, calls, hret, hhistory, ClientStage.history]
    · simp [next, onConnection, hret]
    · simp [trace_next, calls, hret, haccepts]
    · simp [trace_next, calls, hret]

theorem accept_calls {server : Addr} {ret : Int} (hc : .accept server h ret ∈ calls s e) :
    ∃ server ret, e = .connectionCb server 0 ret ∧ h = s.fresh := by
  cases e with
  | connectionCb server' status ret' =>
      by_cases hstatus : status = 0
      · by_cases hret : ret' = 0 <;> simp [calls, hstatus, hret] at hc <;>
          exact ⟨server', ret', by rw [hstatus], hc.2.1⟩
      · simp [calls, hstatus] at hc
  | readCb a nread buf => by_cases hnread : nread < 0 <;> simp [calls, hnread] at hc
  | _ => simp [calls] at hc

theorem client_next (hclient : Client (next s e).trace h) :
    Client s.trace h ∨ ∃ server ret, e = .connectionCb server 0 ret ∧ h = s.fresh := by
  rw [trace_next, Client, occurs_append, occurs_append] at hclient
  rcases hclient with (hold | ⟨c, hc, haccepts⟩) | (hold | ⟨c, hc, hrefuses⟩)
  · exact .inl (.inl hold)
  · cases c with
    | accept server client ret =>
        obtain ⟨rfl, -⟩ := haccepts
        exact .inr (accept_calls hc)
    | _ => exact haccepts.elim
  · exact .inl (.inr hold)
  · cases c with
    | accept server client ret =>
        obtain ⟨rfl, -⟩ := hrefuses
        exact .inr (accept_calls hc)
    | _ => exact hrefuses.elim

/-- What its own callbacks make of a client. -/
theorem inStage_own (hs : Clients s) (henabled : Enabled s e) {stage : ClientStage}
    (hclient : Client s.trace h) (hin : InStage s h stage) (hown : e.client = some h) :
    ∃ stage', InStage (next s e) h stage' := by
  cases e with
  | readCb a nread buf =>
      obtain rfl : a = h := Option.some.inj hown
      obtain rfl := hin.reading.mp henabled.2.1
      exact ⟨_, hin.readCb (hs.lt hclient) nread buf⟩
  | readErrorCb a nread =>
      obtain rfl : a = h := Option.some.inj hown
      obtain rfl := hin.reading.mp henabled.2.1
      exact ⟨.closing, hin.readErrorCb henabled.2.2⟩
  | closeCb a =>
      obtain rfl : a = h := Option.some.inj hown
      have hclosing : stage.stage = .closing := (hin.loop_stage hs.replayed).symm.trans henabled.2
      cases stage with
      | closing => exact ⟨.released, hin.closeCb⟩
      | reading | released => cases hclosing
  | _ => cases hown

theorem server_next (hs : Clients s) (hold : Client s.trace h) : h ≠ (next s e).worker.server := by
  cases e with
  | enter ret => exact Nat.ne_of_lt (hs.lt hold)
  | _ => exact hs.server h hold

protected theorem next (hs : Clients s) (henabled : Enabled s e) : Clients (next s e) where
  wellFormed := hs.wellFormed.next henabled
  replayed := replayed_next hs.replayed e
  bounded := by
    intro a hle c hc habout
    rw [trace_next] at hc
    rcases List.mem_append.mp hc with hold | hnew
    · exact hs.bounded a (Nat.le_trans (fresh_le_next s e) hle) c hold habout
    · rcases hs.about_calls henabled hnew habout with ⟨rfl, hlt⟩ | ⟨hlt, -⟩
      · exact Nat.not_le_of_lt hlt hle
      · exact Nat.not_le_of_lt hlt (Nat.le_trans (fresh_le_next s e) hle)
  server := by
    intro a hclient
    rcases client_next hclient with hold | ⟨server, ret, rfl, rfl⟩
    · exact hs.server_next hold
    · exact Nat.ne_of_gt hs.wellFormed.server_lt
  inStage := by
    intro a hclient
    rcases client_next hclient with hold | ⟨server, ret, rfl, rfl⟩
    · obtain ⟨stage, hin⟩ := hs.inStage a hold
      by_cases hown : e.client = some a
      · exact hs.inStage_own henabled hold hin hown
      · exact ⟨stage, hin.of_not_about hs.replayed (hs.not_about_calls henabled hold hown)⟩
    · exact ⟨_, hs.inStage_new server ret⟩

theorem kept (hs : Clients s) : ∀ h, Client s.trace h → ClientKept s h := by
  intro h hclient
  obtain ⟨stage, hin⟩ := hs.inStage h hclient
  exact hin.clientKept hs.wellFormed

theorem leavesOthers (hs : Clients s) (henabled : Enabled s e) : LeavesOthers s e := by
  intro h hclient hother
  obtain ⟨stage, hin⟩ := hs.inStage h hclient
  have hnext := hin.of_not_about hs.replayed (hs.not_about_calls henabled hclient hother)
  exact ⟨by rw [hnext.reading_iff, hin.reading_iff], by rw [hnext.closing_iff, hin.closing_iff],
    by rw [hnext.released_iff, hin.released_iff]⟩

end Clients

/-- The handles that are initialised are bound as servers, or passed to
`uv_accept` as clients. -/
def Assigned (s : State) : Prop :=
  ∀ h, .tcpInit h ∈ s.trace → (∃ peer, .bind h peer ∈ s.trace) ∨ Client s.trace h

section Assigned

variable {s : State} {e : Event} {h : Addr}

theorem initialised_calls (hinit : .tcpInit h ∈ calls s e) :
    (∃ peer, .bind h peer ∈ calls s e) ∨ Client (calls s e) h := by
  cases e with
  | enter ret =>
      obtain rfl : h = s.fresh := by simpa [calls] using hinit
      exact .inl ⟨⟨s.worker.host, s.worker.port⟩, by simp [calls]⟩
  | connectionCb server status ret =>
      by_cases hstatus : status = 0
      · by_cases hret : ret = 0
        · obtain rfl : h = s.fresh := by simpa [calls, hstatus, hret] using hinit
          exact .inr (.inl (by simp [calls, hstatus, hret]))
        · obtain rfl : h = s.fresh := by simpa [calls, hstatus, hret] using hinit
          exact .inr (.inr (by simp [calls, hstatus, hret]))
      · simp [calls, hstatus] at hinit
  | readCb a nread buf => by_cases hnread : nread < 0 <;> simp [calls, hnread] at hinit
  | _ => simp [calls] at hinit

protected theorem Assigned.next (hs : Assigned s) (e : Event) : Assigned (next s e) := by
  intro h hinit
  rw [trace_next, List.mem_append] at hinit
  simp only [trace_next, List.mem_append, Client, occurs_append]
  rcases hinit with hold | hnew
  · rcases hs h hold with ⟨peer, hbind⟩ | hclient
    · exact .inl ⟨peer, .inl hbind⟩
    · exact .inr (hclient.imp .inl .inl)
  · rcases initialised_calls hnew with ⟨peer, hbind⟩ | hclient
    · exact .inl ⟨peer, .inr hbind⟩
    · exact .inr (hclient.imp .inr .inr)

end Assigned

/-- Every handle of a run that is not bound as a server is a client. -/
theorem client_of_initialised {host : String} {port : Int} {callback : Addr} {events : List Event}
    (hrun : machine.Runs (initial host port callback) events) :
    Assigned (machine.after (initial host port callback) events) :=
  Machine.invariant (m := machine) (fun _ e hs _ => hs.next e)
    (fun _ hinit => absurd hinit List.not_mem_nil) hrun

/-- In every state of every run each client is in one stage and is closed and
released as it should be, and no step changes the stage of a client that it is
not a callback of. -/
theorem clients_independent {host : String} {port : Int} {callback : Addr} {events : List Event}
    (hrun : machine.Runs (initial host port callback) events) :
    machine.Always (fun s => ∀ h, Client s.trace h → ClientKept s h)
        (initial host port callback) events ∧
      machine.Along LeavesOthers (initial host port callback) events := by
  have hinit := clients_initial host port callback
  have hstep (s : State) (e : Event) (hs : Clients s) (henabled : machine.enabled s e)
      (_ : True) : Clients (machine.next s e) := hs.next henabled.2
  have hok : machine.Along (fun _ _ => True) (initial host port callback) events :=
    hrun.imp fun _ _ _ => trivial
  exact ⟨Machine.always_along hstep (fun _ hs => hs.kept) hinit hrun hok,
    Machine.along_of_invariant hstep (fun _ _ hs henabled _ => hs.leavesOthers henabled.2)
      hinit hrun hok⟩

/-- Three clients: one is read from until it ends, one is refused, and one is
still read from when the worker is stopped. -/
def threeClientsRun : List Event :=
  [.start, .enter 0, .test, .connectionCb 1 0 0, .connectionCb 1 0 (-11),
   .readCb 2 0 ⟨List.replicate 8 0, by decide⟩, .connectionCb 1 0 0, .closeCb 3,
   .readCb 2 (-4095) ⟨List.replicate 8 0, by decide⟩, .runEnd, .test,
   .readCb 5 8 ⟨List.replicate 8 0, by decide⟩, .closeCb 2, .runEnd, .stopFlag, .test, .exit]

theorem clients_independent_threeClientsRun :
    machine.Always (fun s => ∀ h, Client s.trace h → ClientKept s h)
        (initial "10.0.0.1" 3001 0) threeClientsRun ∧
      machine.Along LeavesOthers (initial "10.0.0.1" 3001 0) threeClientsRun :=
  clients_independent (by decide)

end L1Comm.Receiver
