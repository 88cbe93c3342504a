import L1Comm.Receiver.Model
import Mathlib.Algebra.Order.SuccPred
import Mathlib.Data.Finset.Basic
import Mathlib.Data.Nat.SuccPred
import Mathlib.Tactic.Common

/-!
What holds in every state of every run of the receiver: only the server of
the live thread listens, a handle is read from only if it is a connection that
was accepted, its `data` member points to the user's function, and bytes have
been delivered on such handles only.
-/

namespace L1Comm.Receiver

open Uv

/-- The bytes a trace entry delivers on the connection. -/
@[simp] def delivered (h : Addr) : Call → List WORD
  | .readCb a nread buf => if a = h then buf.base.take nread.toNat else []
  | _ => []

/-- The byte stream of a connection, as far as it has been delivered. -/
def received (trace : List Call) (h : Addr) : List WORD := trace.flatMap (delivered h)

@[simp] def accepted : Call → Finset Addr
  | .accept _ client ret => if ret = 0 then {client} else ∅
  | _ => ∅

/-- The clients that `uv_accept` has succeeded for. -/
def connections : List Call → Finset Addr
  | [] => ∅
  | c :: rest => accepted c ∪ connections rest

section Traces

variable (first second : List Call) (h : Addr)

@[simp] theorem received_nil : received [] h = [] := rfl

@[simp] theorem received_append :
    received (first ++ second) h = received first h ++ received second h :=
  List.flatMap_append

@[simp] theorem received_cons (c : Call) :
    received (c :: first) h = delivered h c ++ received first h :=
  List.flatMap_cons

@[simp] theorem connections_nil : connections [] = ∅ := rfl

@[simp] theorem connections_cons (c : Call) :
    connections (c :: first) = accepted c ∪ connections first := rfl

@[simp] theorem connections_append :
    connections (first ++ second) = connections first ∪ connections second := by
  induction first with
  | nil => simp
  | cons c rest ih => simp [ih, Finset.union_assoc]

end Traces

/-- The thread is between the creation of its server and the end of
`thread_task`. -/
def Pc.Live (pc : Pc) : Prop := pc = .head ∨ pc = .run ∨ pc = .exit

structure WellFormed (s : State) : Prop where
  server_lt : s.worker.server < s.fresh
  server_data : s.worker.pc.Live → s.data s.worker.server = some s.worker.callback
  listening : ∀ h, s.loop.listening h = true → s.worker.pc.Live ∧ h = s.worker.server
  connections_lt : ∀ h ∈ connections s.trace, h < s.fresh ∧ h ≠ s.worker.server
  reading : ∀ h, s.loop.reading h = true →
    h ∈ connections s.trace ∧ s.data h = some s.worker.callback
  received : ∀ h, h ∉ connections s.trace → received s.trace h = []

theorem wellFormed_initial (host : String) (port : Int) (callback : Addr) :
    WellFormed (initial host port callback) := by
  constructor <;> simp [initial, Pc.Live]

namespace WellFormed

variable {s : State}

/-- Most steps leave the thread's server, the `data` members and the accepted
connections alone, and at most stop what was listening or reading. -/
theorem of_frame (h : WellFormed s) {s' : State}
    (hserver : s'.worker.server = s.worker.server)
    (hcallback : s'.worker.callback = s.worker.callback)
    (hlive : s'.worker.pc.Live ↔ s.worker.pc.Live)
    (hfresh : s.fresh ≤ s'.fresh) (hdata : s'.data = s.data)
    (hlistening : ∀ a, s'.loop.listening a = true → s.loop.listening a = true)
    (hreading : ∀ a, s'.loop.reading a = true → s.loop.reading a = true)
    (hconnections : connections s'.trace = connections s.trace)
    (hreceived : ∀ a, a ∉ connections s.trace →
      Receiver.received s'.trace a = Receiver.received s.trace a) : WellFormed s' := by
  constructor
  · rw [hserver]
    exact Nat.lt_of_lt_of_le h.server_lt hfresh
  · rw [hlive, hdata, hserver, hcallback]
    exact h.server_data
  · intro a ha
    rw [hlive, hserver]
    exact h.listening a (hlistening a ha)
  · intro a ha
    rw [hconnections] at ha
    rw [hserver]
    exact ⟨Nat.lt_of_lt_of_le (h.connections_lt a ha).1 hfresh, (h.connections_lt a ha).2⟩
  · intro a ha
    rw [hconnections, hdata, hcallback]
    exact h.reading a (hreading a ha)
  · intro a ha
    rw [hconnections] at ha
    rw [hreceived a ha]
    exact h.received a ha

/-- The new server is the only socket that listens; no client has its address. -/
theorem enter (h : WellFormed s) (hstart : s.worker.pc = .start) (ret : Int) :
    WellFormed (enter s ret) := by
  have hdead : ¬ s.worker.pc.Live := by simp [Pc.Live, hstart]
  constructor
  · simp [Receiver.enter]
  · simp [Receiver.enter]
  · intro a ha
    by_cases hnew : s.fresh = a
    · exact ⟨.inl rfl, hnew.symm⟩
    · simp [Receiver.enter, hnew] at ha
      exact absurd (h.listening a ha).1 hdead
  · intro a ha
    simp [Receiver.enter] at ha ⊢
    have hlt := (h.connections_lt a ha).1
    exact ⟨Nat.le_of_lt hlt, Nat.ne_of_lt hlt⟩
  · intro a ha
    simp [Receiver.enter] at ha ⊢
    obtain ⟨hmem, hdata⟩ := h.reading a ha
    have hne : a ≠ s.fresh := Nat.ne_of_lt (h.connections_lt a hmem).1
    exact ⟨hmem, by rw [Function.update_of_ne hne]; exact hdata⟩
  · intro a ha
    simp [Receiver.enter] at ha ⊢
    exact h.received a ha

/-- Of a connection that is accepted nothing has been read, and its `data`
member is copied from the server. -/
theorem accept (h : WellFormed s) {server : Addr} (hlistening : s.loop.listening server = true) :
    WellFormed (next s (.connectionCb server 0 0)) := by
  obtain ⟨hlive, hserver⟩ := h.listening server hlistening
  have hserver_ne : s.fresh ≠ s.worker.server := (Nat.ne_of_lt h.server_lt).symm
  constructor
  · simp [next, onConnection]
    exact Nat.le_of_lt h.server_lt
  · simp [next, onConnection]
    intro hlive
    rw [Function.update_of_ne hserver_ne.symm]
    exact h.server_data hlive
  · simpa [next, onConnection] using h.listening
  · intro a ha
    simp [next, onConnection] at ha ⊢
    rcases ha with rfl | hold
    · exact ⟨Nat.le_refl _, hserver_ne⟩
    · exact ⟨Nat.le_of_lt (h.connections_lt a hold).1, (h.connections_lt a hold).2⟩
  · intro a ha
    by_cases hnew : a = s.fresh
    · subst hnew
      simp [next, onConnection, hserver, h.server_data hlive]
    · have hne : s.fresh ≠ a := Ne.symm hnew
      simp [next, onConnection, hne] at ha ⊢
      rw [Function.update_of_ne hnew]
      exact ⟨.inr (h.reading a ha).1, (h.reading a ha).2⟩
  · intro a ha
    simp [next, onConnection] at ha ⊢
    exact h.received a ha.2

/-- A connection that is not accepted is closed again; so is the server when
the callback reports an error. -/
theorem connectionCb (h : WellFormed s) {server : Addr} {status ret : Int}
    (henabled : Enabled s (.connectionCb server status ret)) :
    WellFormed (next s (.connectionCb server status ret)) := by
  by_cases hstatus : status = 0
  · by_cases hret : ret = 0
    · rw [hstatus, hret]
      exact h.accept henabled.2
    · refine h.of_frame rfl rfl Iff.rfl ?_ ?_ ?_ ?_ ?_ ?_
      · simp [next, onConnection, hstatus, hret]
      · simp [next, onConnection, hstatus, hret]
      · intro a ha
        simp [next, onConnection, hstatus, hret] at ha
        exact ha.2
      · intro a ha
        simp [next, onConnection, hstatus, hret] at ha
        exact ha.2
      · simp [next, onConnection, hstatus, hret]
      · intro a _
        simp [next, onConnection, hstatus, hret]
  · refine h.of_frame rfl rfl Iff.rfl ?_ ?_ ?_ ?_ ?_ ?_
    · simp [next, onConnection, hstatus]
    · simp [next, onConnection, hstatus]
    · intro a ha
      simp [next, onConnection, hstatus] at ha
      exact ha.2
    · intro a ha
      simp [next, onConnection, hstatus] at ha
      exact ha.2
    · simp [next, onConnection, hstatus]
    · intro a _
      simp [next, onConnection, hstatus]

theorem readCb (h : WellFormed s) {a : Addr} {nread : Int} {buf : Buffer}
    (henabled : Enabled s (.readCb a nread buf)) :
    WellFormed (next s (.readCb a nread buf)) := by
  have hconnection := (h.reading a henabled.2.1).1
  have hother : ∀ b, b ∉ connections s.trace → a ≠ b :=
    fun b hb hab => hb (hab ▸ hconnection)
  by_cases hnread : nread < 0
  · refine h.of_frame rfl rfl Iff.rfl ?_ ?_ ?_ ?_ ?_ ?_
    · simp [next, allocBuffer, onRead, hnread]
    · simp [next, allocBuffer, onRead, hnread]
    · intro b hb
      simp [next, allocBuffer, onRead, hnread] at hb
      exact hb.2
    · intro b hb
      simp [next, allocBuffer, onRead, hnread] at hb
      exact hb.2
    · simp [next, allocBuffer, onRead, hnread]
    · intro b hb
      simp [next, allocBuffer, onRead, hnread, hother b hb]
  · refine h.of_frame rfl rfl Iff.rfl ?_ ?_ ?_ ?_ ?_ ?_
    · simp [next, allocBuffer, onRead, hnread]
    · simp [next, allocBuffer, onRead, hnread]
    · simp [next, allocBuffer, onRead, hnread]
    · simp [next, allocBuffer, onRead, hnread]
    · simp [next, allocBuffer, onRead, hnread]
    · intro b hb
      simp [next, allocBuffer, onRead, hnread, hother b hb]

theorem exit (h : WellFormed s) : WellFormed (exit s) := by
  constructor
  · exact h.server_lt
  · simp [Receiver.exit, Pc.Live]
  · intro a ha
    simp [Receiver.exit] at ha
    exact absurd (h.listening a ha.2).2.symm ha.1
  · simpa [Receiver.exit] using h.connections_lt
  · intro a ha
    simp [Receiver.exit] at ha ⊢
    exact h.reading a ha.2
  · simpa [Receiver.exit] using h.received

/-- A step of the thread that leaves the process alone. -/
theorem of_worker (h : WellFormed s) (w : Worker) (hserver : w.server = s.worker.server)
    (hcallback : w.callback = s.worker.callback) (hlive : w.pc.Live ↔ s.worker.pc.Live) :
    WellFormed {s with worker := w} :=
  h.of_frame hserver hcallback hlive le_rfl rfl (fun _ ha => ha) (fun _ ha => ha) rfl
    (fun _ _ => rfl)

protected theorem next (h : WellFormed s) {e : Event} (henabled : Enabled s e) :
    WellFormed (next s e) := by
  cases e with
  | start =>
      have hidle : s.worker.pc = .idle := henabled
      exact h.of_worker _ rfl rfl (by simp [Pc.Live, hidle])
  | enter ret => exact h.enter henabled ret
  | test =>
      have hhead : s.worker.pc = .head := henabled
      refine h.of_worker _ rfl rfl ?_
      simp only [Pc.Live, hhead]
      split <;> simp
  | connectionCb server status ret => exact h.connectionCb henabled
  | readCb a nread buf => exact h.readCb henabled
  | readErrorCb a nread =>
      refine h.of_frame rfl rfl Iff.rfl ?_ ?_ ?_ ?_ ?_ ?_
      all_goals simp +contextual [Receiver.next]
  | closeCb a =>
      refine h.of_frame rfl rfl Iff.rfl ?_ ?_ ?_ ?_ ?_ ?_
      all_goals simp [Receiver.next, onClose]
  | runEnd =>
      have hrun : s.worker.pc = .run := henabled
      exact h.of_worker _ rfl rfl (by simp [Pc.Live, hrun])
  | exit => exact h.exit
  | stopFlag => exact h.of_worker _ rfl rfl Iff.rfl
  | stopLoopClose =>
      refine h.of_frame rfl rfl Iff.rfl ?_ ?_ ?_ ?_ ?_ ?_
      all_goals simp [Receiver.next]
  | stopJoin =>
      have hdone : s.worker.pc = .done := henabled.2
      exact h.of_worker _ rfl rfl (by simp [Pc.Live, hdone])

end WellFormed

theorem replayed_onRead {p : Process} (h : p.Replayed) (stream : Addr) (nread : Int)
    (base : Addr) (buf : Buffer) : (onRead p stream nread base buf).Replayed := by
  unfold onRead
  split
  · exact h.call _
  · have hhandled : (handleRequest p stream buf.request).Replayed := by
      rw [handleRequest_toRuntime]
      exact h
    exact hhandled.call _

theorem replayed_onConnection {p : Process} (h : p.Replayed) (server : Addr) (status ret : Int) :
    (onConnection p server status ret).Replayed := by
  unfold onConnection
  split
  · exact h.call _
  · dsimp only
    split
    · exact ((h.malloc.call _).call _).call _
    · exact ((h.malloc.call _).call _).call _

/-- Every step changes the loop through the calls that it adds to the trace. -/
theorem replayed_next {s : State} (h : s.Replayed) (e : Event) : (next s e).Replayed := by
  cases e with
  | enter ret => exact ((h.malloc.call _).call _).call _
  | connectionCb server status ret => exact replayed_onConnection (h.call _) server status ret
  | readCb a nread buf => exact replayed_onRead (h.malloc.call _) a nread _ buf
  | readErrorCb a nread => exact (h.call _).call _
  | closeCb a => exact (h.call _).call _
  | exit => exact h.call _
  | stopLoopClose => exact h.call _
  | start | test | runEnd | stopFlag | stopJoin => exact h

end L1Comm.Receiver
