import L1Comm.Framing.Records
import L1Comm.Sender.Heartbeats
import L1Comm.Sender.Actions
import L1Comm.Sender.Sockets

/-!
The heartbeats as L1 sees them: the byte stream of one connection, of which a
part has arrived, cut into responses of 32 bytes. `onTimer` writes to whatever
`conn_struct.socket` is by then, and the numbers are those of one generator for
the whole process, so each connection carries a block of the sequence, the
blocks follow each other in the order of the connections, and a number is
missing from the stream exactly where `uv_write` has refused it.
-/

namespace L1Comm.Sender

open Uv

/-- The buffer of a write on the socket, and what `uv_write` has returned. -/
@[simp] def writtenTo (h : Addr) : Call → Option (Payload × Int)
  | .write _ stream buf ret => if stream = some h then some (buf, ret) else none
  | _ => none

/-- The heartbeats handed to `uv_write` for the socket, in order. -/
def handed (trace : List Call) (h : Addr) : List (Payload × Int) := trace.filterMap (writtenTo h)

/-- The byte stream of the connection: what `uv_write` has accepted. -/
def wire (trace : List Call) (h : Addr) : List WORD :=
  Framing.cells L1Response.size (((handed trace h).filter (·.2 = 0)).map Prod.fst)

/-- The number that L1 reads in a response. -/
def number (response : Payload) : Nat := (L1Response.ofBytes response).dbw0.toNat

/-- What a step hands over for the socket. -/
def newHanded (s : State) (h : Addr) : Event → List (Payload × Int)
  | .timerCb _ heap ret =>
      if s.conn.socket = some h then [((heartbeat heap s.num).toBytes, ret)] else []
  | _ => []

theorem handed_next (s : State) (e : Event) (h : Addr) :
    handed (next s e).trace h = handed s.trace h ++ newHanded s h e := by
  have hwritten (c : Call) (hc : ¬ isSocketCall c) : writtenTo h c = none := by
    cases c <;> simp_all
  rw [handed, filterMap_trace_next s e hwritten, ← handed]
  apply congrArg (handed s.trace h ++ ·)
  cases e with
  | body ret =>
      by_cases hstatus : s.conn.status = .disconnect
      · cases hsocket : s.worker.socket <;>
          simp [socketCalls, newHanded, hstatus, hsocket, List.filterMap_cons]
      · simp [socketCalls, newHanded, hstatus]
  | timerCb t heap ret =>
      by_cases hsocket : s.conn.socket = some h <;>
        simp [socketCalls, newHanded, hsocket, heartbeat]
  | exit =>
      simp only [socketCalls]
      split_ifs <;> rfl
  | _ => rfl

/-- The heartbeats go to the latest socket, so they are in the order of the
sockets. -/
structure InOrder (s : State) : Prop where
  latest : s.conn.socket = (sockets s.trace).getLast?
  sockets_lt : ∀ h ∈ sockets s.trace, h < s.fresh
  nodup : (sockets s.trace).Nodup
  /-- Before the first socket no timer can run. -/
  idle : s.conn.socket = none → s.loop.connects = [] ∧ ∀ t, s.loop.active t ≠ true
  unused : ∀ h, h ∉ sockets s.trace → handed s.trace h = []
  inOrder : heartbeats s.trace = (sockets s.trace).flatMap fun h => (handed s.trace h).map Prod.fst

theorem inOrder_initial (host : String) (port : Int) : InOrder (initial host port) := by
  constructor <;> simp [initial, sockets, handed, heartbeats]

section Steps

variable {s : State} {e : Event}

theorem newSockets_eq (s : State) (e : Event) :
    newSockets s e = if writesSocket s.conn.status e then [s.fresh] else [] := by
  cases e with
  | body ret =>
      by_cases hstatus : s.conn.status = .disconnect <;> simp [newSockets, writesSocket, hstatus]
  | _ => rfl

theorem map_newHanded (s : State) (e : Event) (h : Addr) :
    (newHanded s h e).map Prod.fst = if s.conn.socket = some h then sent s e else [] := by
  cases e with
  | timerCb t heap ret =>
      by_cases hsocket : s.conn.socket = some h <;> simp [newHanded, sent, hsocket]
  | _ => simp [newHanded, sent]

namespace InOrder

/-- A turn of the loop that makes a socket hands over nothing. -/
theorem reconnect (h : InOrder s) (hnew : writesSocket s.conn.status e = true) :
    InOrder (next s e) := by
  have hsockets : sockets (next s e).trace = sockets s.trace ++ [s.fresh] := by
    rw [sockets_next, newSockets_eq, if_pos hnew]
  have hsocket : (next s e).conn.socket = some s.fresh := by rw [socket_next, if_pos hnew]
  have hfresh := fresh_next_of_writesSocket s e hnew
  have hsent : sent s e = [] := by
    cases e with
    | timerCb => simp [writesSocket] at hnew
    | _ => rfl
  have hhanded (a : Addr) : handed (next s e).trace a = handed s.trace a := by
    rw [handed_next]
    cases e with
    | timerCb => simp [writesSocket] at hnew
    | _ => exact List.append_nil _
  have hunused : s.fresh ∉ sockets s.trace := fun hmem =>
    Nat.lt_irrefl _ (h.sockets_lt _ hmem)
  constructor
  · rw [hsocket, hsockets, List.getLast?_concat]
  · intro a ha
    rw [hsockets] at ha
    rw [hfresh]
    rcases List.mem_append.mp ha with hold | hlast
    · exact Nat.lt_succ_of_lt (h.sockets_lt a hold)
    · rw [List.mem_singleton.mp hlast]
      exact Nat.lt_succ_self _
  · rw [hsockets]
    exact List.nodup_append.mpr ⟨h.nodup, List.nodup_singleton _, by grind⟩
  · intro hnone
    rw [hsocket] at hnone
    exact absurd hnone (Option.some_ne_none _)
  · intro a ha
    rw [hsockets] at ha
    rw [hhanded]
    exact h.unused a fun hold => ha (List.mem_append_left _ hold)
  · rw [heartbeats_next, hsent, List.append_nil, hsockets, List.flatMap_append, h.inOrder]
    simp [hhanded, h.unused _ hunused]

/-- A timer that fires writes to the latest socket, behind all that has been
handed over before. -/
theorem heartbeats_kept (h : InOrder s) (henabled : Enabled s e) :
    heartbeats (next s e).trace =
      (sockets s.trace).flatMap fun a => (handed (next s e).trace a).map Prod.fst := by
  rw [heartbeats_next, h.inOrder]
  simp only [handed_next, List.map_append, map_newHanded]
  cases hsocket : s.conn.socket with
  | none =>
      have hsent : sent s e = [] := by
        cases e with
        | timerCb t heap ret => exact absurd henabled.2 ((h.idle hsocket).2 t)
        | _ => rfl
      simp [hsent]
  | some a =>
      obtain ⟨before, hlast⟩ := List.getLast?_eq_some_iff.mp (h.latest.symm.trans hsocket)
      have hother : ∀ b ∈ before, a ≠ b := by
        intro b hb
        have hnodup := h.nodup
        rw [hlast] at hnodup
        exact ((List.nodup_append.mp hnodup).2.2 b hb a (List.mem_singleton_self a)).symm
      rw [hlast, List.flatMap_append, List.flatMap_append, List.append_assoc]
      congr 1
      · apply List.flatMap_congr
        intro b hb
        simp [hother b hb]
      · simp

theorem of_kept (h : InOrder s) (henabled : Enabled s e)
    (hkeeps : writesSocket s.conn.status e = false) : InOrder (next s e) := by
  have hsockets : sockets (next s e).trace = sockets s.trace := by
    rw [sockets_next, newSockets_eq, hkeeps]
    exact List.append_nil _
  have hsocket : (next s e).conn.socket = s.conn.socket := by
    rw [socket_next, hkeeps]
    rfl
  constructor
  · rw [hsocket, hsockets, h.latest]
  · intro a ha
    rw [hsockets] at ha
    exact Nat.lt_of_lt_of_le (h.sockets_lt a ha) (fresh_le_next s e)
  · rw [hsockets]
    exact h.nodup
  · intro hnone
    rw [hsocket] at hnone
    obtain ⟨hconnects, hactive⟩ := h.idle hnone
    refine ⟨List.eq_nil_iff_forall_not_mem.mpr fun c hc => ?_, fun t ht => ?_⟩
    · rcases mem_connects_next s e hc with hold | ⟨-, hnew⟩
      · rw [hconnects] at hold
        exact List.not_mem_nil hold
      · rw [hkeeps] at hnew
        exact Bool.false_ne_true hnew
    · rcases active_next s e ht with hold | ⟨-, -, req, a, status, rfl⟩
      · exact hactive t hold
      · have hpending := henabled.2.1
        rw [hconnects] at hpending
        exact List.not_mem_nil hpending
  · intro a ha
    rw [hsockets] at ha
    have hnotLatest : s.conn.socket ≠ some a := fun hcurrent =>
      ha (List.mem_of_getLast? (h.latest.symm.trans hcurrent))
    rw [handed_next, h.unused a ha]
    cases e with
    | timerCb t heap ret => simp [newHanded, hnotLatest]
    | _ => rfl
  · rw [hsockets]
    exact h.heartbeats_kept henabled

protected theorem next (h : InOrder s) (henabled : Enabled s e) : InOrder (next s e) := by
  cases hwrites : writesSocket s.conn.status e with
  | true => exact h.reconnect hwrites
  | false => exact h.of_kept henabled hwrites

end InOrder

end Steps

variable {host : String} {port : Int} {events : List Event}

theorem inOrder_run (hrun : machine.Runs (initial host port) events) :
    InOrder (machine.after (initial host port) events) :=
  Machine.invariant (fun _ _ h henabled => h.next henabled.2) (inOrder_initial host port) hrun

/-- The numbers handed over for one socket go on from those of the sockets
before it. -/
theorem numbers_handed (hrun : machine.Runs (initial host port) events) {before later : List Addr}
    {h : Addr}
    (hsockets : sockets (machine.after (initial host port) events).trace = before ++ h :: later) :
    (handed (machine.after (initial host port) events).trace h).map (number ∘ Prod.fst) =
      (List.range'
        (before.flatMap (handed (machine.after (initial host port) events).trace)).length
        (handed (machine.after (initial host port) events).trace h).length).map (· % 65535) := by
  have hnumbers := numbers_initial host port events
  have horder := (inOrder_run hrun).inOrder
  revert hnumbers horder hsockets
  generalize (machine.after (initial host port) events).trace = trace
  intro hsockets hnumbers horder
  have hmap : (heartbeats trace).map number =
      (List.range (events.countP Event.isTick)).map (· % 65535) := hnumbers
  rw [horder, hsockets, List.map_flatMap, List.flatMap_append, List.flatMap_cons,
    List.range_eq_range', eq_comm, List.map_eq_append_iff] at hmap
  obtain ⟨first, rest, hrange, hfirst, hrest⟩ := hmap
  obtain ⟨k, hk, rfl, rfl⟩ := List.range'_eq_append_iff.mp hrange
  obtain ⟨own, others, hrange', hown, -⟩ := List.map_eq_append_iff.mp hrest
  obtain ⟨k', hk', rfl, -⟩ := List.range'_eq_append_iff.mp hrange'
  have hlength := congrArg List.length hfirst
  have hlength' := congrArg List.length hown
  simp [List.length_flatMap] at hlength hlength'
  rw [← List.map_map, ← hown, hlength', List.length_flatMap, ← hlength]
  simp

/-- What is picked from a numbered list keeps its numbers. -/
theorem map_filter_zipIdx {α β : Type*} {f : α → β} {g : Nat → β} (p : α → Bool) {xs : List α}
    {k : Nat} (h : xs.map f = (List.range' k xs.length).map g) :
    (xs.filter p).map f = ((xs.zipIdx k).filter fun x => p x.1).map fun x => g x.2 := by
  induction xs generalizing k with
  | nil => rfl
  | cons x rest ih =>
      rw [List.length_cons, List.range'_succ, List.map_cons, List.map_cons] at h
      obtain ⟨hfirst, hrest⟩ := List.cons.inj h
      rw [List.zipIdx_cons, List.filter_cons, List.filter_cons]
      split
      · rw [List.map_cons, List.map_cons, hfirst, ih hrest]
      · exact ih hrest

/-- L1 cuts what has arrived on a connection into responses. Their numbers are
those of the heartbeats that `uv_write` has accepted for this connection,
counted from the first heartbeat of the process; when it has refused none they
are consecutive, from the number that follows those of the connections before.
Nothing is handed to `uv_write` but for one of the sockets. -/
theorem connection_numbers (hrun : machine.Runs (initial host port) events)
    {before later : List Addr} {h : Addr}
    (hsockets : sockets (machine.after (initial host port) events).trace = before ++ h :: later)
    {arrived : List WORD}
    (harrived : arrived <+: wire (machine.after (initial host port) events).trace h) :
    let trace := (machine.after (initial host port) events).trace
    let first := (before.flatMap (handed trace)).length
    (Framing.records L1Response.size arrived).map number =
        ((((handed trace h).zipIdx first).filter (·.1.2 = 0)).map (·.2 % 65535)).take
          (arrived.length / L1Response.size) ∧
      ((∀ write ∈ handed trace h, write.2 = 0) →
        (Framing.records L1Response.size arrived).map number =
          (List.range' first (arrived.length / L1Response.size)).map (· % 65535)) ∧
      heartbeats trace = (sockets trace).flatMap fun h => (handed trace h).map Prod.fst := by
  intro trace first
  have hnumbers : (handed trace h).map (number ∘ Prod.fst) =
      (List.range' first (handed trace h).length).map (· % 65535) := numbers_handed hrun hsockets
  have hpicked := map_filter_zipIdx (fun write => decide (write.2 = 0)) hnumbers
  have hrecords : (Framing.records L1Response.size arrived).map number =
      ((((handed trace h).zipIdx first).filter (·.1.2 = 0)).map (·.2 % 65535)).take
        (arrived.length / L1Response.size) := by
    rw [Framing.records_of_prefix L1Response.size harrived, wire,
      Framing.records_cells L1Response.size (by decide), List.map_take, List.map_map]
    exact congrArg (List.take _) hpicked
  refine ⟨hrecords, fun haccepted => ?_, (inOrder_run hrun).inOrder⟩
  have hall : (handed trace h).filter (·.2 = 0) = handed trace h :=
    List.filter_eq_self.mpr fun write hwrite => decide_eq_true (haccepted write hwrite)
  have hlength : arrived.length / L1Response.size ≤ (handed trace h).length := by
    have hle := Nat.div_le_div_right (c := L1Response.size) harrived.length_le
    have hwire : (wire trace h).length = L1Response.size * (handed trace h).length := by
      rw [wire, hall, Framing.length_cells, List.length_map]
    rw [hwire, Nat.mul_div_cancel_left _ (by decide)] at hle
    exact hle
  rw [hrecords]
  have hall' := hpicked
  rw [hall, hnumbers] at hall'
  rw [← hall', ← List.map_take, List.take_range'_of_length_ge hlength]

/-- Three sockets; the first heartbeat for the third one is refused. -/
def gapRun : List Event :=
  [.start, .enter, .test, .body 0, .connectCb 0 1 0, .runEnd,
   .test, .body 0, .timerCb 2 (fun _ => 0) 0, .timerCb 2 (fun _ => 0) 0, .writeCb 4 1 (-32),
   .runEnd,
   .test, .body 0, .writeCb 6 1 (-125), .runEnd,
   .test, .body 0, .connectCb 0 8 0, .timerCb 9 (fun _ => 0) (-32), .timerCb 9 (fun _ => 0) 0,
   .timerCb 9 (fun _ => 0) 0]

/-- On the third connection one response has arrived, and the next in part. -/
theorem connection_numbers_gapRun :
    (Framing.records L1Response.size
        ((wire (machine.after (initial "10.0.0.2" 3011) gapRun).trace 8).take 40)).map number =
      [3] := by
  have hrun : machine.Runs (initial "10.0.0.2" 3011) gapRun := by decide
  have hsockets : sockets (machine.after (initial "10.0.0.2" 3011) gapRun).trace =
      [1, 7] ++ 8 :: [] := by
    decide
  exact (connection_numbers hrun hsockets (List.take_prefix 40 _)).1.trans (by decide)

end L1Comm.Sender
