import L1Comm.Uv.Loop

/-!
Addresses are names. What a call does to a loop it does to the objects that it
mentions, and under other names it does the same to the objects of these names.
Two programs that share a loop without mentioning each other's objects do not
notice each other; and a program that has the loop to itself, with addresses
that are counted differently, sees what it would have seen.
-/

namespace L1Comm.Uv

variable {Peer Buf : Type*}

namespace Call

/-- The addresses that an entry mentions. -/
@[simp] def addresses : Call Peer Buf → List Addr
  | .malloc a | .tcpInit a | .timerInit a | .bind a _ | .listen a _ | .readStart a
  | .timerStart a | .connectionCb a _ | .readCb a _ _ | .readErrorCb a _ | .timerCb a
  | .closeCb a => [a]
  | .free p | .timerStop p | .close p => p.toList
  | .accept server client _ => [server, client]
  | .connect req h _ _ | .connectCb req h _ | .writeCb req h _ => [req, h]
  | .write req stream _ _ => req :: stream.toList
  | .loopClose _ => []

@[simp] def rename (name : Addr → Addr) : Call Peer Buf → Call Peer Buf
  | .malloc a => .malloc (name a)
  | .free p => .free (p.map name)
  | .tcpInit h => .tcpInit (name h)
  | .timerInit h => .timerInit (name h)
  | .bind h peer => .bind (name h) peer
  | .listen h ret => .listen (name h) ret
  | .accept server client ret => .accept (name server) (name client) ret
  | .readStart h => .readStart (name h)
  | .connect req h peer ret => .connect (name req) (name h) peer ret
  | .write req stream buf ret => .write (name req) (stream.map name) buf ret
  | .timerStart h => .timerStart (name h)
  | .timerStop p => .timerStop (p.map name)
  | .close p => .close (p.map name)
  | .loopClose ret => .loopClose ret
  | .connectionCb server status => .connectionCb (name server) status
  | .readCb h nread buf => .readCb (name h) nread buf
  | .readErrorCb h nread => .readErrorCb (name h) nread
  | .connectCb req h status => .connectCb (name req) (name h) status
  | .writeCb req h status => .writeCb (name req) (name h) status
  | .timerCb h => .timerCb (name h)
  | .closeCb h => .closeCb (name h)

end Call

/-- What a loop keeps about one address. -/
structure Cell (Peer : Type*) where
  stage : Stage := .uninitialised
  active : Bool := false
  listening : Bool := false
  reading : Bool := false
  established : Bool := false
  peer : Option Peer := none

namespace Loop

def cell (l : Loop Peer) (a : Addr) : Cell Peer :=
  ⟨l.stage a, l.active a, l.listening a, l.reading a, l.established a, l.peer a⟩

variable {l l' : Loop Peer} {a : Addr} {c : Call Peer Buf} {name : Addr → Addr}

/-- A call does nothing to the objects that it does not mention. -/
theorem cell_after_of_notMem (h : a ∉ c.addresses) : (l.after c).cell a = l.cell a := by
  cases c with
  | free p | timerStop p | close p =>
      have hp : p ≠ some a := by
        rintro rfl
        exact h (List.mem_singleton_self a)
      simp [cell, hp]
  | accept server client ret => rfl
  | connect req b peer ret | connectCb req b status | writeCb req b status =>
      have hb : b ≠ a := by
        rintro rfl
        exact h (by simp)
      simp [cell, hb]
  | write req stream buf ret => rfl
  | loopClose ret => rfl
  | _ =>
      have hb := Ne.symm (List.ne_of_not_mem_cons h)
      simp [cell, hb]

/-- A call under other names, as seen from an address that the names tell apart
from the others. -/
theorem cell_after_rename (hname : ∀ x ∈ c.addresses, name x = name a ↔ x = a)
    (h : l'.cell (name a) = l.cell a) :
    (l'.after (c.rename name)).cell (name a) = (l.after c).cell a := by
  obtain ⟨hstage, hactive, hlistening, hreading, hestablished, hpeer⟩ := Cell.mk.inj h
  cases c with
  | free p | timerStop p | close p =>
      have hp : p.map name = some (name a) ↔ p = some a := by
        cases p with
        | none => simp
        | some b => simpa using hname b (List.mem_singleton_self b)
      simp [cell, hstage, hactive, hlistening, hreading, hestablished, hpeer, hp]
  | connect req b peer ret | connectCb req b status | writeCb req b status =>
      have hb := hname b (by simp)
      simp [cell, hstage, hactive, hlistening, hreading, hestablished, hpeer, hb]
  | accept server client ret => exact h
  | write req stream buf ret => exact h
  | loopClose ret => exact h
  | _ =>
      have hb := hname _ (List.mem_singleton_self _)
      simp [cell, hstage, hactive, hlistening, hreading, hestablished, hpeer, hb]

/-- Whether libuv aborts depends on the handle that is closed. -/
theorem fate_after_rename (hfate : l'.fate = l.fate)
    (hcell : ∀ x ∈ c.addresses, l'.cell (name x) = l.cell x) :
    (l'.after (c.rename name)).fate = (l.after c).fate := by
  cases c with
  | close p =>
      cases p with
      | none => rfl
      | some a =>
          have hstage : l'.stage (name a) = l.stage a :=
            congrArg Cell.stage (hcell a (List.mem_singleton_self a))
          simp [hstage, hfate]
  | loopClose ret => simp [hfate]
  | _ => exact hfate

/-! ## Traces -/

section Traces

variable {calls : List (Call Peer Buf)}

theorem cell_trace_of_notMem (h : ∀ c ∈ calls, a ∉ c.addresses) :
    (protocol.after l calls).cell a = l.cell a := by
  induction calls generalizing l with
  | nil => rfl
  | cons c rest ih =>
      rw [List.forall_mem_cons] at h
      rw [Machine.after_cons, ih h.2, protocol_next, cell_after_of_notMem h.1]

theorem cell_trace_rename
    (hname : ∀ c ∈ calls, ∀ x ∈ c.addresses, name x = name a ↔ x = a)
    (h : l'.cell (name a) = l.cell a) :
    (protocol.after l' (calls.map (Call.rename name))).cell (name a) =
      (protocol.after l calls).cell a := by
  induction calls generalizing l l' with
  | nil => exact h
  | cons c rest ih =>
      rw [List.forall_mem_cons] at hname
      exact ih hname.2 (cell_after_rename hname.1 h)

theorem fate_trace_rename (hfate : l'.fate = l.fate)
    (hname : ∀ c ∈ calls, ∀ x ∈ c.addresses, ∀ d ∈ calls, ∀ y ∈ d.addresses,
      name x = name y ↔ x = y)
    (hcell : ∀ c ∈ calls, ∀ x ∈ c.addresses, l'.cell (name x) = l.cell x) :
    (protocol.after l' (calls.map (Call.rename name))).fate = (protocol.after l calls).fate := by
  induction calls generalizing l l' with
  | nil => exact hfate
  | cons c rest ih =>
      have hfirst : c ∈ c :: rest := List.mem_cons_self
      have hrest {d : Call Peer Buf} (hd : d ∈ rest) : d ∈ c :: rest := List.mem_cons_of_mem c hd
      refine ih (fate_after_rename hfate (hcell c hfirst)) ?_ ?_
      · exact fun d hd x hx d' hd' => hname d (hrest hd) x hx d' (hrest hd')
      · intro d hd x hx
        exact cell_after_rename (fun y hy => hname c hfirst y hy d (hrest hd) x hx)
          (hcell d (hrest hd) x hx)

end Traces

end Loop

end L1Comm.Uv
