import L1Comm.Uv.Loop

/-!
The history of one object: the entries of a trace that initialise it as a
handle, close it, deliver its close callback or release it. Its stage and how
often each of these has happened depend on nothing else of the trace, so a step
that adds no such entry leaves the object alone.
-/

namespace L1Comm.Uv

variable {Peer Buf : Type*}

namespace Call

/-- The entry is one of the history of the object. -/
@[simp] def concerns (a : Addr) : Call Peer Buf → Bool
  | .tcpInit h | .timerInit h | .closeCb h => h = a
  | .close p | .free p => p = some a
  | _ => false

end Call

def history (a : Addr) (trace : List (Call Peer Buf)) : List (Call Peer Buf) :=
  trace.filter (Call.concerns a)

section History

variable (a : Addr) (first second : List (Call Peer Buf)) (c : Call Peer Buf)

@[simp] theorem history_nil : history a ([] : List (Call Peer Buf)) = [] := rfl

@[simp] theorem history_append :
    history a (first ++ second) = history a first ++ history a second :=
  List.filter_append first second

@[simp] theorem history_cons : history a (c :: first) =
    if c.concerns a then c :: history a first else history a first :=
  List.filter_cons

theorem mem_history : c ∈ history a first ↔ c ∈ first ∧ c.concerns a = true :=
  List.mem_filter

theorem count_history [DecidableEq Peer] [DecidableEq Buf] (hc : c.concerns a = true) :
    (history a first).count c = first.count c :=
  List.count_filter hc

variable {a first}

theorem history_eq_nil (h : ∀ c ∈ first, c.concerns a = false) : history a first = [] := by
  refine List.filter_eq_nil_iff.mpr fun c hc => ?_
  rw [h c hc]
  exact Bool.false_ne_true

end History

/-- How often the memory has been released. -/
def frees [DecidableEq Peer] [DecidableEq Buf] (trace : List (Call Peer Buf)) (a : Addr) : Nat :=
  trace.count (.free (some a))

section Frees

variable [DecidableEq Peer] [DecidableEq Buf] (first second : List (Call Peer Buf)) (a : Addr)

@[simp] theorem frees_nil : frees ([] : List (Call Peer Buf)) a = 0 := rfl

@[simp] theorem frees_append : frees (first ++ second) a = frees first a + frees second a :=
  List.count_append

@[simp] theorem frees_cons (c : Call Peer Buf) :
    frees (c :: first) a = frees first a + if c = .free (some a) then 1 else 0 := by
  simp [frees, List.count_cons]

theorem frees_history : frees (history a first) a = frees first a :=
  count_history a first _ (by simp)

end Frees

/-- An entry of this kind is in the trace. -/
def Occurs (P : Call Peer Buf → Prop) (trace : List (Call Peer Buf)) : Prop := ∃ c ∈ trace, P c

section Occurs

variable (P : Call Peer Buf → Prop) (first second : List (Call Peer Buf)) (c : Call Peer Buf)

@[simp] theorem occurs_nil : ¬ Occurs P [] := by simp [Occurs]

@[simp] theorem occurs_cons : Occurs P (c :: first) ↔ P c ∨ Occurs P first := by
  simp [Occurs]

@[simp] theorem occurs_append : Occurs P (first ++ second) ↔ Occurs P first ∨ Occurs P second := by
  simp only [Occurs, List.mem_append, or_and_right, exists_or]

end Occurs

namespace Loop

variable (l : Loop Peer) {a : Addr}

theorem stage_of_not_concerns {c : Call Peer Buf} (hc : c.concerns a = false) :
    (l.after c).stage a = l.stage a := by
  cases c <;> simp_all

/-- What has been a handle never is plain memory again. -/
theorem not_plain_after {trace : List (Call Peer Buf)} (h : l.stage a ≠ .uninitialised) :
    (protocol.after l trace).stage a ≠ .uninitialised := by
  induction trace generalizing l with
  | nil => exact h
  | cons c rest ih =>
      refine ih (l.after c) ?_
      rw [after_stage]
      cases c <;> simp only [stageAfter] <;> try split
      all_goals first | exact h | simp

theorem stage_congr {l l' : Loop Peer} (h : l.stage a = l'.stage a) (c : Call Peer Buf) :
    (l.after c).stage a = (l'.after c).stage a := by
  cases c <;> simp [h]

end Loop

/-- The stage of an object is decided by its history. -/
theorem stage_history {l l' : Loop Peer} {a : Addr} (h : l.stage a = l'.stage a)
    (trace : List (Call Peer Buf)) :
    (protocol.after l (history a trace)).stage a = (protocol.after l' trace).stage a := by
  induction trace generalizing l l' with
  | nil => exact h
  | cons c rest ih =>
      rw [history_cons]
      cases hc : c.concerns a with
      | true => exact ih (Loop.stage_congr h c)
      | false => exact ih (h.trans (l'.stage_of_not_concerns hc).symm)

namespace Runtime

variable {rt rt' : Runtime Peer Buf}

theorem Replayed.stage (h : rt.Replayed) (a : Addr) :
    rt.loop.stage a = (protocol.after {} (history a rt.trace)).stage a := by
  rw [h]
  exact (stage_history rfl rt.trace).symm

/-- The loop goes on from where it was through the entries added. -/
theorem Replayed.loop_eq (h : rt.Replayed) (h' : rt'.Replayed) {added : List (Call Peer Buf)}
    (htrace : rt'.trace = rt.trace ++ added) : rt'.loop = protocol.after rt.loop added := by
  rw [h', htrace, Machine.after_append, ← h]

/-- A machine that reads the trace goes on with the entries added, from the
loop as they find it. -/
theorem Replayed.runs_append {m : Machine (Loop Peer) (Call Peer Buf)} (hm : m.next = Loop.after)
    (h : rt.Replayed) (added : List (Call Peer Buf)) :
    m.Runs {} (rt.trace ++ added) ↔ m.Runs {} rt.trace ∧ m.Runs rt.loop added := by
  have hloop : rt.loop = m.after {} rt.trace := by
    rw [Machine.after, hm]
    exact h
  rw [hloop]
  exact Machine.along_append rt.trace added

end Runtime

end L1Comm.Uv
