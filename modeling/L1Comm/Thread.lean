import L1Comm.Machine.Progress
import L1Comm.Machine.Simulation
import L1Comm.Worker

/-!
The thread of a worker and its caller, without what the thread works on. A
thread tests a flag, and goes on with a turn of its loop or comes to its end;
the caller creates it, sets the flag, tries to close the loop and waits for it.

Both workers refine this machine, up to the step in which their process aborts.
It says of them that a thread which is told to stop takes a bounded number of
further steps, whatever happens in callbacks.
-/

namespace L1Comm

/-- The calls of `Start` and `Stop`. -/
inductive Control where
  | start | flag | close | join
  deriving DecidableEq

namespace Caller

/-- The caller makes these calls one after the other. -/
@[simp] def Admits : Caller → Control → Prop
  | .stopped, .start | .started, .flag | .flagged, .close | .joining, .join => True
  | _, _ => False

theorem admits_start {caller : Caller} : caller.Admits .start ↔ caller = .stopped := by
  cases caller <;> simp

theorem admits_flag {caller : Caller} : caller.Admits .flag ↔ caller = .started := by
  cases caller <;> simp

theorem admits_close {caller : Caller} : caller.Admits .close ↔ caller = .flagged := by
  cases caller <;> simp

theorem admits_join {caller : Caller} : caller.Admits .join ↔ caller = .joining := by
  cases caller <;> simp

@[simp] def next : Control → Caller
  | .start => .started
  | .flag => .flagged
  | .close => .joining
  | .join => .stopped

def machine : Machine Caller Control where
  enabled := Admits
  next _ c := next c

/-- Calls that are still to come until `Stop` returns. -/
@[simp] def remaining : Caller → Nat
  | .stopped => 0
  | .joining => 1
  | .flagged => 2
  | .started => 3

end Caller

/-- Where a thread is: not created, created, at the test of its loop, at a step
of a turn with this many behind it, past the loop, returned. -/
inductive Thread.Pc where
  | idle | start | head
  | turn (left : Nat)
  | exit | done
  deriving DecidableEq

@[simp] def Thread.Pc.advance : Pc → Pc
  | .turn (left + 1) => .turn left
  | _ => .head

structure Thread where
  stop : Bool := false
  caller : Caller := .stopped
  pc : Thread.Pc := .idle

namespace Thread

inductive Event where
  | control (c : Control)
  | enter
  | test
  | advance
  | exit
  deriving DecidableEq

@[simp] def Enabled (t : Thread) : Event → Prop
  | .control .start => t.pc = .idle
  | .control .join => t.caller = .joining ∧ t.pc = .done
  | .control c => t.caller.Admits c
  | .enter => t.pc = .start
  | .test => t.pc = .head
  | .advance => ∃ left, t.pc = .turn left
  | .exit => t.pc = .exit

/-- A step of a thread whose turns begin with this many steps to follow. -/
@[simp] def next (rest : Nat) (t : Thread) : Event → Thread
  | .control .start => {stop := false, caller := .started, pc := .start}
  | .control .flag => {t with stop := true, caller := .flagged}
  | .control .close => {t with caller := .joining}
  | .control .join => {t with caller := .stopped, pc := .idle}
  | .enter => {t with pc := .head}
  | .test => {t with pc := if t.stop = false then .turn rest else .exit}
  | .advance => {t with pc := t.pc.advance}
  | .exit => {t with pc := .done}

def machine (rest : Nat) : Machine Thread Event where
  enabled := Enabled
  next := next rest

@[simp] theorem machine_enabled (rest : Nat) (t : Thread) (e : Event) :
    (machine rest).enabled t e = t.Enabled e := rfl

@[simp] theorem machine_next (rest : Nat) (t : Thread) (e : Event) :
    (machine rest).next t e = next rest t e := rfl

/-- What the thread and its caller know of each other. -/
structure Handshake (rest : Nat) (t : Thread) : Prop where
  idle : t.pc = .idle ↔ t.caller = .stopped
  flagged : t.caller = .flagged ∨ t.caller = .joining → t.stop = true
  started : t.caller = .started → t.stop = false
  /-- The thread leaves its loop only when it is told to. -/
  leaves : t.pc = .exit ∨ t.pc = .done → t.stop = true
  turn : ∀ left, t.pc = .turn left → left ≤ rest

variable {rest : Nat} {t : Thread} {e : Event}

theorem handshake_initial : Handshake rest {} := by
  constructor <;> simp

protected theorem Handshake.next (h : Handshake rest t) (henabled : t.Enabled e) :
    Handshake rest (next rest t e) := by
  obtain ⟨hidle, hflagged, hstarted, hleaves, hturn⟩ := h
  cases e with
  | control c =>
      cases c with
      | start => constructor <;> simp
      | flag =>
          have hcaller : t.caller = .started := Caller.admits_flag.mp henabled
          constructor <;> simp_all
      | close =>
          have hcaller : t.caller = .flagged := Caller.admits_close.mp henabled
          constructor <;> simp_all
      | join =>
          obtain ⟨hcaller, hdone⟩ := henabled
          constructor <;> simp_all
  | enter =>
      have hpc : t.pc = .start := henabled
      constructor <;> simp_all
  | test =>
      have hpc : t.pc = .head := henabled
      cases hstop : t.stop <;> constructor <;> simp_all
  | advance =>
      obtain ⟨left, hpc⟩ := henabled
      have hle := hturn left hpc
      cases left with
      | zero => constructor <;> simp_all
      | succ left =>
          constructor <;> simp_all
          omega
  | exit =>
      have hpc : t.pc = .exit := henabled
      constructor <;> simp_all

/-- The thread has been created, and has not been told to stop. -/
structure Going (t : Thread) : Prop where
  stop : t.stop = false
  place : t.pc = .start ∨ t.pc = .head ∨ ∃ left, t.pc = .turn left

theorem Handshake.going (h : Handshake rest t) (hcaller : t.caller = .started) : t.Going := by
  have hstop := h.started hcaller
  refine ⟨hstop, ?_⟩
  cases hpc : t.pc with
  | idle => exact absurd (hcaller.symm.trans (h.idle.mp hpc)) (by decide)
  | start => exact .inl rfl
  | head => exact .inr (.inl rfl)
  | turn left => exact .inr (.inr ⟨left, rfl⟩)
  | exit => exact absurd (hstop.symm.trans (h.leaves (.inl hpc))) (by decide)
  | done => exact absurd (hstop.symm.trans (h.leaves (.inr hpc))) (by decide)

protected theorem Going.next (h : t.Going) (henabled : t.Enabled e) (hflag : e ≠ .control .flag) :
    (next rest t e).Going := by
  cases e with
  | control c =>
      cases c with
      | start => exact ⟨rfl, .inl rfl⟩
      | flag => exact absurd rfl hflag
      | close => exact ⟨h.stop, h.place⟩
      | join => simpa [henabled.2] using h.place
  | enter => exact ⟨h.stop, .inr (.inl rfl)⟩
  | test => exact ⟨h.stop, .inr (.inr ⟨rest, by simp [h.stop]⟩)⟩
  | advance =>
      obtain ⟨left, hpc⟩ := henabled
      refine ⟨h.stop, .inr ?_⟩
      cases left with
      | zero => exact .inl (by simp [hpc])
      | succ left => exact .inr ⟨left, by simp [hpc]⟩
  | exit =>
      have hpc : t.pc = .exit := henabled
      simpa [hpc] using h.place

/-- Steps of the thread that are still to come once it is told to stop. -/
@[simp] def Pc.remaining : Pc → Nat
  | .idle | .done => 0
  | .exit => 1
  | .head => 2
  | .start => 3
  | .turn left => left + 3

/-- Steps of the thread and of its caller until `Stop` returns. -/
def remaining (t : Thread) : Nat := t.pc.remaining + t.caller.remaining

/-- Inside `Stop`, after the store of the flag, or no thread to stop. -/
def Stopping (t : Thread) : Prop := t.caller ≠ .started

/-- Each step brings the return of `Stop` nearer by one. -/
theorem remaining_next (h : Handshake rest t) (hstopping : t.Stopping) (henabled : t.Enabled e)
    (hstart : e ≠ .control .start) :
    (next rest t e).Stopping ∧ (next rest t e).remaining + 1 = t.remaining := by
  obtain ⟨hidle, hflagged, -, -, -⟩ := h
  have hstop (hne : t.pc ≠ .idle) : t.stop = true := by
    apply hflagged
    cases hcaller : t.caller <;> simp_all [Stopping]
  cases e with
  | control c =>
      cases c with
      | start => exact absurd rfl hstart
      | flag => exact absurd (Caller.admits_flag.mp henabled) hstopping
      | close =>
          have hcaller : t.caller = .flagged := Caller.admits_close.mp henabled
          simp_all [Stopping, remaining]
      | join =>
          obtain ⟨hcaller, hdone⟩ := henabled
          simp_all [Stopping, remaining]
  | enter =>
      have hpc : t.pc = .start := henabled
      exact ⟨hstopping, by simp [remaining, hpc]; omega⟩
  | test =>
      have hpc : t.pc = .head := henabled
      have htold := hstop (by simp [hpc])
      exact ⟨hstopping, by simp [remaining, hpc, htold]; omega⟩
  | advance =>
      obtain ⟨left, hpc⟩ := henabled
      refine ⟨hstopping, ?_⟩
      cases left <;> simp [remaining, hpc] <;> omega
  | exit =>
      have hpc : t.pc = .exit := henabled
      exact ⟨hstopping, by simp [remaining, hpc]; omega⟩

theorem pc_remaining_le (h : Handshake rest t) : t.pc.remaining ≤ rest + 3 := by
  cases hpc : t.pc with
  | turn left => simpa using h.turn left hpc
  | idle | start | head | exit | done => simp

theorem remaining_le (h : Handshake rest t) (hstopping : t.Stopping) : t.remaining ≤ rest + 5 := by
  have hcaller : t.caller.remaining ≤ 2 := by
    cases hcaller : t.caller with
    | started => exact absurd hcaller hstopping
    | stopped | flagged | joining => simp
  have hpc := pc_remaining_le h
  rw [remaining]
  omega

/-! ## Programs -/

/-- A program that still makes these calls, and stops the thread in the end. -/
structure Session (rest : Nat) (t : Thread) (calls : List Control) : Prop where
  handshake : Handshake rest t
  admitted : Caller.machine.Runs t.caller calls
  ends : Caller.machine.after t.caller calls = .stopped

/-- Inside `Stop`. -/
def Stops (t : Thread) : Prop := t.caller = .flagged ∨ t.caller = .joining

instance (t : Thread) : Decidable t.Stops := inferInstanceAs (Decidable (_ ∨ _))

theorem Handshake.stops_of_exit (h : Handshake rest t) (hexit : t.pc = .exit) : t.Stops := by
  have htold := h.leaves (.inl hexit)
  cases hcaller : t.caller with
  | stopped => cases hexit.symm.trans (h.idle.mpr hcaller)
  | started => cases htold.symm.trans (h.started hcaller)
  | flagged => exact .inl hcaller
  | joining => exact .inr hcaller

/-- Steps of the thread inside this `Stop` and those to come, at most. -/
def slack (rest : Nat) (t : Thread) (calls : List Control) : Nat :=
  (if t.caller = .started then 0 else t.pc.remaining) + (rest + 3) * calls.count .flag

variable {c : Control} {calls : List Control}

theorem session_nil : Session rest {} [] := ⟨handshake_initial, trivial, rfl⟩

theorem session_whole : Session rest {} [.start, .flag, .close, .join] :=
  ⟨handshake_initial, ⟨trivial, trivial, trivial, trivial, trivial⟩, rfl⟩

theorem Session.call (h : Session rest t (c :: calls)) (henabled : t.Enabled (.control c)) :
    Session rest (Thread.next rest t (.control c)) calls ∧
      slack rest (Thread.next rest t (.control c)) calls ≤ slack rest t (c :: calls) := by
  have hcaller : (Thread.next rest t (.control c)).caller = Caller.next c := by cases c <;> rfl
  refine ⟨⟨h.handshake.next henabled, ?_, ?_⟩, ?_⟩
  · rw [hcaller]
    exact h.admitted.2
  · rw [hcaller]
    exact h.ends
  · have hle := pc_remaining_le h.handshake
    cases c with
    | start => simp [slack]
    | flag =>
        have hstarted : t.caller = .started := Caller.admits_flag.mp henabled
        simp only [slack, Thread.next, hstarted, List.count_cons_self]
        simp only [reduceCtorEq, if_false, if_true]
        rw [Nat.mul_add]
        omega
    | close =>
        have hflagged : t.caller = .flagged := Caller.admits_close.mp henabled
        simp [slack, hflagged]
    | join => simp [slack]

/-- What the thread does by itself. -/
theorem Session.step (h : Session rest t calls) (henabled : t.Enabled e)
    (hown : ∀ c, e ≠ .control c) :
    Session rest (Thread.next rest t e) calls ∧
      slack rest (Thread.next rest t e) calls + (if t.Stops then 1 else 0) ≤
        slack rest t calls := by
  have hcaller : (Thread.next rest t e).caller = t.caller := by
    cases e with
    | control c => exact absurd rfl (hown c)
    | enter | test | advance | exit => rfl
  refine ⟨⟨h.handshake.next henabled, hcaller ▸ h.admitted, hcaller ▸ h.ends⟩, ?_⟩
  by_cases hstarted : t.caller = .started
  · have hstops : ¬ t.Stops := by simp [Stops, hstarted]
    rw [slack, slack, hcaller, if_pos hstarted, if_pos hstarted, if_neg hstops, Nat.add_zero]
  · have hnext := (remaining_next h.handshake hstarted henabled (hown .start)).2
    rw [remaining, remaining, hcaller] at hnext
    rw [slack, slack, hcaller, if_neg hstarted, if_neg hstarted]
    split_ifs <;> omega

/-! ## Workers -/

section Workers

variable {σ ε : Type*} (m : Machine σ ε) (thread : σ → Thread) (label : σ → ε → Option Event)

/-- A worker is more than its thread, but what else happens in it does not
change the thread. -/
def Drives (rest : Nat) : Prop :=
  ∀ s e, m.enabled s e → m.Matches (machine rest) thread label s e

/-- Up to the next `Start` a run has no more steps of the thread and its caller. -/
def StopTakes (bound : Nat) (s : σ) : Prop :=
  ∀ events, m.Runs s events →
    m.Along (fun s e => label s e ≠ some (.control .start)) s events →
      m.countAlong (fun s e => (label s e).isSome) s events ≤ bound

variable {m thread label}

namespace Drives

/-- What the steps of a thread keep, the steps of the worker keep. -/
theorem keeps (h : Drives m thread label rest) {I : Thread → Prop} {s : σ} {e : ε}
    (hstep : ∀ f, label s e = some f → (thread s).Enabled f → I (next rest (thread s) f))
    (hs : I (thread s)) (henabled : m.enabled s e) : I (thread (m.next s e)) := by
  have hmatches := h s e henabled
  cases hlabel : label s e with
  | none =>
      simp only [Machine.Matches, hlabel] at hmatches
      rw [hmatches]
      exact hs
  | some f =>
      simp only [Machine.Matches, hlabel] at hmatches
      rw [hmatches.2]
      exact hstep f hlabel hmatches.1

theorem handshake (h : Drives m thread label rest) {s : σ} {e : ε}
    (hs : Handshake rest (thread s)) (henabled : m.enabled s e) :
    Handshake rest (thread (m.next s e)) :=
  h.keeps (fun _ _ hadmitted => hs.next hadmitted) hs henabled

theorem going (h : Drives m thread label rest) {s : σ} {e : ε} (hs : (thread s).Going)
    (henabled : m.enabled s e) (hflag : label s e ≠ some (.control .flag)) :
    (thread (m.next s e)).Going :=
  h.keeps (fun _ hlabel hadmitted => hs.next hadmitted fun hf => hflag (hf ▸ hlabel)) hs henabled

/-- Steps of the thread and its caller count down, others do not. -/
theorem countdown (h : Drives m thread label rest) {s : σ} {e : ε}
    (hs : Handshake rest (thread s) ∧ (thread s).Stopping) (henabled : m.enabled s e)
    (hstart : label s e ≠ some (.control .start)) :
    (Handshake rest (thread (m.next s e)) ∧ (thread (m.next s e)).Stopping) ∧
      (thread (m.next s e)).remaining + (if (label s e).isSome then 1 else 0) =
        (thread s).remaining := by
  have hnext := h.handshake hs.1 henabled
  have hmatches := h s e henabled
  cases hlabel : label s e with
  | none =>
      simp only [Machine.Matches, hlabel] at hmatches
      rw [hmatches]
      exact ⟨hs, rfl⟩
  | some f =>
      simp only [Machine.Matches, hlabel] at hmatches
      obtain ⟨hadmitted, heq⟩ := hmatches
      have hother : f ≠ .control .start := fun hf => hstart (hf ▸ hlabel)
      obtain ⟨hstopping, hcount⟩ := remaining_next hs.1 hs.2 hadmitted hother
      rw [heq] at hnext ⊢
      exact ⟨⟨hnext, hstopping⟩, hcount⟩

/-- Inside `Stop` a run takes as many steps of the thread and its caller as it
brings the return of `Stop` nearer. -/
theorem stopTakes (h : Drives m thread label rest) {s : σ} (hs : Handshake rest (thread s))
    (hstopping : (thread s).Stopping) : StopTakes m label (rest + 5) s := by
  intro events hrun hother
  have hcount := Machine.countAlong_eq (fun s e => (label s e).isSome)
    (fun s => (thread s).remaining)
    (I := fun s => Handshake rest (thread s) ∧ (thread s).Stopping)
    (fun _ _ => h.countdown) ⟨hs, hstopping⟩ hrun hother
  have hle := remaining_le hs hstopping
  omega

/-! Of a worker in a program. -/

variable {c : Control} {calls : List Control}

theorem call (h : Drives m thread label rest) {s : σ} {e : ε}
    (hs : Session rest (thread s) (c :: calls)) (henabled : m.enabled s e)
    (hlabel : label s e = some (.control c)) :
    Session rest (thread (m.next s e)) calls ∧
      slack rest (thread (m.next s e)) calls ≤ slack rest (thread s) (c :: calls) := by
  have hmatches := h s e henabled
  simp only [Machine.Matches, hlabel] at hmatches
  rw [hmatches.2]
  exact hs.call hmatches.1

theorem step (h : Drives m thread label rest) {s : σ} {e : ε}
    (hs : Session rest (thread s) calls) (henabled : m.enabled s e)
    (hown : ∀ c, label s e ≠ some (.control c)) :
    Session rest (thread (m.next s e)) calls ∧
      slack rest (thread (m.next s e)) calls +
        (if (thread s).Stops ∧ (label s e).isSome then 1 else 0) ≤ slack rest (thread s) calls := by
  have hmatches := h s e henabled
  cases hlabel : label s e with
  | none =>
      simp only [Machine.Matches, hlabel] at hmatches
      rw [hmatches]
      exact ⟨hs, by simp⟩
  | some f =>
      simp only [Machine.Matches, hlabel] at hmatches
      rw [hmatches.2]
      simpa using hs.step hmatches.1 fun c hf => hown c (hf ▸ hlabel)

end Drives

end Workers

end Thread

end L1Comm
