import L1Comm.Uv.History
import Mathlib.Data.List.Induction

/-!
The handle queue of a loop whose trace keeps to what the allocator and the
library themselves guarantee: memory that is initialised as a handle never was
one, and a close callback is one of a handle that is closing. Then the queue
holds the handles that have been initialised and have not had their close
callback, however the program treats them otherwise. A handle that is open or
closing is therefore in the queue.
-/

namespace L1Comm.Uv

variable {Peer Buf : Type*}

/-- The entry initialises the handle. -/
@[simp] def Initialises (h : Addr) : Call Peer Buf → Prop
  | .tcpInit a | .timerInit a => a = h
  | _ => False

/-- The handles that have been initialised in the loop. -/
def Created (trace : List (Call Peer Buf)) (h : Addr) : Prop := Occurs (Initialises h) trace

/-- What the allocator and the library guarantee of an entry. -/
@[simp] def Loop.Guaranteed (l : Loop Peer) : Call Peer Buf → Prop
  | .tcpInit h | .timerInit h => l.stage h = .uninitialised
  | .closeCb h => l.stage h = .closing
  | _ => True

/-- The traces that keep to it. -/
def guarantees : Machine (Loop Peer) (Call Peer Buf) where
  enabled := Loop.Guaranteed
  next := Loop.after

@[simp] theorem guarantees_enabled (l : Loop Peer) (c : Call Peer Buf) :
    guarantees.enabled l c = l.Guaranteed c := rfl

@[simp] theorem guarantees_next (l : Loop Peer) (c : Call Peer Buf) :
    guarantees.next l c = l.after c := rfl

/-- What a trace makes of the queue and of the stages. -/
structure Accounted (trace : List (Call Peer Buf)) (l : Loop Peer) : Prop where
  nodup : l.queue.Nodup
  queue : ∀ h, h ∈ l.queue ↔ Created trace h ∧ .closeCb h ∉ trace
  plain : ∀ h, l.stage h = .uninitialised ↔ ¬ Created trace h
  gone : ∀ h, .closeCb h ∈ trace → l.stage h = .closed ∨ l.stage h = .released

namespace Accounted

variable {trace : List (Call Peer Buf)} {l : Loop Peer}

theorem init (ha : Accounted trace l) {c : Call Peer Buf} {a : Addr}
    (hplain : l.stage a = .uninitialised) (hc : c = .tcpInit a ∨ c = .timerInit a) :
    Accounted (trace ++ [c]) (l.after c) := by
  have hnew : a ∉ l.queue := fun hmem => (ha.plain a).mp hplain ((ha.queue a).mp hmem).1
  have hgone : .closeCb a ∉ trace := by
    intro hmem
    rcases ha.gone a hmem with hstage | hstage <;>
      · rw [hplain] at hstage
        cases hstage
  have hcreated (h : Addr) : Created (trace ++ [c]) h ↔ Created trace h ∨ a = h := by
    rcases hc with rfl | rfl <;> simp [Created]
  have hcloseCb (h : Addr) : .closeCb h ∈ trace ++ [c] ↔ .closeCb h ∈ trace := by
    rcases hc with rfl | rfl <;> simp
  have hqueue : (l.after c).queue = l.queue ++ [a] := by
    rcases hc with rfl | rfl <;> rfl
  have hstage (h : Addr) : (l.after c).stage h = if a = h then .opened else l.stage h := by
    rcases hc with rfl | rfl <;> rfl
  constructor
  · rw [hqueue]
    refine List.nodup_append.mpr ⟨ha.nodup, List.pairwise_singleton _ a, ?_⟩
    intro b hb b' hb'
    rw [List.mem_singleton.mp hb']
    exact fun hba => hnew (hba ▸ hb)
  · intro h
    rw [hqueue, hcreated, hcloseCb, List.mem_append, List.mem_singleton, ha.queue]
    constructor
    · rintro (⟨hold, hnot⟩ | rfl)
      · exact ⟨.inl hold, hnot⟩
      · exact ⟨.inr rfl, hgone⟩
    · rintro ⟨hold | rfl, hnot⟩
      · exact .inl ⟨hold, hnot⟩
      · exact .inr rfl
  · intro h
    rw [hstage, hcreated]
    by_cases hah : a = h
    · simp [hah]
    · simp [hah, ha.plain h]
  · intro h hmem
    rw [hcloseCb] at hmem
    have hne : a ≠ h := by
      rintro rfl
      exact hgone hmem
    rw [hstage, if_neg hne]
    exact ha.gone h hmem

theorem closeCb (ha : Accounted trace l) {a : Addr} (hclosing : l.stage a = .closing) :
    Accounted (trace ++ [.closeCb a]) (l.after (.closeCb a : Call Peer Buf)) := by
  have hcreated (h : Addr) : Created (trace ++ [.closeCb a]) h ↔ Created trace h := by
    simp [Created]
  constructor
  · exact ha.nodup.erase a
  · intro h
    rw [hcreated, Loop.after_queue, Loop.queueAfter, ha.nodup.mem_erase_iff, ha.queue]
    simp only [List.mem_append, List.mem_singleton, Call.closeCb.injEq, not_or]
    tauto
  · intro h
    rw [hcreated, ← ha.plain h]
    by_cases hah : a = h
    · subst hah
      simp [hclosing]
    · simp [hah]
  · intro h hmem
    by_cases hah : a = h
    · simp [hah]
    · have hold : .closeCb h ∈ trace := by simpa [Ne.symm hah] using hmem
      simpa [hah] using ha.gone h hold

/-- Every other entry leaves the queue alone, and of the stages of handles
that have been initialised none goes back. -/
theorem other (ha : Accounted trace l) {c : Call Peer Buf} (hinit : ∀ h, ¬ Initialises h c)
    (hcloseCb : ∀ h, c ≠ .closeCb h) : Accounted (trace ++ [c]) (l.after c) := by
  have hcreated (h : Addr) : Created (trace ++ [c]) h ↔ Created trace h := by
    rw [Created, occurs_append, or_iff_left]
    · rfl
    · rintro ⟨d, hd, hinit'⟩
      rw [List.mem_singleton.mp hd] at hinit'
      exact hinit h hinit'
  have hmem (h : Addr) : .closeCb h ∈ trace ++ [c] ↔ .closeCb h ∈ trace := by
    simp [Ne.symm (hcloseCb h)]
  have hqueue : (l.after c).queue = l.queue := by
    cases c with
    | tcpInit a | timerInit a => exact absurd rfl (hinit a)
    | closeCb a => exact absurd rfl (hcloseCb a)
    | _ => rfl
  have hstage (h : Addr) : (l.after c).stage h = l.stage h ∨
      l.stage h = .opened ∧ (l.after c).stage h = .closing ∨
      l.stage h ≠ .uninitialised ∧ (l.after c).stage h = .released := by
    cases c with
    | tcpInit a | timerInit a => exact absurd rfl (hinit a)
    | closeCb a => exact absurd rfl (hcloseCb a)
    | close p =>
        by_cases hp : p = some h ∧ l.stage h = .opened
        · simp [hp]
        · exact .inl (if_neg hp)
    | free p =>
        by_cases hp : p = some h ∧ l.stage h ≠ .uninitialised
        · exact .inr (.inr ⟨hp.2, if_pos hp⟩)
        · exact .inl (if_neg hp)
    | _ => exact .inl rfl
  constructor
  · rw [hqueue]
    exact ha.nodup
  · intro h
    rw [hqueue, hcreated, hmem, ha.queue]
  · intro h
    rw [hcreated, ← ha.plain h]
    rcases hstage h with hsame | ⟨hopen, hclosing⟩ | ⟨hold, hreleased⟩
    · rw [hsame]
    · rw [hopen, hclosing]
      exact iff_of_false Stage.noConfusion Stage.noConfusion
    · rw [hreleased]
      exact iff_of_false Stage.noConfusion hold
  · intro h hgone
    rw [hmem] at hgone
    rcases hstage h with hsame | ⟨hopen, -⟩ | ⟨-, hreleased⟩
    · rw [hsame]
      exact ha.gone h hgone
    · rcases ha.gone h hgone with hstage | hstage <;>
        · rw [hopen] at hstage
          cases hstage
    · exact .inr hreleased

/-- A handle that is open or closing is in the queue. -/
theorem mem_queue (ha : Accounted trace l) {h : Addr}
    (hstage : l.stage h = .opened ∨ l.stage h = .closing) : h ∈ l.queue := by
  rw [ha.queue]
  constructor
  · by_contra hnot
    have hplain := (ha.plain h).mpr hnot
    rw [hplain] at hstage
    rcases hstage with hopen | hclosing
    · cases hopen
    · cases hclosing
  · intro hmem
    rcases ha.gone h hmem with hgone | hgone <;> rw [hgone] at hstage <;>
      rcases hstage with hopen | hclosing
    all_goals contradiction

end Accounted

theorem accounted {trace : List (Call Peer Buf)} (hrun : guarantees.Runs {} trace) :
    Accounted trace (protocol.after {} trace) := by
  induction trace using List.reverseRecOn with
  | nil => constructor <;> simp [Created]
  | append_singleton trace c ih =>
      obtain ⟨htrace, hlast, -⟩ := (Machine.along_append trace [c]).mp hrun
      have ha := ih htrace
      rw [Machine.after_append]
      cases c with
      | tcpInit a => exact ha.init hlast (.inl rfl)
      | timerInit a => exact ha.init hlast (.inr rfl)
      | closeCb a => exact ha.closeCb hlast
      | _ => exact ha.other (by simp) (by simp)

theorem Runtime.Replayed.accounted {rt : Runtime Peer Buf} (h : rt.Replayed)
    (hrun : guarantees.Runs {} rt.trace) : Accounted rt.trace rt.loop := by
  rw [h]
  exact Uv.accounted hrun

end L1Comm.Uv
