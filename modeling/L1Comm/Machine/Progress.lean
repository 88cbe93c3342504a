import L1Comm.Machine.Run

/-!
Progress of one part of a machine while the rest of it goes on. Which steps are
those of the part may depend on the state. A measure that each of them lowers
and no other step raises bounds their number in every run.
-/

namespace L1Comm.Machine

variable {σ ε : Type*} (m : Machine σ ε) (own : σ → ε → Bool)

/-- How many of the events are steps of the part. -/
def countAlong : σ → List ε → Nat
  | _, [] => 0
  | s, e :: events => (if own s e then 1 else 0) + countAlong (m.next s e) events

variable {m own} {I : σ → Prop} {ok : σ → ε → Prop} {measure : σ → Nat} {s : σ} {events : List ε}

@[simp] theorem countAlong_nil : m.countAlong own s [] = 0 := rfl

@[simp] theorem countAlong_cons (e : ε) (events : List ε) :
    m.countAlong own s (e :: events) =
      (if own s e then 1 else 0) + m.countAlong own (m.next s e) events := rfl

variable (own measure)

/-- A run takes no more steps of the part than the measure allows. -/
theorem countAlong_le
    (hstep : ∀ s e, I s → m.enabled s e → ok s e →
      I (m.next s e) ∧ measure (m.next s e) + (if own s e then 1 else 0) ≤ measure s)
    (hinit : I s) (hrun : m.Runs s events) (hok : m.Along ok s events) :
    m.countAlong own s events + measure (m.after s events) ≤ measure s := by
  induction events generalizing s with
  | nil => simp
  | cons e rest ih =>
      obtain ⟨hnext, hlower⟩ := hstep s e hinit hrun.1 hok.1
      have hrest := ih hnext hrun.2 hok.2
      rw [countAlong_cons, after_cons]
      omega

/-- And where each step of the part lowers the measure by one, and no other
changes it, the measure says how many steps are left. -/
theorem countAlong_eq
    (hstep : ∀ s e, I s → m.enabled s e → ok s e →
      I (m.next s e) ∧ measure (m.next s e) + (if own s e then 1 else 0) = measure s)
    (hinit : I s) (hrun : m.Runs s events) (hok : m.Along ok s events) :
    m.countAlong own s events + measure (m.after s events) = measure s := by
  induction events generalizing s with
  | nil => simp
  | cons e rest ih =>
      obtain ⟨hnext, hlower⟩ := hstep s e hinit hrun.1 hok.1
      have hrest := ih hnext hrun.2 hok.2
      rw [countAlong_cons, after_cons]
      omega

end L1Comm.Machine
