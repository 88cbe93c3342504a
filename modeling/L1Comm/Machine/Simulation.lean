import L1Comm.Machine.Run

/-!
Refinement between two machines. A step of the concrete machine is labelled
with the abstract event it stands for, if any; it matches the abstract machine
when it does to the abstract state what that event does, and leaves the
abstract state alone when it stands for none. A run whose steps all match is a
run of the abstract machine once the steps without a label are left out, so
what holds of all abstract runs holds of it. In the other direction the
abstract machine has no run too many if each of its events can be realised by
a few concrete ones.
-/

namespace L1Comm.Machine

variable {σ ε τ φ : Type*} (m : Machine σ ε) (n : Machine τ φ) (abs : σ → τ)
variable (label : σ → ε → Option φ)

/-- The abstract events that a list of concrete ones stands for. -/
def image : σ → List ε → List φ
  | _, [] => []
  | s, e :: events => (label s e).toList ++ image (m.next s e) events

/-- The step does to the abstract state what its label says. -/
def Matches (s : σ) (e : ε) : Prop :=
  match label s e with
  | none => abs (m.next s e) = abs s
  | some f => n.enabled (abs s) f ∧ abs (m.next s e) = n.next (abs s) f

variable {m n abs label} {s : σ}

@[simp] theorem image_nil : m.image label s [] = [] := rfl

@[simp] theorem image_cons (e : ε) (events : List ε) :
    m.image label s (e :: events) = (label s e).toList ++ m.image label (m.next s e) events := rfl

@[simp] theorem image_append (first second : List ε) :
    m.image label s (first ++ second) =
      m.image label s first ++ m.image label (m.after s first) second := by
  induction first generalizing s with
  | nil => rfl
  | cons e rest ih =>
      rw [List.cons_append, image_cons, image_cons, ih, List.append_assoc, after_cons]

/-- A run whose steps all match is an abstract run. -/
theorem runs_image {events : List ε} (h : m.Along (m.Matches n abs label) s events) :
    n.Runs (abs s) (m.image label s events) ∧
      n.after (abs s) (m.image label s events) = abs (m.after s events) := by
  induction events generalizing s with
  | nil => exact ⟨trivial, rfl⟩
  | cons e rest ih =>
      obtain ⟨hruns, hafter⟩ := ih h.2
      have hmatches := h.1
      rw [image_cons, after_cons]
      cases hlabel : label s e with
      | none =>
          simp only [Matches, hlabel] at hmatches
          rw [hmatches] at hruns hafter
          exact ⟨hruns, hafter⟩
      | some f =>
          simp only [Matches, hlabel] at hmatches
          obtain ⟨henabled, hnext⟩ := hmatches
          rw [hnext] at hruns hafter
          exact ⟨⟨henabled, hruns⟩, hafter⟩

/-- If each abstract event can be realised from every state in which it is
possible, each abstract run can. -/
theorem runs_realised {R : σ → Prop} {ok : σ → ε → Prop}
    (hstep : ∀ s f, R s → n.enabled (abs s) f → ∃ events, m.Runs s events ∧
      m.Along ok s events ∧ m.image label s events = [f] ∧ R (m.after s events) ∧
      abs (m.after s events) = n.next (abs s) f)
    (hinit : R s) {trace : List φ} (hrun : n.Runs (abs s) trace) :
    ∃ events, m.Runs s events ∧ m.Along ok s events ∧ m.image label s events = trace := by
  induction trace generalizing s with
  | nil => exact ⟨[], trivial, trivial, rfl⟩
  | cons f rest ih =>
      obtain ⟨first, hruns, hok, himage, hR, habs⟩ := hstep s f hinit hrun.1
      have hrest := hrun.2
      rw [← habs] at hrest
      obtain ⟨second, hruns', hok', himage'⟩ := ih hR hrest
      refine ⟨first ++ second, ?_, ?_, ?_⟩
      · exact (along_append first second).mpr ⟨hruns, hruns'⟩
      · exact (along_append first second).mpr ⟨hok, hok'⟩
      · rw [image_append, himage, himage']
        rfl

end L1Comm.Machine
