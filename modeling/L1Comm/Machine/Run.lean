import Mathlib.Data.List.Forall2
import Mathlib.Data.List.Infix

/-!
Machines that take one event at a time, and their runs. A machine says which
events a state admits and which state an event leads to; a run is a list of
events each of which is admitted where it is taken. A protocol monitor is the
same thing read the other way: its events are the calls of a trace and its
guard is what the protocol allows, so a trace obeys the protocol exactly when
it is a run of the monitor.

Everything here is about arbitrary states and events. The rules used by the
models are the invariant rule, in a form that admits a condition on the steps
of the run, and the two exactness rules at the end, which turn "a step that
breaks the condition breaks the property at once" into an equivalence over
whole runs.
-/

namespace L1Comm

structure Machine (σ ε : Type*) where
  enabled : σ → ε → Prop
  next : σ → ε → σ

namespace Machine

variable {σ ε : Type*} (m : Machine σ ε)

/-- The state a list of events leads to. -/
def after (s : σ) (events : List ε) : σ := events.foldl m.next s

/-- Every event of the list meets `ok` in the state it is taken in. -/
def Along (ok : σ → ε → Prop) : σ → List ε → Prop
  | _, [] => True
  | s, e :: events => ok s e ∧ Along ok (m.next s e) events

/-- Every event of the list is admitted in the state it is taken in. -/
abbrev Runs : σ → List ε → Prop := m.Along m.enabled

/-- The property holds in every state visited on the way, both ends included. -/
def Always (P : σ → Prop) (s : σ) (events : List ε) : Prop :=
  ∀ taken, taken <+: events → P (m.after s taken)

/-- The list ends in the first state from `s` on that has the property. -/
def EndsFirst (P : σ → Prop) (s : σ) (events : List ε) : Prop :=
  P (m.after s events) ∧ ∀ taken, taken <+: events → taken ≠ events → ¬ P (m.after s taken)

instance decidableAlong (ok : σ → ε → Prop) [∀ s e, Decidable (ok s e)] :
    ∀ s events, Decidable (m.Along ok s events)
  | _, [] => .isTrue trivial
  | s, e :: events =>
      have := decidableAlong ok (m.next s e) events
      inferInstanceAs (Decidable (ok s e ∧ m.Along ok (m.next s e) events))

variable {m}
variable {ok ok' : σ → ε → Prop} {s : σ}

@[simp] theorem after_nil : m.after s [] = s := rfl

@[simp] theorem after_cons (e : ε) (events : List ε) :
    m.after s (e :: events) = m.after (m.next s e) events := rfl

@[simp] theorem after_append (first second : List ε) :
    m.after s (first ++ second) = m.after (m.after s first) second :=
  List.foldl_append

@[simp] theorem along_nil : m.Along ok s [] := trivial

@[simp] theorem along_cons (e : ε) (events : List ε) :
    m.Along ok s (e :: events) ↔ ok s e ∧ m.Along ok (m.next s e) events :=
  Iff.rfl

@[simp] theorem along_append (first second : List ε) :
    m.Along ok s (first ++ second) ↔
      m.Along ok s first ∧ m.Along ok (m.after s first) second := by
  induction first generalizing s with
  | nil => simp
  | cons e rest ih => simp [ih, and_assoc]

theorem Along.of_prefix {taken events : List ε} (h : m.Along ok s events)
    (htaken : taken <+: events) : m.Along ok s taken := by
  obtain ⟨rest, rfl⟩ := htaken
  exact ((along_append taken rest).mp h).1

theorem Along.imp {events : List ε} (himp : ∀ s e, ok s e → ok' s e)
    (h : m.Along ok s events) : m.Along ok' s events := by
  induction events generalizing s with
  | nil => trivial
  | cons e rest ih => exact ⟨himp s e h.1, ih h.2⟩

/-- A condition on the events alone. -/
theorem along_of_forall_mem {ok : ε → Prop} {events : List ε} (h : ∀ e ∈ events, ok e) :
    m.Along (fun _ => ok) s events := by
  induction events generalizing s with
  | nil => trivial
  | cons e rest ih =>
      exact ⟨h e List.mem_cons_self, ih fun e he => h e (List.mem_cons_of_mem _ he)⟩

theorem always_cons {P : σ → Prop} (e : ε) (events : List ε) :
    m.Always P s (e :: events) ↔ P s ∧ m.Always P (m.next s e) events := by
  constructor
  · intro h
    refine ⟨h [] List.nil_prefix, fun taken htaken => ?_⟩
    exact h (e :: taken) (List.cons_prefix_cons.mpr ⟨rfl, htaken⟩)
  · rintro ⟨hfirst, hrest⟩ taken htaken
    rcases List.prefix_cons_iff.mp htaken with rfl | ⟨rest, rfl, hprefix⟩
    · exact hfirst
    · exact hrest rest hprefix

theorem endsFirst_singleton {P : σ → Prop} (e : ε) :
    m.EndsFirst P s [e] ↔ P (m.next s e) ∧ ¬ P s := by
  refine and_congr_right fun _ => ⟨fun h => h [] List.nil_prefix (by simp), ?_⟩
  intro hnot taken htaken hne
  rcases List.prefix_cons_iff.mp htaken with rfl | ⟨rest, rfl, hrest⟩
  · exact hnot
  · exact absurd (by rw [List.prefix_nil.mp hrest]) hne

theorem Always.last {P : σ → Prop} {events : List ε} (h : m.Always P s events) :
    P (m.after s events) :=
  h events (List.prefix_refl events)

section Invariants

variable {I P : σ → Prop} {Q : σ → ε → Prop} {events : List ε}

/-- The invariant rule: a property kept by every admitted step that meets
`ok` holds at the end of every run whose steps all meet `ok`. -/
theorem invariant_along
    (hstep : ∀ s e, I s → m.enabled s e → ok s e → I (m.next s e))
    (hinit : I s) (hrun : m.Runs s events) (hok : m.Along ok s events) :
    I (m.after s events) := by
  induction events generalizing s with
  | nil => exact hinit
  | cons e rest ih =>
      exact ih (hstep s e hinit hrun.1 hok.1) hrun.2 hok.2

theorem invariant (hstep : ∀ s e, I s → m.enabled s e → I (m.next s e))
    (hinit : I s) (hrun : m.Runs s events) : I (m.after s events) :=
  invariant_along (fun s e hinv henabled (_ : m.enabled s e) => hstep s e hinv henabled)
    hinit hrun hrun

section Until

variable {stuck : σ → Prop} (hstuck : ∀ s e, stuck s → ¬ m.enabled s e)
  (hstep : ∀ s e, I s → m.enabled s e → stuck (m.next s e) ∨ I (m.next s e))

include hstuck hstep

/-- The invariant rule for machines that get stuck: nothing needs to be known of
a state that admits no step. -/
theorem invariant_until (hinit : I s) (hrun : m.Runs s events) :
    stuck (m.after s events) ∨ I (m.after s events) :=
  invariant (I := fun s => stuck s ∨ I s)
    (fun s e hs henabled => hstep s e (hs.resolve_left fun h => hstuck s e h henabled) henabled)
    (.inr hinit) hrun

/-- So what the invariant says of a step holds of all steps that are taken. -/
theorem along_until (hevent : ∀ s e, I s → m.enabled s e → Q s e) (hinit : I s)
    (hrun : m.Runs s events) : m.Along Q s events := by
  induction events generalizing s with
  | nil => trivial
  | cons e rest ih =>
      refine ⟨hevent s e hinit hrun.1, ?_⟩
      rcases hstep s e hinit hrun.1 with hend | hnext
      · cases rest with
        | nil => trivial
        | cons f rest => exact absurd hrun.2.1 (hstuck _ _ hend)
      · exact ih hnext hrun.2

omit hstep in
/-- A run that gets stuck does so in its last step. -/
theorem last_of_stuck (hfree : ¬ stuck s) (hrun : m.Runs s events)
    (hend : stuck (m.after s events)) :
    ∃ taken e, events = taken ++ [e] ∧ ¬ stuck (m.after s taken) := by
  rcases List.eq_nil_or_concat' events with rfl | ⟨taken, e, rfl⟩
  · exact absurd hend hfree
  · have hlast := ((along_append taken [e]).mp hrun).2.1
    exact ⟨taken, e, rfl, fun hearlier => hstuck _ _ hearlier hlast⟩

end Until

/-- An invariant that implies a property makes it hold in every state on the
way, since every prefix of a run is a run. -/
theorem always_along
    (hstep : ∀ s e, I s → m.enabled s e → ok s e → I (m.next s e))
    (hinv : ∀ s, I s → P s)
    (hinit : I s) (hrun : m.Runs s events) (hok : m.Along ok s events) :
    m.Always P s events := by
  intro taken htaken
  exact hinv _ (invariant_along hstep hinit (hrun.of_prefix htaken)
    (hok.of_prefix htaken))

/-- What the invariant says of a single step holds of every step of the run. -/
theorem along_of_invariant
    (hstep : ∀ s e, I s → m.enabled s e → ok s e → I (m.next s e))
    (hevent : ∀ s e, I s → m.enabled s e → ok s e → Q s e)
    (hinit : I s) (hrun : m.Runs s events) (hok : m.Along ok s events) :
    m.Along Q s events := by
  induction events generalizing s with
  | nil => trivial
  | cons e rest ih =>
      exact ⟨hevent s e hinit hrun.1 hok.1,
        ih (hstep s e hinit hrun.1 hok.1) hrun.2 hok.2⟩

/-- What an invariant of the states without `P` says of the first state with
`P` that a run from such a state reaches. -/
theorem ends_first
    (hstep : ∀ s e, I s → ¬ P s → m.enabled s e → I (m.next s e))
    (hinit : I s) (hrun : m.Runs s events) (hend : m.EndsFirst P s events) :
    I (m.after s events) := by
  induction events generalizing s with
  | nil => exact hinit
  | cons e rest ih =>
      have hnot : ¬ P s := hend.2 [] (List.nil_prefix) (List.cons_ne_nil e rest).symm
      refine ih (hstep s e hinit hnot hrun.1) hrun.2 ⟨hend.1, ?_⟩
      intro taken htaken hne
      exact hend.2 (e :: taken) (List.cons_prefix_cons.mpr ⟨rfl, htaken⟩)
        (fun heq => hne (List.cons.inj heq).2)

/-- The lockstep rule: steps on related events from related states carry a
condition on one run over to the other. -/
theorem along_of_lockstep {R : σ → σ → Prop} {S : ε → ε → Prop} {t : σ} {others : List ε}
    (hstep : ∀ s t e f, R s t → S e f → ok s e → ok' t f ∧ R (m.next s e) (m.next t f))
    (hstates : R s t) (hevents : List.Forall₂ S events others) (hok : m.Along ok s events) :
    m.Along ok' t others := by
  induction hevents generalizing s t with
  | nil => trivial
  | cons hevent _ ih =>
      obtain ⟨hnow, hnext⟩ := hstep _ _ _ _ hstates hevent hok.1
      exact ⟨hnow, ih hnext hok.2⟩

/-- Exactness for state properties: when steps that meet `ok` keep the
invariant and a step that does not meet it lands in a state without the
property, the property holds throughout a run exactly when all its steps
meet `ok`. -/
theorem always_iff_along
    (hstep : ∀ s e, I s → m.enabled s e → ok s e → I (m.next s e))
    (hinv : ∀ s, I s → P s)
    (hfault : ∀ s e, I s → m.enabled s e → ¬ ok s e → ¬ P (m.next s e))
    (hinit : I s) (hrun : m.Runs s events) :
    m.Always P s events ↔ m.Along ok s events := by
  refine ⟨fun halways => ?_, always_along hstep hinv hinit hrun⟩
  induction events generalizing s with
  | nil => trivial
  | cons e rest ih =>
      have hfirst : ok s e := by
        by_contra hbad
        exact hfault s e hinit hrun.1 hbad (halways [e] (by simp))
      exact ⟨hfirst, ih (hstep s e hinit hrun.1 hfirst) hrun.2
        ((always_cons e rest).mp halways).2⟩

/-- Exactness for properties of the history, which once lost stay lost: the
end of the run speaks for all of it. -/
theorem last_iff_along
    (hmono : ∀ s e, m.enabled s e → P (m.next s e) → P s)
    (hstep : ∀ s e, I s → m.enabled s e → ok s e → I (m.next s e))
    (hinv : ∀ s, I s → P s)
    (hfault : ∀ s e, I s → m.enabled s e → ¬ ok s e → ¬ P (m.next s e))
    (hinit : I s) (hrun : m.Runs s events) :
    P (m.after s events) ↔ m.Along ok s events := by
  refine ⟨fun hlast => ?_, fun hok => hinv _ (invariant_along hstep hinit hrun hok)⟩
  have hback : ∀ (t : σ) (rest : List ε), m.Runs t rest → P (m.after t rest) → P t := by
    intro t rest hrest hp
    induction rest generalizing t with
    | nil => exact hp
    | cons e rest ih => exact hmono t e hrest.1 (ih (m.next t e) hrest.2 hp)
  refine (always_iff_along hstep hinv hfault hinit hrun).mp ?_
  rintro taken ⟨rest, rfl⟩
  rw [after_append] at hlast
  exact hback _ rest ((along_append taken rest).mp hrun).2 hlast

/-- Exactness for step properties. -/
theorem along_iff_along
    (hstep : ∀ s e, I s → m.enabled s e → ok s e → I (m.next s e))
    (hevent : ∀ s e, I s → m.enabled s e → ok s e → Q s e)
    (hfault : ∀ s e, I s → m.enabled s e → Q s e → ok s e)
    (hinit : I s) (hrun : m.Runs s events) :
    m.Along Q s events ↔ m.Along ok s events := by
  refine ⟨fun hq => ?_, along_of_invariant hstep hevent hinit hrun⟩
  induction events generalizing s with
  | nil => trivial
  | cons e rest ih =>
      have hfirst := hfault s e hinit hrun.1 hq.1
      exact ⟨hfirst, ih (hstep s e hinit hrun.1 hfirst) hrun.2 hq.2⟩

end Invariants

end Machine

end L1Comm
