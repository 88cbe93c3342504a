import L1Comm.Machine.Run

/-!
What a machine can still come to. A state leads to a property if some run from
it, all of whose steps are allowed, ends in a state that has the property. Such
runs are put together from the end: the property holds already, or a step leads
to a state that leads to it, or a property that leads to it is come to first.
And a state does not lead to what excludes something that every step keeps.
-/

namespace L1Comm.Machine

variable {σ ε : Type*} (m : Machine σ ε)

def Leads (ok : σ → ε → Prop) (P : σ → Prop) (s : σ) : Prop :=
  ∃ events, m.Runs s events ∧ m.Along ok s events ∧ P (m.after s events)

variable {m} {ok : σ → ε → Prop} {P Q I : σ → Prop} {s : σ}

namespace Leads

theorem here (h : P s) : m.Leads ok P s := ⟨[], trivial, trivial, h⟩

theorem step {e : ε} (henabled : m.enabled s e) (hok : ok s e) (h : m.Leads ok P (m.next s e)) :
    m.Leads ok P s := by
  obtain ⟨events, hruns, hoks, hend⟩ := h
  exact ⟨e :: events, ⟨henabled, hruns⟩, ⟨hok, hoks⟩, hend⟩

theorem trans (h : m.Leads ok Q s) (hQ : ∀ t, Q t → m.Leads ok P t) : m.Leads ok P s := by
  obtain ⟨first, hruns, hoks, hend⟩ := h
  obtain ⟨second, hruns', hoks', hend'⟩ := hQ _ hend
  refine ⟨first ++ second, ?_, ?_, ?_⟩
  · exact (along_append first second).mpr ⟨hruns, hruns'⟩
  · exact (along_append first second).mpr ⟨hoks, hoks'⟩
  · rw [after_append]
    exact hend'

/-- A run is allowed to do what is admitted. -/
theorem allowed (h : m.Leads ok P s) : m.Leads m.enabled P s := by
  obtain ⟨events, hruns, -, hend⟩ := h
  exact ⟨events, hruns, hruns, hend⟩

/-- What every allowed step keeps is there at the end, too. -/
theorem and_invariant (hstep : ∀ t e, I t → m.enabled t e → ok t e → I (m.next t e))
    (hinit : I s) (h : m.Leads ok P s) : m.Leads ok (fun t => I t ∧ P t) s := by
  obtain ⟨events, hruns, hoks, hend⟩ := h
  exact ⟨events, hruns, hoks, invariant_along hstep hinit hruns hoks, hend⟩

end Leads

theorem not_leads (hstep : ∀ t e, I t → m.enabled t e → ok t e → I (m.next t e))
    (hexcludes : ∀ t, I t → ¬ P t) (hinit : I s) : ¬ m.Leads ok P s := by
  rintro ⟨events, hruns, hoks, hend⟩
  exact hexcludes _ (invariant_along hstep hinit hruns hoks) hend

end L1Comm.Machine
