import L1Comm.Machine.Run

/-!
A machine with a ledger beside its state: each step enters what it hands out.
The ledger decides nothing, so the runs are those of the machine itself; it is
what a property of the state and of everything handed out so far speaks about.
-/

namespace L1Comm.Machine

variable {σ ε α : Type*}

def recording (m : Machine σ ε) (out : σ → ε → List α) : Machine (σ × List α) ε where
  enabled s e := m.enabled s.1 e
  next s e := (m.next s.1 e, s.2 ++ out s.1 e)

variable {m : Machine σ ε} {out : σ → ε → List α}

@[simp] theorem recording_enabled (s : σ × List α) (e : ε) :
    (m.recording out).enabled s e = m.enabled s.1 e := rfl

@[simp] theorem recording_next (s : σ × List α) (e : ε) :
    (m.recording out).next s e = (m.next s.1 e, s.2 ++ out s.1 e) := rfl

theorem recording_next_nil {s : σ × List α} {e : ε} (h : out s.1 e = []) :
    (m.recording out).next s e = (m.next s.1 e, s.2) := by
  rw [recording_next, h, List.append_nil]

/-- A condition that does not look at the ledger is one on the run itself. -/
theorem recording_along (out : σ → ε → List α) (ok : σ → ε → Prop) (s : σ × List α)
    (events : List ε) :
    (m.recording out).Along (fun s e => ok s.1 e) s events ↔ m.Along ok s.1 events := by
  induction events generalizing s with
  | nil => exact Iff.rfl
  | cons e rest ih => rw [along_cons, along_cons, ih, recording_next]

theorem recording_runs (s : σ × List α) (events : List ε) :
    (m.recording out).Runs s events ↔ m.Runs s.1 events :=
  recording_along out m.enabled s events

end L1Comm.Machine
