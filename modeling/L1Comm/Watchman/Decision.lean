import L1Comm.Watchman.Model

/-!
How the watchdog decides from the output of `pgrep` whether a process is
running, and when that is the decision it is meant to make: a process is
running if a line is left that is not empty and is not the shell of the `pgrep`
itself. The loop leaves every second of adjacent shell lines, and an output
without lines splits into one empty line.
-/

namespace L1Comm.Watchman

open Python

/-- `^.+sh` matches a line with `sh` behind its first character. -/
theorem matchesSh_iff {line : Text} :
    matchesSh line ↔ ∃ front rest, line = front ++ 's' :: 'h' :: rest ∧ front ≠ [] ∧
      '\n' ∉ front := by
  rw [matchesSh, plus_iff]
  simp only [literal_iff, and_true]
  constructor
  · rintro ⟨front, tail, rfl, hne, hdot, rest, rfl⟩
    refine ⟨front, rest, rfl, hne, fun hmem => ?_⟩
    exact absurd (hdot _ hmem) (by decide)
  · rintro ⟨front, rest, rfl, hne, hline⟩
    refine ⟨front, _, rfl, hne, fun c hc => ?_, rest, rfl⟩
    exact bne_iff_ne.mpr fun h => hline (h ▸ hc)

/-- A line that shows a running process. -/
def ShowsProcess (line : Text) : Prop := line ≠ [] ∧ ¬ matchesSh line

instance (line : Text) : Decidable (ShowsProcess line) := inferInstanceAs (Decidable (_ ∧ _))

/-- The watchdog takes a process to be running unless the output is one single
matching line. -/
theorem running_iff {commOutput : Text} :
    running commOutput ↔ ¬ ∃ line, lines commOutput = [line] ∧ matchesSh line := by
  rw [running, Bool.not_eq_true', List.isEmpty_eq_false_iff, Ne, commOutputList,
    removeWhere_eq_nil_iff]
  simp [lines_ne_nil]

/-- A single matching line shows no process. -/
theorem running_of_showsProcess {commOutput line : Text} (hmem : line ∈ lines commOutput)
    (hline : ShowsProcess line) : running commOutput := by
  rw [running_iff]
  rintro ⟨only, hlines, hmatch⟩
  rw [hlines, List.mem_singleton] at hmem
  exact hline.2 (hmem ▸ hmatch)

/-- After its check `runSearch` writes to the log that it restarts the process,
and calls `restartProcess`. -/
def CallsRestartProcess (config : Config) (answers : Answers) (search pattern : Text) : Prop :=
  runSearch config answers search pattern = (do
    Script.act (.log (.running search pattern))
    Script.act (.getstatusoutput (pgrep pattern))
    Script.act (.log (.restarting pattern))
    restartProcess config answers search pattern)

theorem callsRestartProcess_iff {config : Config} {answers : Answers} {search pattern : Text} :
    CallsRestartProcess config answers search pattern ↔ ¬ running answers.first := by
  rw [CallsRestartProcess]
  cases h : running answers.first with
  | true =>
      refine iff_of_false (fun heq => ?_) (not_not.mpr rfl)
      -- the log says that the process is running, not that it is restarted
      have hlog : .log (.restarting pattern) ∈
          (runSearch config answers search pattern).actions := by
        rw [heq]
        simp
      simp [runSearch, h] at hlog
  | false =>
      refine iff_of_true ?_ Bool.false_ne_true
      simp only [runSearch, h]
      rfl

/-- The decision the watchdog is meant to make on an output of `pgrep`. -/
structure Decides (commOutput : Text) : Prop where
  filtered : commOutputList commOutput =
    (lines commOutput).filter fun line => !matchesSh line
  restarts : ∀ config answers search pattern, answers.first = commOutput →
    (CallsRestartProcess config answers search pattern ↔
      ¬ ∃ line ∈ lines commOutput, ShowsProcess line)
  started : ∀ answers search pattern args x, answers.afterStart x = commOutput →
    ((start answers search pattern args x).result = .ok true ↔
      ∃ line ∈ lines commOutput, ShowsProcess line)

/-- The two checks are right if and only if the watchdog's own test is. -/
theorem decides_iff_running {commOutput : Text} :
    Decides commOutput ↔ Separated matchesSh (lines commOutput) ∧
      (running commOutput ↔ ∃ line ∈ lines commOutput, ShowsProcess line) := by
  constructor
  · intro h
    refine ⟨removeWhere_eq_filter_iff.mp h.filtered, ?_⟩
    have hstarted := h.started (.always commOutput) [] [] [] 0 rfl
    rw [start_eq, Except.ok.injEq] at hstarted
    exact hstarted
  · intro ⟨hseparated, hrunning⟩
    constructor
    · exact removeWhere_eq_filter_iff.mpr hseparated
    · intro config answers search pattern hfirst
      rw [callsRestartProcess_iff, hfirst, hrunning]
    · intro answers search pattern args x hafter
      rw [start_eq, hafter, Except.ok.injEq, hrunning]

/-- The watchdog decides as it is meant to if and only if no two adjacent lines
match and some line shows a process, or the output is one single matching line. -/
theorem decides_iff (commOutput : Text) :
    Decides commOutput ↔
      (Separated matchesSh (lines commOutput) ∧ ∃ line ∈ lines commOutput, ShowsProcess line) ∨
        ∃ line, lines commOutput = [line] ∧ matchesSh line := by
  rw [decides_iff_running]
  constructor
  · intro ⟨hseparated, hrunning⟩
    by_cases hshows : ∃ line ∈ lines commOutput, ShowsProcess line
    · exact .inl ⟨hseparated, hshows⟩
    · refine .inr ?_
      rwa [← hrunning, running_iff, not_not] at hshows
  · rintro (⟨hseparated, line, hmem, hline⟩ | ⟨line, hlines, hmatch⟩)
    · exact ⟨hseparated, fun _ => ⟨line, hmem, hline⟩, fun _ => running_of_showsProcess hmem hline⟩
    · have hidle : ¬ running commOutput := fun h => running_iff.mp h ⟨line, hlines, hmatch⟩
      refine ⟨?_, fun h => absurd h hidle, fun ⟨other, hmem, hother⟩ => ?_⟩
      · rw [hlines]
        exact List.IsChain.singleton _
      · exact absurd (running_of_showsProcess hmem hother) hidle

/-- An empty output is taken for a running process, and of two adjacent shells
the second is. -/
theorem not_decides_empty :
    ¬ Decides [] ∧ ¬ Decides ['1', ' ', 's', 'h', '\n', '2', ' ', 's', 'h'] := by
  constructor
  · intro h
    have hrunning : running [] := running_iff.mpr fun ⟨line, hlines, hmatch⟩ => by
      obtain rfl : [] = line := List.singleton_inj.mp hlines
      exact absurd hmatch (by decide)
    exact absurd ((decides_iff_running.mp h).2.mp hrunning) (by decide)
  · intro h
    exact absurd (decides_iff_running.mp h).1 (by unfold Separated; decide)

end L1Comm.Watchman
