import L1Comm.Python.Shell
import L1Comm.Watchman.Model

/-!
What `restartProcess` starts. Each of its up to three attempts gives the words
of the pattern to a shell and then looks for the pattern. The shell takes the
first word for its script and the others for positional parameters, so a
process with arguments is started without them.
-/

namespace L1Comm.Watchman

open Python

variable (config : Config) {answers : Answers} (search pattern : Text) (args : List Text)

section StartLoop

variable {left : ℕ}

/-- A start that succeeds ends the loop. -/
theorem startLoop_of_running (h : running (answers.afterStart (3 - left))) :
    startLoop config answers search pattern args (left + 1) =
      ⟨attempt search pattern args, .ok ()⟩ := by
  rw [startLoop, start_eq, Script.bind_of_ok _ rfl, if_pos h]
  rfl

/-- After one that fails another one is made. -/
theorem startLoop_of_not_running (h : ¬ running (answers.afterStart (3 - (left + 1)))) :
    startLoop config answers search pattern args (left + 2) =
      ⟨attempt search pattern args ++
          (startLoop config answers search pattern args (left + 1)).actions,
        (startLoop config answers search pattern args (left + 1)).result⟩ := by
  rw [startLoop, start_eq, Script.bind_of_ok _ rfl, if_neg h]
  rfl

/-- If the last one fails, the loop ends with the exception. -/
theorem startLoop_last (h : ¬ running (answers.afterStart 3)) :
    startLoop config answers search pattern args 1 =
      ⟨attempt search pattern args, .error (.nameError "output".toList)⟩ := by
  rw [startLoop, start_eq, Script.bind_of_ok _ rfl, if_neg h, beq_self_eq_true, Script.when,
    if_pos rfl, alert_eq, Script.throw_bind]
  rfl

/-- The loop performs one attempt or more. -/
theorem startLoop_actions (answers : Answers) (left : ℕ) :
    ∃ k, (startLoop config answers search pattern args (left + 1)).actions =
      (List.replicate (k + 1) (attempt search pattern args)).flatten := by
  induction left with
  | zero =>
      refine ⟨0, ?_⟩
      by_cases h : running (answers.afterStart 3)
      · rw [startLoop_of_running _ _ _ _ h]
        rfl
      · rw [startLoop_last _ _ _ _ h]
        rfl
  | succ left ih =>
      by_cases h : running (answers.afterStart (3 - (left + 1)))
      · rw [startLoop_of_running _ _ _ _ h]
        exact ⟨0, rfl⟩
      · obtain ⟨k, hk⟩ := ih
        refine ⟨k + 1, ?_⟩
        rw [startLoop_of_not_running _ _ _ _ h, hk]
        rfl

/-- It returns if the check after one of its starts finds the process. -/
theorem startLoop_of_exists (hleft : left ≤ 2)
    (h : ∃ x, 3 - left ≤ x ∧ x ≤ 3 ∧ running (answers.afterStart x)) :
    (startLoop config answers search pattern args (left + 1)).result = .ok () := by
  induction left with
  | zero =>
      obtain ⟨x, hfrom, hto, hrunning⟩ := h
      obtain rfl : x = 3 := by omega
      rw [startLoop_of_running _ _ _ _ hrunning]
  | succ left ih =>
      by_cases hfirst : running (answers.afterStart (3 - (left + 1)))
      · rw [startLoop_of_running _ _ _ _ hfirst]
      · rw [startLoop_of_not_running _ _ _ _ hfirst]
        obtain ⟨x, hfrom, hto, hrunning⟩ := h
        refine ih (by omega) ⟨x, ?_, hto, hrunning⟩
        have hne : x ≠ 3 - (left + 1) := fun hx => hfirst (hx ▸ hrunning)
        omega

/-- Otherwise it ends with the exception that the text of the mail raises. -/
theorem startLoop_of_forall (hleft : left ≤ 2)
    (h : ∀ x, 3 - left ≤ x → x ≤ 3 → ¬ running (answers.afterStart x)) :
    (startLoop config answers search pattern args (left + 1)).result =
      .error (.nameError "output".toList) := by
  induction left with
  | zero => rw [startLoop_last _ _ _ _ (h 3 le_rfl le_rfl)]
  | succ left ih =>
      rw [startLoop_of_not_running _ _ _ _ (h (3 - (left + 1)) le_rfl (Nat.sub_le _ _))]
      exact ih (by omega) fun x hfrom hto => h x (by omega) hto

end StartLoop

section RestartProcess

variable {pattern args}

theorem restartProcess_of_ok (h : Shlex.split pattern = .ok args) :
    restartProcess config answers search pattern =
      startLoop config answers search pattern args 3 := by
  rw [restartProcess, h]
  rfl

/-- A pattern that does not split raises before anything is started. -/
theorem restartProcess_of_error {message : String} (h : Shlex.split pattern = .error message) :
    restartProcess config answers search pattern =
      .throw (.valueError message.toList) := by
  rw [restartProcess, h]
  rfl

/-- What is performed is what an attempt with these words performs. -/
theorem mem_restartProcess_iff {action : Action} (h : Shlex.split pattern = .ok args) :
    action ∈ (restartProcess config answers search pattern).actions ↔
      action ∈ attempt search pattern args := by
  obtain ⟨k, hk⟩ := startLoop_actions config search pattern args answers 2
  rw [restartProcess_of_ok config search h, hk, List.mem_flatten]
  constructor
  · rintro ⟨actions, hactions, haction⟩
    exact (List.mem_replicate.mp hactions).2 ▸ haction
  · intro haction
    exact ⟨_, List.mem_replicate.mpr ⟨k.succ_ne_zero, rfl⟩, haction⟩

/-- The process is started with the words of the pattern, and with nothing else. -/
theorem popen_mem_iff {words : List Text} (h : Shlex.split pattern = .ok args) :
    .popen words ∈ (restartProcess config answers search pattern).actions ↔ words = args := by
  rw [mem_restartProcess_iff config search h]
  simp [attempt]

end RestartProcess

/-- Every start executes the words, and what is looked for is the pattern. -/
structure StartsWhatItLooksFor (pattern : Text) (words : List Text) (actions : List Action) :
    Prop where
  starts : ∀ args, .popen args ∈ actions → Shell.popen args = some words
  looksFor : ∀ command, .getstatusoutput command ∈ actions → command = pgrep pattern

/-- Of a pattern of plain words the process that is looked for is started if and
only if the pattern is one word, which is neither a reserved word of the shell
nor an option. -/
theorem starts_what_it_looks_for_iff {pattern : Text} {words : List Text}
    (hsplit : Shlex.split pattern = .ok words) (hne : words ≠ [])
    (hplain : ∀ word ∈ words, Shell.Plain word) (config : Config) (answers : Answers)
    (search : Text) :
    StartsWhatItLooksFor pattern words (restartProcess config answers search pattern).actions ↔
      ∃ word, words = [word] ∧ word ∉ Shell.reserved ∧ Shell.isOption word = false := by
  rw [← Shell.popen_eq_iff hne hplain]
  constructor
  · exact fun h => h.starts words ((popen_mem_iff config search hsplit).mpr rfl)
  · intro h
    constructor
    · intro args hargs
      rwa [(popen_mem_iff config search hsplit).mp hargs]
    · intro command hcommand
      have hattempt := (mem_restartProcess_iff config search hsplit).mp hcommand
      simpa [attempt] using hattempt

/-- The pattern `./demo` of the configuration that is shipped. -/
theorem starts_what_it_looks_for_iff_demo :
    StartsWhatItLooksFor ['.', '/', 'd', 'e', 'm', 'o'] [['.', '/', 'd', 'e', 'm', 'o']]
        (restartProcess ⟨[], [], [], ∅⟩ (.always []) [] ['.', '/', 'd', 'e', 'm', 'o']).actions ↔
      ∃ word, [['.', '/', 'd', 'e', 'm', 'o']] = [word] ∧ word ∉ Shell.reserved ∧
        Shell.isOption word = false :=
  starts_what_it_looks_for_iff rfl (by decide) (by decide) _ _ _

/-- Of `./demo -v` only `./demo` is executed. -/
theorem option_is_lost :
    Shlex.split ['.', '/', 'd', 'e', 'm', 'o', ' ', '-', 'v'] =
        .ok [['.', '/', 'd', 'e', 'm', 'o'], ['-', 'v']] ∧
      (∀ word ∈ [['.', '/', 'd', 'e', 'm', 'o'], ['-', 'v']], Shell.Plain word) ∧
      Shell.popen [['.', '/', 'd', 'e', 'm', 'o'], ['-', 'v']] =
        some [['.', '/', 'd', 'e', 'm', 'o']] ∧
      ¬ StartsWhatItLooksFor ['.', '/', 'd', 'e', 'm', 'o', ' ', '-', 'v']
        [['.', '/', 'd', 'e', 'm', 'o'], ['-', 'v']]
        (restartProcess ⟨[], [], [], ∅⟩ (.always []) []
          ['.', '/', 'd', 'e', 'm', 'o', ' ', '-', 'v']).actions := by
  refine ⟨rfl, by decide, by decide, fun h => ?_⟩
  have hstarted := h.starts _ ((popen_mem_iff _ _ rfl).mpr rfl)
  exact absurd hstarted (by decide)

/-- What `pgrep -f` compares a pattern with. -/
def commandLine (argv : List Text) : Text := [' '].intercalate argv

/-- For a pattern of plain words with single blanks between them, the command
line of each process that is started is the pattern under the same condition. -/
theorem commandLine_eq_iff {words : List Text} (hne : words ≠ [])
    (hplain : ∀ word ∈ words, Shell.Plain word)
    (hordinary : ∀ word ∈ words, ∀ c ∈ word, Shlex.Ordinary c) (config : Config)
    (answers : Answers) (search : Text) :
    (∀ args, .popen args ∈
          (restartProcess config answers search (commandLine words)).actions →
        (Shell.popen args).map commandLine = some (commandLine words)) ↔
      ∃ word, words = [word] ∧ word ∉ Shell.reserved ∧ Shell.isOption word = false := by
  have hsplit : Shlex.split (commandLine words) = .ok words :=
    Shlex.split_intercalate hne fun word hword => ⟨(hplain word hword).1, hordinary word hword⟩
  rw [← Shell.popen_eq_iff hne hplain]
  constructor
  · intro h
    have hline := h words ((popen_mem_iff config search hsplit).mpr rfl)
    cases words with
    | nil => exact absurd rfl hne
    | cons script rest =>
        rw [Shell.popen, (hplain script List.mem_cons_self).command_eq] at hline ⊢
        split at hline
        · cases hline
        · next hoption =>
            rw [if_neg hoption]
            split at hline
            · cases hline
            · next hscript =>
                have hshort := Option.some.inj hline
                cases rest with
                | nil => rw [if_neg hscript]
                | cons word rest =>
                    rw [commandLine, commandLine, List.intercalate_singleton,
                      List.intercalate_cons_cons, List.append_assoc] at hshort
                    have hlength := congrArg List.length hshort
                    rw [List.length_append, List.length_append, List.length_singleton] at hlength
                    omega
  · intro h args hargs
    rw [(popen_mem_iff config search hsplit).mp hargs, h]
    rfl

end L1Comm.Watchman
