import L1Comm.Watchman.Decision
import L1Comm.Watchman.Restart

/-!
The main loop over any number of rounds. A search is survived if the process is
running, or if its pattern splits into words and one of the three starts is
found: the third failure builds the mail from a name that does not exist, and a
pattern that does not split raises, and neither exception is caught. The
watchdog keeps watching as long as every search of every round is survived.
-/

namespace L1Comm.Watchman

open Python

variable {config : Config}

/-- The check with which each search begins. -/
def check (search pattern : Text) : List Action :=
  [.log (.running search pattern), .getstatusoutput (pgrep pattern)]

/-- What makes the call of `runSearch` return. -/
def Survives (answers : Answers) (pattern : Text) : Prop :=
  running answers.first ∨
    (∃ words, Shlex.split pattern = .ok words) ∧
      ∃ x, 1 ≤ x ∧ x ≤ 3 ∧ running (answers.afterStart x)

/-- The exception a search ends with that is not survived. -/
def failure (pattern : Text) : PyError :=
  match Shlex.split pattern with
  | .ok _ => .nameError "output".toList
  | .error message => .valueError message.toList

section RunSearch

variable {answers : Answers} {search pattern : Text}

theorem runSearch_of_running (h : running answers.first) :
    runSearch config answers search pattern =
      ⟨check search pattern ++ [.log (.currentlyRunning pattern)], .ok ()⟩ := by
  simp only [runSearch, h]
  rfl

theorem runSearch_of_not_running (h : ¬ running answers.first) :
    runSearch config answers search pattern =
      ⟨check search pattern ++ .log (.restarting pattern) ::
          (restartProcess config answers search pattern).actions,
        (restartProcess config answers search pattern).result⟩ := by
  simp only [runSearch, Bool.eq_false_iff.mpr h]
  rfl

theorem check_prefix :
    check search pattern <+: (runSearch config answers search pattern).actions := by
  by_cases h : running answers.first
  · rw [runSearch_of_running h]
    exact List.prefix_append _ _
  · rw [runSearch_of_not_running h]
    exact List.prefix_append _ _

theorem runSearch_of_survives (h : Survives answers pattern) :
    (runSearch config answers search pattern).result = .ok () := by
  by_cases hrunning : running answers.first
  · rw [runSearch_of_running hrunning]
  · obtain ⟨⟨words, hsplit⟩, x, hfrom, hto, hx⟩ := h.resolve_left hrunning
    rw [runSearch_of_not_running hrunning, restartProcess_of_ok config search hsplit]
    exact startLoop_of_exists _ _ _ _ le_rfl ⟨x, hfrom, hto, hx⟩

theorem runSearch_of_not_survives (h : ¬ Survives answers pattern) :
    (runSearch config answers search pattern).result = .error (failure pattern) := by
  have hrunning : ¬ running answers.first := fun hrunning => h (.inl hrunning)
  rw [runSearch_of_not_running hrunning]
  cases hsplit : Shlex.split pattern with
  | error message =>
      rw [restartProcess_of_error config search hsplit, failure, hsplit]
      rfl
  | ok words =>
      rw [restartProcess_of_ok config search hsplit, failure, hsplit]
      refine startLoop_of_forall _ _ _ _ le_rfl fun x hfrom hto hx => ?_
      exact h (.inr ⟨⟨words, hsplit⟩, x, hfrom, hto, hx⟩)

theorem runSearch_result_iff :
    (runSearch config answers search pattern).result = .ok () ↔ Survives answers pattern := by
  constructor
  · intro h
    by_contra hfails
    rw [runSearch_of_not_survives hfails] at h
    cases h
  · exact runSearch_of_survives

end RunSearch

section Pass

variable {answers : Text → Answers}

/-- The call of `runSearch` for an item of the dictionary. -/
def searchOf (config : Config) (answers : Text → Answers) (item : (_ : Text) × Text) : Watch Unit :=
  runSearch config (answers item.1) item.1 item.2

theorem runSearches_of_ne_nil (h : config.searches.entries ≠ []) :
    runSearches config answers = (do
      Script.act (.log .searchStarting)
      Script.forEach (searchOf config answers) config.searches.entries
      Script.act .flush) := by
  rw [runSearches]
  split
  · next hnil => exact absurd hnil h
  · rfl

theorem pass_of_nil (h : config.searches.entries = []) :
    pass config answers = ⟨[.log .noSearches], .error .systemExit⟩ := by
  rw [pass, runSearches, h]
  rfl

/-- A round whose searches are all survived is performed to its end. -/
theorem pass_of_survives (hne : config.searches.entries ≠ [])
    (h : ∀ item ∈ config.searches.entries, Survives (answers item.1) item.2) :
    pass config answers =
      ⟨.log .searchStarting ::
          ((config.searches.entries.flatMap fun item => (searchOf config answers item).actions) ++
            [.flush]) ++ [.sleep 10], .ok ()⟩ := by
  have hsearches : ∀ item ∈ config.searches.entries, (searchOf config answers item).result =
      .ok () := fun item hitem => runSearch_of_survives (h item hitem)
  rw [pass, runSearches_of_ne_nil hne, Script.forEach_of_ok hsearches]
  rfl

/-- The first search that is not survived ends it, and the watchdog with it. -/
theorem pass_of_not_survives {before after : List ((_ : Text) × Text)}
    {item : (_ : Text) × Text} (hentries : config.searches.entries = before ++ item :: after)
    (hbefore : ∀ other ∈ before, Survives (answers other.1) other.2)
    (hitem : ¬ Survives (answers item.1) item.2) :
    pass config answers =
      ⟨.log .searchStarting ::
          ((before.flatMap fun other => (searchOf config answers other).actions) ++
            (searchOf config answers item).actions), .error (failure item.2)⟩ := by
  have hne : config.searches.entries ≠ [] :=
    List.ne_nil_of_mem (hentries ▸ List.mem_append_cons_self)
  have hsearches : ∀ other ∈ before, (searchOf config answers other).result = .ok () :=
    fun other hother => runSearch_of_survives (hbefore other hother)
  have hfailure : (searchOf config answers item).result = .error (failure item.2) :=
    runSearch_of_not_survives hitem
  rw [pass, runSearches_of_ne_nil hne, hentries, Script.forEach_of_error hsearches hfailure]
  rfl

theorem pass_result_iff (hne : config.searches.entries ≠ []) :
    (pass config answers).result = .ok () ↔
      ∀ item ∈ config.searches.entries, Survives (answers item.1) item.2 := by
  constructor
  · intro h item hitem
    rw [pass, runSearches_of_ne_nil hne, Script.result_bind_eq_ok_iff] at h
    obtain ⟨_, hround, -⟩ := h
    rw [Script.result_act_bind, Script.result_bind_eq_ok_iff] at hround
    obtain ⟨_, hloop, -⟩ := hround
    exact runSearch_result_iff.mp (Script.forEach_result_iff.mp hloop item hitem)
  · intro h
    rw [pass_of_survives hne h]

/-- A round that is performed to its end checks every search. -/
theorem check_infix_pass (hne : config.searches.entries ≠ [])
    (h : ∀ item ∈ config.searches.entries, Survives (answers item.1) item.2)
    {item : (_ : Text) × Text} (hitem : item ∈ config.searches.entries) :
    check item.1 item.2 <:+: (pass config answers).actions := by
  have hcheck : check item.1 item.2 <+: (searchOf config answers item).actions := check_prefix
  have hsearch : (searchOf config answers item).actions <:+:
      config.searches.entries.flatMap fun item => (searchOf config answers item).actions := by
    obtain ⟨before, after, hentries⟩ := List.append_of_mem hitem
    rw [hentries, List.flatMap_append, List.flatMap_cons]
    exact ⟨_, _, List.append_assoc _ _ _⟩
  rw [pass_of_survives hne h]
  refine (hcheck.isInfix.trans hsearch).trans ⟨[.log .searchStarting], [.flush, .sleep 10], ?_⟩
  simp

end Pass

/-- The first search that is not survived ends the watchdog: what comes after it
in the round is not checked, and no round comes after it. -/
theorem watch_of_not_survives {answers : ℕ → Text → Answers} {n round : ℕ} (hround : round < n)
    (hearlier : ∀ r < round, ∀ other ∈ config.searches.entries,
      Survives (answers r other.1) other.2)
    {before after : List ((_ : Text) × Text)} {item : (_ : Text) × Text}
    (hentries : config.searches.entries = before ++ item :: after)
    (hbefore : ∀ other ∈ before, Survives (answers round other.1) other.2)
    (hitem : ¬ Survives (answers round item.1) item.2) :
    watch config answers n =
      ⟨((List.range round).flatMap fun r => (pass config (answers r)).actions) ++
          .log .searchStarting ::
            ((before.flatMap fun other => (searchOf config (answers round) other).actions) ++
              (searchOf config (answers round) item).actions), .error (failure item.2)⟩ := by
  have hne : config.searches.entries ≠ [] :=
    List.ne_nil_of_mem (hentries ▸ List.mem_append_cons_self)
  have hfails := pass_of_not_survives hentries hbefore hitem
  have hpasses : ∀ r ∈ List.range round, (pass config (answers r)).result = .ok () :=
    fun r hr => (pass_result_iff hne).mpr (hearlier r (List.mem_range.mp hr))
  obtain ⟨later, rfl⟩ := Nat.exists_eq_add_of_lt hround
  rw [watch, Nat.add_assoc, List.range_add, List.range_succ_eq_map, List.map_cons,
    Nat.add_zero, Script.forEach_of_error hpasses (congrArg Script.result hfails), hfails]

/-- Without searches there is nothing to do, not even once. -/
theorem watch_of_nil {answers : ℕ → Text → Answers} {n : ℕ} (hnil : config.searches.entries = [])
    (hn : 0 < n) : watch config answers n = ⟨[.log .noSearches], .error .systemExit⟩ := by
  obtain ⟨m, rfl⟩ := Nat.exists_eq_add_of_lt hn
  rw [watch, Nat.zero_add, List.range_succ_eq_map, Script.forEach, pass_of_nil hnil]
  rfl

/-- The process is not running, and the starts do not help. -/
def StartsFail (answers : Answers) : Prop :=
  ¬ running answers.first ∧ ∀ x, 1 ≤ x → x ≤ 3 → ¬ running (answers.afterStart x)

theorem Survives.not_startsFail {answers : Answers} {pattern : Text}
    (h : Survives answers pattern) : ¬ StartsFail answers := by
  rintro ⟨hfirst, hstarts⟩
  obtain ⟨-, x, hfrom, hto, hx⟩ := h.resolve_left hfirst
  exact hstarts x hfrom hto hx

/-- The watchdog over its first `n` rounds. -/
structure KeepsWatching (config : Config) (answers : ℕ → Text → Answers) (n : ℕ) : Prop where
  /-- No exception ends it, as long as there is something to look for. -/
  goesOn : config.searches.entries ≠ [] → (watch config answers n).result = .ok ()
  /-- What it performs is what the rounds perform. -/
  rounds : config.searches.entries ≠ [] → (watch config answers n).actions =
    (List.range n).flatMap fun round => (pass config (answers round)).actions
  checks : ∀ round < n, ∀ item ∈ config.searches.entries,
    check item.1 item.2 <:+: (pass config (answers round)).actions
  alerts : ∀ round < n, ∀ item ∈ config.searches.entries, StartsFail (answers round item.1) →
    .smtp "localhost".toList ∈ (searchOf config (answers round) item).actions
  /-- Only without searches does it end, by `sys.exit()`. -/
  exits : config.searches.entries = [] → 0 < n →
    (watch config answers n).result = .error .systemExit

/-- The watchdog keeps watching if and only if every search of every round is
survived: the process is running, or its pattern splits into words and one of
the three starts is found. -/
theorem keeps_watching_iff (config : Config) (answers : ℕ → Text → Answers) (n : ℕ) :
    KeepsWatching config answers n ↔
      ∀ round < n, ∀ item ∈ config.searches.entries, Survives (answers round item.1) item.2 := by
  constructor
  · intro h round hround item hitem
    have hne := List.ne_nil_of_mem hitem
    have hpasses := Script.forEach_result_iff.mp (h.goesOn hne) round (List.mem_range.mpr hround)
    exact (pass_result_iff hne).mp hpasses item hitem
  · intro h
    have hpasses (hne : config.searches.entries ≠ []) :
        ∀ round ∈ List.range n, (pass config (answers round)).result = .ok () :=
      fun round hround => (pass_result_iff hne).mpr (h round (List.mem_range.mp hround))
    constructor
    · intro hne
      exact Script.forEach_result_iff.mpr (hpasses hne)
    · intro hne
      rw [watch, Script.forEach_of_ok (hpasses hne)]
    · intro round hround item hitem
      exact check_infix_pass (List.ne_nil_of_mem hitem) (h round hround) hitem
    · intro round hround item hitem hfail
      exact absurd hfail (h round hround item hitem).not_startsFail
    · intro hnil hn
      rw [watch_of_nil hnil hn]

/-- The output of a `pgrep` that finds nothing but its own shell. -/
def onlyShell : Text := ['1', ' ', 's', 'h']

theorem not_running_onlyShell : ¬ running onlyShell := by
  rw [running_iff, not_not]
  exact ⟨onlyShell, by decide, by decide⟩

def configOf (pattern : Text) : Config :=
  ⟨[], [], [], AList.singleton ['S', 'e', 'a', 'r', 'c', 'h', '1'] pattern⟩

/-- A process that cannot be started ends the watchdog with the exception of the
mail's text, and so does a pattern with an open quote once its process is gone. -/
theorem watch_ends :
    (watch (configOf ['d']) (fun _ _ => .always onlyShell) 1).result =
        .error (.nameError "output".toList) ∧
      ¬ KeepsWatching (configOf ['d']) (fun _ _ => .always onlyShell) 1 ∧
      (watch (configOf ['\'']) (fun _ _ => .always onlyShell) 1).result =
        .error (.valueError "No closing quotation".toList) ∧
      ¬ KeepsWatching (configOf ['\'']) (fun _ _ => .always onlyShell) 1 := by
  have hfails (pattern : Text) : ¬ Survives (.always onlyShell) pattern := by
    rintro (hfirst | ⟨-, x, -, -, hx⟩)
    · exact not_running_onlyShell hfirst
    · exact not_running_onlyShell hx
  have hresult (pattern : Text) :
      (watch (configOf pattern) (fun _ _ => .always onlyShell) 1).result =
        .error (failure pattern) := by
    rw [watch_of_not_survives Nat.one_pos (fun r hr => absurd hr (Nat.not_lt_zero r)) rfl
      (fun other hother => absurd hother List.not_mem_nil) (hfails pattern)]
  have hends (pattern : Text) :
      ¬ KeepsWatching (configOf pattern) (fun _ _ => .always onlyShell) 1 := by
    intro h
    have hok := h.goesOn (List.cons_ne_nil _ _)
    rw [hresult] at hok
    cases hok
  exact ⟨hresult _, hends _, hresult _, hends _⟩

end L1Comm.Watchman
