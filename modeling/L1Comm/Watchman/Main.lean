import L1Comm.Watchman.Settings

/-!
The whole of `script/watchman.py`, from the file to the processes: what the
script does about any `watchman.conf`, whatever `pgrep` answers. There are four
ways: it goes on, it has nothing to do and exits, it never gets a configuration,
or a search ends it. Which one it is can be read off the lines of the file and
the answers. What a search is told may depend on what the searches before it
have started, so the answers are those of one order of the searches.
-/

namespace L1Comm.Watchman

open Python

/-- The order in which `iteritems` goes through the searches, for every result of
`loadConfig`. -/
structure Order where
  config : Globals → Config
  globals_config : ∀ g, (config g).globals = g

instance : Nonempty Order := by
  have hlist (g : Globals) : ∃ config : Config, config.globals = g := by
    obtain ⟨server, reportEmail, domain, searches⟩ := g
    induction searches using Finmap.induction_on with
    | H s => exact ⟨⟨server, reportEmail, domain, s⟩, rfl⟩
  choose config hconfig using hlist
  exact ⟨⟨config, hconfig⟩⟩

abbrev Main := Script (LoadLine ⊕ Action) (LoadError ⊕ PyError)

/-- The first `n` passes of `while True`, with the answers that the search of a
name gets in a round. -/
def mainLoop (order : Order) (answers : ℕ → Text → Answers) (n : ℕ) (g : Globals) : Main Unit :=
  (watch (order.config g) answers n).embed Sum.inr Sum.inr

def script (order : Order) (file : ConfFile) (answers : ℕ → Text → Answers) (n : ℕ) :
    Main Unit := do
  let g ← (loadConfig file).embed Sum.inl Sum.inl
  mainLoop order answers n g

/-- The file gives this search this pattern. -/
def Asks (conf name pattern : Text) : Prop :=
  IsSearchName name ∧ lastValue name (lines conf) = some pattern

theorem Order.mem_entries (order : Order) {conf : Text} {item : (_ : Text) × Text} :
    item ∈ (order.config (load conf)).searches.entries ↔ Asks conf item.1 item.2 := by
  have hlookup : (order.config (load conf)).searches.entries.dlookup item.1 =
      (load conf).searches.lookup item.1 :=
    congrArg (fun g => g.searches.lookup item.1) (order.globals_config (load conf))
  rw [Asks, ← lookup_load, ← hlookup, ← Option.mem_def,
    List.mem_dlookup_iff (order.config (load conf)).searches.nodupKeys]

theorem Order.entries_ne_nil (order : Order) {conf : Text} :
    (order.config (load conf)).searches.entries ≠ [] ↔ ∃ name pattern, Asks conf name pattern := by
  constructor
  · intro hne
    obtain ⟨item, hitem⟩ := List.exists_mem_of_ne_nil _ hne
    exact ⟨item.1, item.2, order.mem_entries.mp hitem⟩
  · rintro ⟨name, pattern, hasks⟩
    exact List.ne_nil_of_mem (a := ⟨name, pattern⟩) (order.mem_entries.mpr hasks)

theorem not_asks_blankConf {name pattern : Text} : ¬ Asks blankConf name pattern := by
  rintro ⟨hname, hvalue⟩
  rw [lastValue_blankConf hname] at hvalue
  cases hvalue

/-! ## What ends the main loop -/

section Watch

variable {config : Config} {answers : ℕ → Text → Answers} {n : ℕ}

theorem failure_ne_systemExit (pattern : Text) : failure pattern ≠ .systemExit := by
  rw [failure]
  split <;> simp

theorem watch_result_ok_iff (hne : config.searches.entries ≠ []) :
    (watch config answers n).result = .ok () ↔
      ∀ round < n, ∀ item ∈ config.searches.entries, Survives (answers round item.1) item.2 := by
  rw [watch, Script.forEach_result_iff]
  refine forall_congr' fun round => ?_
  rw [List.mem_range, pass_result_iff hne]

/-- Whatever ends a round with searches is the exception of one of them. -/
theorem pass_result_error {answers : Text → Answers} {e : PyError}
    (hne : config.searches.entries ≠ []) (h : (pass config answers).result = .error e) :
    ∃ pattern, e = failure pattern := by
  rw [pass, runSearches_of_ne_nil hne, Script.result_bind_eq_error_iff] at h
  rcases h with hround | ⟨_, -, hsleep⟩
  · rw [Script.result_act_bind, Script.result_bind_eq_error_iff] at hround
    rcases hround with hloop | ⟨_, -, hflush⟩
    · obtain ⟨item, -, hsearch⟩ := Script.forEach_result_error hloop
      have hfails : ¬ Survives (answers item.1) item.2 := by
        intro hsurvives
        rw [searchOf, runSearch_of_survives hsurvives] at hsearch
        cases hsearch
      rw [searchOf, runSearch_of_not_survives hfails] at hsearch
      exact ⟨item.2, (Except.error.inj hsearch).symm⟩
    · cases hflush
  · cases hsleep

theorem watch_result_error {e : PyError} (hne : config.searches.entries ≠ [])
    (h : (watch config answers n).result = .error e) : ∃ pattern, e = failure pattern := by
  obtain ⟨round, -, hpass⟩ := Script.forEach_result_error h
  exact pass_result_error hne hpass

end Watch

/-! ## What the script does about a file -/

section Readable

variable (order : Order) {conf : Text} {answers : ℕ → Text → Answers} {n : ℕ}

theorem script_readable : (script order (.readable conf) answers n).result =
    (watch (order.config (load conf)) answers n).result.mapError Sum.inr := rfl

/-- A file that asks for nothing. -/
theorem watch_of_not_asks (h : ∀ name pattern, ¬ Asks conf name pattern) :
    (watch (order.config (load conf)) answers (n + 1)).result = .error .systemExit := by
  have hnil : (order.config (load conf)).searches.entries = [] := by
    by_contra hne
    obtain ⟨name, pattern, hasks⟩ := order.entries_ne_nil.mp hne
    exact h name pattern hasks
  rw [watch_of_nil hnil n.succ_pos]

theorem script_of_not_asks (h : ∀ name pattern, ¬ Asks conf name pattern) :
    (script order (.readable conf) answers (n + 1)).result = .error (.inr .systemExit) := by
  rw [script_readable, watch_of_not_asks order h]
  rfl

theorem script_creatable :
    (script order .creatable answers (n + 1)).result = .error (.inr .systemExit) := by
  have hwatch : (script order .creatable answers (n + 1)).result =
      (watch (order.config (load blankConf)) answers (n + 1)).result.mapError Sum.inr := rfl
  rw [hwatch, watch_of_not_asks order fun _ _ => not_asks_blankConf]
  rfl

theorem watch_asked_iff (h : ∃ name pattern, Asks conf name pattern) :
    (watch (order.config (load conf)) answers (n + 1)).result = .ok () ↔
      ∀ round ≤ n, ∀ name pattern, Asks conf name pattern →
        Survives (answers round name) pattern := by
  rw [watch_result_ok_iff (order.entries_ne_nil.mpr h)]
  constructor
  · intro hall round hround name pattern hasks
    exact hall round (Nat.lt_succ_of_le hround) ⟨name, pattern⟩ (order.mem_entries.mpr hasks)
  · intro hall round hround item hitem
    exact hall round (Nat.le_of_lt_succ hround) item.1 item.2 (order.mem_entries.mp hitem)

theorem script_result_ok_iff (h : ∃ name pattern, Asks conf name pattern) :
    (script order (.readable conf) answers (n + 1)).result = .ok () ↔
      ∀ round ≤ n, ∀ name pattern, Asks conf name pattern →
        Survives (answers round name) pattern := by
  rw [← watch_asked_iff order h]
  exact Script.embed_result_ok_iff

/-- A file that asks for something, with a search that is not survived. -/
theorem script_of_fails (h : ∃ name pattern, Asks conf name pattern)
    (hfails : ¬ ∀ round ≤ n, ∀ name pattern, Asks conf name pattern →
      Survives (answers round name) pattern) :
    ∃ pattern, (script order (.readable conf) answers (n + 1)).result =
      .error (.inr (failure pattern)) := by
  rw [script_readable]
  cases hresult : (watch (order.config (load conf)) answers (n + 1)).result with
  | ok u => exact absurd ((watch_asked_iff order h).mp hresult) hfails
  | error e =>
      obtain ⟨pattern, rfl⟩ := watch_result_error (order.entries_ne_nil.mpr h) hresult
      exact ⟨pattern, rfl⟩

end Readable

end L1Comm.Watchman
