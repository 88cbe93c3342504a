import L1Comm.Watchman.Main
import Mathlib.Algebra.GroupWithZero.Nat
import Mathlib.Data.List.Infix

/-!
The watchdog in front of a process table. `pgrep` lists the processes whose
command line its pattern is found in, each on a line of its own. One of them is
the shell that runs it: the pattern is part of the command line of that shell,
and is found there unless it says one thing and means another, as `a+b` does.

The loop that is to remove that shell is wrong about lists with several shells,
but whether it leaves anything is right of every process table.
-/

namespace L1Comm.Watchman

open Python

/-- A process as `pgrep -fl` lists it. Behind its number stands its name or its
command line; that depends on the version of `pgrep`. -/
structure Process where
  pid : Text
  commandLine : Text
  shown : Text
  oneLine : '\n' ∉ pid ++ shown

def Process.line (p : Process) : Text := p.pid ++ ' ' :: p.shown

/-- The processes in the order of their numbers, among them the shell that
runs `pgrep`. -/
structure Table where
  before : List Process
  shell : Process
  after : List Process
  isShell : ['s', 'h'] <:+: shell.shown

namespace Table

def others (t : Table) : List Process := t.before ++ t.after

/-- The processes that are listed, where `found` says of a command line whether
the pattern is found in it. -/
def listed (found : Text → Bool) (t : Table) : List Process :=
  (t.before ++ t.shell :: t.after).filter fun p => found p.commandLine

/-- What `commands.getstatusoutput` returns of a text that is written: the last
newline is taken off. -/
def statusOutput (written : Text) : Text :=
  if written.getLast? = some '\n' then written.dropLast else written

def output (found : Text → Bool) (t : Table) : Text :=
  statusOutput (((t.listed found).map Process.line).flatMap (· ++ ['\n']))

end Table

/-! ## What is read of a table -/

theorem Process.newline_notMem_line (p : Process) : '\n' ∉ p.line := by
  have hline := p.oneLine
  rw [List.mem_append, not_or] at hline
  rw [line, List.mem_append, List.mem_cons, not_or, not_or]
  exact ⟨hline.1, by decide, hline.2⟩

/-- Lines of which the last is not ended. -/
theorem lines_flatMap_append {written : List Text} {last : Text}
    (h : ∀ line ∈ written, '\n' ∉ line) (hlast : '\n' ∉ last) :
    lines (written.flatMap (· ++ ['\n']) ++ last) = written ++ [last] := by
  induction written with
  | nil => exact List.splitOn_eq_singleton hlast
  | cons line rest ih =>
      rw [List.forall_mem_cons] at h
      rw [List.flatMap_cons, List.append_assoc, List.append_assoc, List.singleton_append, lines,
        List.splitOn_append_cons_self_of_not_mem h.1, ← lines, ih h.2, List.cons_append]

theorem lines_statusOutput {written : List Text} (h : ∀ line ∈ written, '\n' ∉ line) :
    lines (Table.statusOutput (written.flatMap (· ++ ['\n']))) =
      if written = [] then [[]] else written := by
  cases hwritten : written.reverse with
  | nil =>
      obtain rfl := List.reverse_eq_nil_iff.mp hwritten
      rfl
  | cons last rest =>
      obtain rfl : written = rest.reverse ++ [last] := by
        rw [← List.reverse_reverse written, hwritten, List.reverse_cons]
      rw [List.forall_mem_append, List.forall_mem_singleton] at h
      have htext : (rest.reverse ++ [last]).flatMap (· ++ ['\n']) =
          rest.reverse.flatMap (· ++ ['\n']) ++ last ++ ['\n'] := by simp
      rw [htext, Table.statusOutput, List.getLast?_concat, if_pos rfl, List.dropLast_concat,
        lines_flatMap_append h.1 h.2, if_neg (by simp)]

variable {found : Text → Bool} {t : Table}

theorem Table.matchesSh_shell (t : Table) : matchesSh t.shell.line := by
  obtain ⟨front, rest, hshell⟩ := t.isShell
  have hline : t.shell.line = (t.shell.pid ++ ' ' :: front) ++ 's' :: 'h' :: rest := by
    rw [Process.line, ← hshell]
    simp
  refine matchesSh_iff.mpr ⟨_, rest, hline, by simp, fun hmem => ?_⟩
  have hnewline := t.shell.newline_notMem_line
  rw [hline, List.mem_append, not_or] at hnewline
  exact hnewline.1 hmem

/-- A process is taken to be running unless a single one is listed, and it
looks like a shell. -/
theorem running_output_iff :
    running (t.output found) ↔ ¬ ∃ p, t.listed found = [p] ∧ matchesSh p.line := by
  have hlines : ∀ line ∈ (t.listed found).map Process.line, '\n' ∉ line := by
    intro line hline
    obtain ⟨p, -, rfl⟩ := List.mem_map.mp hline
    exact p.newline_notMem_line
  rw [running_iff, Table.output, lines_statusOutput hlines, not_iff_not]
  cases hlisted : t.listed found with
  | nil =>
      refine iff_of_false ?_ (by simp)
      rintro ⟨line, hempty, hmatch⟩
      obtain rfl : [] = line := List.singleton_inj.mp hempty
      exact absurd hmatch (by decide)
  | cons p rest =>
      rw [List.map_cons, if_neg (List.cons_ne_nil _ _)]
      constructor
      · rintro ⟨line, hline, hmatch⟩
        obtain ⟨rfl, hrest⟩ := List.cons.inj hline
        exact ⟨p, by rw [List.map_eq_nil_iff.mp hrest], hmatch⟩
      · rintro ⟨other, hother, hmatch⟩
        obtain ⟨rfl, rfl⟩ := List.cons.inj hother
        exact ⟨p.line, rfl, hmatch⟩

theorem Table.listed_of_found (h : found t.shell.commandLine) :
    t.listed found = t.before.filter (fun p => found p.commandLine) ++
      t.shell :: t.after.filter (fun p => found p.commandLine) := by
  rw [listed, List.filter_append, List.filter_cons, if_pos (by exact h)]

theorem Table.listed_of_not_found (h : ¬ found t.shell.commandLine) :
    t.listed found = t.others.filter (fun p => found p.commandLine) := by
  rw [listed, List.filter_append, List.filter_cons, if_neg (by exact h), others, List.filter_append]

/-- Some process other than the shell is listed. -/
def Table.Present (found : Text → Bool) (t : Table) : Prop :=
  ∃ p ∈ t.others, found p.commandLine

/-- Where the pattern is found in its own text, a process is taken to be
running if one is. -/
theorem running_output_iff_present (h : found t.shell.commandLine) :
    running (t.output found) ↔ t.Present found := by
  have hothers : t.Present found ↔ ¬ (t.before.filter (fun p => found p.commandLine) = [] ∧
      t.after.filter (fun p => found p.commandLine) = []) := by
    rw [← List.append_eq_nil_iff, ← List.filter_append, List.filter_eq_nil_iff]
    simp [Table.Present, Table.others]
  rw [running_output_iff, hothers, not_iff_not, Table.listed_of_found h]
  constructor
  · rintro ⟨p, hlisted, -⟩
    have hlength := congrArg List.length hlisted
    rw [List.length_append, List.length_cons, List.length_singleton] at hlength
    constructor
    · exact List.length_eq_zero_iff.mp (by omega)
    · exact List.length_eq_zero_iff.mp (by omega)
  · rintro ⟨hbefore, hafter⟩
    rw [hbefore, hafter]
    exact ⟨t.shell, rfl, t.matchesSh_shell⟩

/-- A table with nothing but the shell that looks for `d`. -/
def deserted : Table where
  before := []
  shell := ⟨['1'], ['s', 'h', ' ', 'd'], ['s', 'h'], by decide⟩
  after := []
  isShell := by decide

def listsD (line : Text) : Bool := 'd' ∈ line

/-- The process table at each check: in a round, for a search, at first and
after each start; and what `pgrep` finds a pattern in. -/
structure World where
  found : Text → Text → Bool
  first : ℕ → Text → Table
  afterStart : ℕ → Text → ℕ → Table
  connectError : Option Text
  sendError : Option Text

/-- What the watchdog is answered. -/
def World.answers (w : World) (config : Config) (round : ℕ) (search : Text) : Answers :=
  let pattern := (config.searches.lookup search).getD []
  ⟨(w.first round search).output (w.found pattern),
    fun x => (w.afterStart round search x).output (w.found pattern), w.connectError, w.sendError⟩

/-- Each pattern is found in the command line of the shell that looks for it. -/
structure World.FindsItself (w : World) (config : Config) : Prop where
  first : ∀ round, ∀ item ∈ config.searches.entries,
    w.found item.2 (w.first round item.1).shell.commandLine
  afterStart : ∀ round, ∀ item ∈ config.searches.entries, ∀ x,
    w.found item.2 (w.afterStart round item.1 x).shell.commandLine

variable {w : World} {config : Config} {round : ℕ} {item : (_ : Text) × Text}

theorem World.answers_eq (hitem : item ∈ config.searches.entries) :
    w.answers config round item.1 =
      ⟨(w.first round item.1).output (w.found item.2),
        fun x => (w.afterStart round item.1 x).output (w.found item.2), w.connectError,
        w.sendError⟩ := by
  rw [answers, AList.mem_lookup_iff.mpr hitem, Option.getD_some]

/-- What is left of the exceptions when the answers come from process tables:
the watchdog goes on exactly as long as each process is there when it looks,
or after one of the three starts. -/
theorem survives_iff (hself : w.FindsItself config) (hitem : item ∈ config.searches.entries) :
    Survives (w.answers config round item.1) item.2 ↔
      (w.first round item.1).Present (w.found item.2) ∨
        (∃ words, Shlex.split item.2 = .ok words) ∧
          ∃ x, 1 ≤ x ∧ x ≤ 3 ∧ (w.afterStart round item.1 x).Present (w.found item.2) := by
  rw [Survives, World.answers_eq hitem, running_output_iff_present (hself.first round item hitem)]
  simp only [running_output_iff_present (hself.afterStart round item hitem _)]

/-- Nothing is ever found but the shell. -/
def desertedWorld : World where
  found pattern line := pattern <:+: line
  first _ _ := deserted
  afterStart _ _ _ := deserted
  connectError := none
  sendError := none

theorem desertedWorld_findsItself : desertedWorld.FindsItself (configOf ['d']) := by
  constructor
  · intro round item hitem
    obtain rfl := List.mem_singleton.mp hitem
    exact (by decide : decide (['d'] <:+: ['s', 'h', ' ', 'd']) = true)
  · intro round item hitem x
    obtain rfl := List.mem_singleton.mp hitem
    exact (by decide : decide (['d'] <:+: ['s', 'h', ' ', 'd']) = true)

/-- What is asked for in a configuration that has been written. -/
theorem Settings.asks_iff (s : Settings) {name pattern : Text} :
    Asks (writeConf s.toConfig) name pattern ↔ ⟨name, pattern⟩ ∈ s.searches.entries := by
  have hlookup : s.globals.searches.lookup name = s.searches.entries.dlookup name := rfl
  rw [Asks, ← lookup_load, load_writeConf, hlookup, ← Option.mem_def,
    List.mem_dlookup_iff s.searches.nodupKeys]

/-- A configuration with one search. -/
def onlyD : Settings where
  toConfig := {configOf ['d'] with server := ['v'], reportEmail := ['e'], domain := ['q']}
  server_isValue := ⟨by decide, by decide⟩
  reportEmail_isValue := ⟨by decide, by decide⟩
  domain_isValue := ⟨by decide, by decide⟩
  searches_isValue := by
    intro item hitem
    obtain rfl := List.mem_singleton.mp hitem
    have hname : IsSearchName (search ++ ['1']) :=
      ⟨['1'], rfl, List.cons_ne_nil _ _, List.forall_mem_singleton.mpr rfl⟩
    exact ⟨hname, by decide, by decide⟩

def Action.isStart : Action → Bool
  | .popen _ => true
  | _ => false

/-- How often a process is started. -/
def starts (actions : List Action) : ℕ := actions.countP Action.isStart

def Action.seconds : Action → ℕ
  | .sleep seconds => seconds
  | _ => 0

/-- How long the watchdog sleeps. -/
def elapsed (actions : List Action) : ℕ := (actions.map Action.seconds).sum

/-- The starts that a search makes. -/
def needed (answers : Answers) (pattern : Text) : ℕ :=
  if running answers.first ∨ (Shlex.split pattern).toOption = none then 0
  else if running (answers.afterStart 1) then 1
  else if running (answers.afterStart 2) then 2
  else 3

section Effort

variable (first second : List Action)

@[simp] theorem starts_nil : starts [] = 0 := rfl

@[simp] theorem starts_cons (a : Action) :
    starts (a :: first) = starts first + if a.isStart then 1 else 0 := List.countP_cons

@[simp] theorem starts_append : starts (first ++ second) = starts first + starts second :=
  List.countP_append

@[simp] theorem elapsed_nil : elapsed [] = 0 := rfl

@[simp] theorem elapsed_cons (a : Action) :
    elapsed (a :: first) = a.seconds + elapsed first := rfl

@[simp] theorem elapsed_append : elapsed (first ++ second) = elapsed first + elapsed second := by
  rw [elapsed, List.map_append, List.sum_append]
  rfl

end Effort

theorem starts_attempt (search pattern : Text) (args : List Text) :
    starts (attempt search pattern args) = 1 ∧ elapsed (attempt search pattern args) = 5 :=
  ⟨rfl, rfl⟩

section Needed

variable (config : Config) (answers : Answers) (search pattern : Text)

/-- The loop starts the process until it is found, three times at most. -/
theorem startLoop_effort (args : List Text) :
    starts (startLoop config answers search pattern args 3).actions =
        (if running (answers.afterStart 1) then 1
          else if running (answers.afterStart 2) then 2 else 3) ∧
      elapsed (startLoop config answers search pattern args 3).actions =
        5 * (if running (answers.afterStart 1) then 1
          else if running (answers.afterStart 2) then 2 else 3) := by
  obtain ⟨hstarts, helapsed⟩ := starts_attempt search pattern args
  by_cases hone : running (answers.afterStart 1)
  · rw [startLoop_of_running _ _ _ _ hone, hstarts, helapsed, if_pos hone]
    exact ⟨rfl, rfl⟩
  · rw [startLoop_of_not_running _ _ _ _ hone, if_neg hone, starts_append, elapsed_append,
      hstarts, helapsed]
    by_cases htwo : running (answers.afterStart 2)
    · rw [startLoop_of_running _ _ _ _ htwo, hstarts, helapsed, if_pos htwo]
      exact ⟨rfl, rfl⟩
    · rw [startLoop_of_not_running _ _ _ _ htwo, if_neg htwo, starts_append, elapsed_append,
        hstarts, helapsed]
      by_cases hthree : running (answers.afterStart 3)
      · rw [startLoop_of_running _ _ _ _ hthree, hstarts, helapsed]
        exact ⟨rfl, rfl⟩
      · rw [startLoop_last _ _ _ _ hthree, hstarts, helapsed]
        exact ⟨rfl, rfl⟩

theorem runSearch_effort :
    starts (runSearch config answers search pattern).actions = needed answers pattern ∧
      elapsed (runSearch config answers search pattern).actions =
        5 * needed answers pattern := by
  by_cases hrunning : running answers.first
  · rw [runSearch_of_running hrunning, needed, if_pos (.inl hrunning)]
    exact ⟨rfl, rfl⟩
  · rw [runSearch_of_not_running hrunning]
    cases hsplit : Shlex.split pattern with
    | error message =>
        rw [restartProcess_of_error config search hsplit, needed, hsplit, if_pos (.inr rfl)]
        exact ⟨rfl, rfl⟩
    | ok args =>
        obtain ⟨hstarts, helapsed⟩ := startLoop_effort config answers search pattern args
        have hneeded : ¬ (running answers.first ∨ (Except.ok args : Except String
            (List Text)).toOption = none) := fun h => h.elim hrunning (nomatch ·)
        rw [restartProcess_of_ok config search hsplit, needed, hsplit, if_neg hneeded]
        refine ⟨hstarts, ?_⟩
        have hcheck : elapsed (check search pattern ++ [.log (.restarting pattern)]) = 0 := rfl
        rw [List.append_cons, elapsed_append, hcheck, Nat.zero_add, helapsed]

end Needed

/-- Parts that each take so long, and five seconds for each start. -/
theorem effort_flatMap {ι : Type*} {l : List ι} {f : ι → List Action} {g : ι → ℕ} {c : ℕ}
    (h : ∀ i ∈ l, starts (f i) = g i ∧ elapsed (f i) = c + 5 * g i) :
    starts (l.flatMap f) = (l.map g).sum ∧
      elapsed (l.flatMap f) = c * l.length + 5 * (l.map g).sum := by
  induction l with
  | nil => exact ⟨rfl, rfl⟩
  | cons i l ih =>
      rw [List.forall_mem_cons] at h
      obtain ⟨hstarts, helapsed⟩ := ih h.2
      rw [List.flatMap_cons, starts_append, elapsed_append, hstarts, helapsed, h.1.1, h.1.2,
        List.map_cons, List.sum_cons, List.length_cons]
      refine ⟨rfl, ?_⟩
      rw [Nat.mul_succ]
      omega

/-- A round that comes to its end. -/
theorem pass_effort {answers : Text → Answers} (hne : config.searches.entries ≠ [])
    (h : (pass config answers).result = .ok ()) :
    starts (pass config answers).actions =
        (config.searches.entries.map fun item => needed (answers item.1) item.2).sum ∧
      elapsed (pass config answers).actions =
        10 + 5 * (config.searches.entries.map fun item => needed (answers item.1) item.2).sum := by
  obtain ⟨hstarts, helapsed⟩ := effort_flatMap (l := config.searches.entries)
    (f := fun item => (searchOf config answers item).actions)
    (g := fun item => needed (answers item.1) item.2) (c := 0)
    (fun item _ => by
      obtain ⟨hstarts, helapsed⟩ := runSearch_effort config (answers item.1) item.1 item.2
      exact ⟨hstarts, helapsed.trans (Nat.zero_add _).symm⟩)
  rw [pass_of_survives hne ((pass_result_iff hne).mp h)]
  simp [Action.isStart, Action.seconds, hstarts, helapsed]
  omega

/-- As long as the watchdog goes on, it makes as many starts as its searches need
in all its rounds together, and takes ten seconds for each round and five for
each start. -/
theorem watch_effort {answers : ℕ → Text → Answers} {n : ℕ}
    (hgoes : (watch config answers n).result = .ok ()) :
    starts (watch config answers n).actions =
        ((List.range n).map fun round => (config.searches.entries.map fun item =>
          needed (answers round item.1) item.2).sum).sum ∧
      elapsed (watch config answers n).actions =
        10 * n + 5 * ((List.range n).map fun round => (config.searches.entries.map fun item =>
          needed (answers round item.1) item.2).sum).sum := by
  by_cases hnil : config.searches.entries = []
  · cases n with
    | zero => exact ⟨rfl, rfl⟩
    | succ n =>
        rw [watch_of_nil hnil n.succ_pos] at hgoes
        cases hgoes
  · have hpasses := Script.forEach_result_iff.mp hgoes
    obtain ⟨hstarts, helapsed⟩ := effort_flatMap
      (fun round hround => pass_effort hnil (hpasses round hround))
    rw [watch, Script.forEach_of_ok hpasses]
    exact ⟨hstarts, by rw [helapsed, List.length_range]⟩

/-- The process is found after the second start. -/
def slowStart : Answers where
  first := onlyShell
  afterStart x := if x = 2 then ['7', ' ', 'd'] else onlyShell
  connectError := none
  sendError := none

theorem watch_slowStart :
    (watch (configOf ['d']) (fun _ _ => slowStart) 1).result = .ok () := by
  refine Script.forEach_result_iff.mpr fun round _ => (pass_result_iff (by decide)).mpr ?_
  intro item hitem
  obtain rfl := List.mem_singleton.mp hitem
  refine .inr ⟨⟨[['d']], rfl⟩, 2, by decide, by decide, running_iff.mpr ?_⟩
  rintro ⟨line, hlines, hmatch⟩
  obtain rfl : ['7', ' ', 'd'] = line := List.singleton_inj.mp hlines
  exact absurd hmatch (by decide)

theorem watch_effort_slowStart :
    starts (watch (configOf ['d']) (fun _ _ => slowStart) 1).actions =
        ((List.range 1).map fun _ => ((configOf ['d']).searches.entries.map fun item =>
          needed slowStart item.2).sum).sum ∧
      elapsed (watch (configOf ['d']) (fun _ _ => slowStart) 1).actions =
        10 * 1 + 5 * ((List.range 1).map fun _ => ((configOf ['d']).searches.entries.map fun item =>
          needed slowStart item.2).sum).sum :=
  watch_effort watch_slowStart

end L1Comm.Watchman
