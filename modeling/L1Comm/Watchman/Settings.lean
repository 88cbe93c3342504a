import L1Comm.Watchman.Configuration
import L1Comm.Watchman.Rounds

/-!
Configurations that are written to a file and read back, whatever the order of
their lines and whatever stands between them that sets nothing, and what the
file means to the main loop: without a search there is nothing to watch.
-/

namespace L1Comm.Watchman

open Python

/-- A value that fits on a line. -/
structure IsValue (value : Text) : Prop where
  ne_nil : value ≠ []
  newline_notMem : '\n' ∉ value

/-- A configuration that can be written. -/
structure Settings extends Config where
  server_isValue : IsValue server
  reportEmail_isValue : IsValue reportEmail
  domain_isValue : IsValue domain
  searches_isValue : ∀ item ∈ searches.entries, IsSearchName item.1 ∧ IsValue item.2

/-- The keys and values of a configuration. -/
def settings (config : Config) : List (Σ _ : Text, Text) :=
  ⟨server, config.server⟩ :: ⟨reportEmail, config.reportEmail⟩ :: ⟨domain, config.domain⟩ ::
    config.searches.entries

def setting (item : Σ _ : Text, Text) : Text := item.1 ++ '=' :: item.2

/-- The lines of `watchman.conf`, with its two section headers. -/
def confLines (config : Config) : List Text :=
  ["[General]".toList, setting ⟨server, config.server⟩,
    setting ⟨reportEmail, config.reportEmail⟩, setting ⟨domain, config.domain⟩,
    "[Searches]".toList] ++ config.searches.entries.map setting

def writeConf (config : Config) : Text := (confLines config).flatMap (· ++ ['\n'])

def headers : List Text := ["[General]".toList, "[Searches]".toList]

theorem perm_confLines (config : Config) :
    (confLines config).Perm ((settings config).map setting ++ headers) := by
  rw [List.perm_iff_count]
  intro line
  simp only [confLines, settings, headers, List.map_cons, List.cons_append, List.nil_append,
    List.count_cons, List.count_append, List.count_nil]
  omega

theorem newline_notMem_headers : ∀ line ∈ headers, '\n' ∉ line := by decide

theorem equals_notMem_headers : ∀ line ∈ headers ++ [[]], '=' ∉ line := by decide

theorem not_isSetting {key value line : Text} (h : '=' ∉ line) : ¬ IsSetting key value line := by
  rintro ⟨-, -, rfl⟩
  exact h (List.mem_append_right _ List.mem_cons_self)

/-- What lines that set different keys set. -/
theorem filterMap_setting {entries : List (Σ _ : Text, Text)} (hnodup : entries.NodupKeys)
    (hsettings : ∀ item ∈ entries, IsSetting item.1 item.2 (setting item)) {key : Text}
    (hkey : IsKey key) :
    (entries.map setting).filterMap (valueAfter key) = (entries.dlookup key).toList := by
  induction entries with
  | nil => rfl
  | cons item rest ih =>
      obtain ⟨hnotMem, hrest⟩ := List.nodupKeys_cons.mp hnodup
      obtain ⟨hitem, hitems⟩ := List.forall_mem_cons.mp hsettings
      obtain ⟨name, value⟩ := item
      rw [List.map_cons, List.filterMap_cons, ih hrest hitems]
      by_cases heq : key = name
      · subst heq
        rw [hitem.valueAfter, List.dlookup_cons_eq, List.dlookup_eq_none.mpr hnotMem]
        rfl
      · rw [hitem.valueAfter_of_ne hkey heq, List.dlookup_cons_ne _ _ heq]

theorem IsSearchName.head?_eq {name : Text} (h : IsSearchName name) : name.head? = some 'S' := by
  obtain ⟨digits, rfl, -⟩ := h
  rfl

theorem IsSearchName.ne {name key : Text} (h : IsSearchName name) (hkey : key.head? ≠ some 'S') :
    name ≠ key := by
  rintro rfl
  exact hkey h.head?_eq

theorem dlookup_settings (config : Config) {name : Text} (hname : IsSearchName name) :
    (settings config).dlookup name = config.searches.entries.dlookup name := by
  have hserver : name ≠ server := hname.ne (by decide)
  have hreport : name ≠ reportEmail := hname.ne (by decide)
  have hdomain : name ≠ domain := hname.ne (by decide)
  rw [settings, List.dlookup_cons_ne _ _ hserver, List.dlookup_cons_ne _ _ hreport,
    List.dlookup_cons_ne _ _ hdomain]

section Settings

variable (s : Settings)

theorem Settings.isValue : ∀ item ∈ settings s.toConfig, IsKey item.1 ∧ IsValue item.2 := by
  simp only [settings, List.forall_mem_cons]
  refine ⟨⟨.server, s.server_isValue⟩, ⟨.reportEmail, s.reportEmail_isValue⟩,
    ⟨.domain, s.domain_isValue⟩, ?_⟩
  intro item hitem
  obtain ⟨hname, hvalue⟩ := s.searches_isValue item hitem
  exact ⟨.search hname, hvalue⟩

theorem Settings.isSetting :
    ∀ item ∈ settings s.toConfig, IsSetting item.1 item.2 (setting item) := by
  intro item hitem
  obtain ⟨hkey, hvalue⟩ := s.isValue item hitem
  exact ⟨hkey, hvalue.ne_nil, rfl⟩

theorem Settings.newline_notMem {line : Text} (hline : line ∈ (settings s.toConfig).map setting) :
    '\n' ∉ line := by
  obtain ⟨item, hitem, rfl⟩ := List.mem_map.mp hline
  obtain ⟨hkey, hvalue⟩ := s.isValue item hitem
  rw [setting, List.mem_append, List.mem_cons, not_or, not_or]
  exact ⟨hkey.newline_notMem, by decide, hvalue.newline_notMem⟩

/-- Each key is written once. -/
theorem Settings.nodupKeys : (settings s.toConfig).NodupKeys := by
  have hnotMem {key : Text} (hkey : key.head? ≠ some 'S') : key ∉ s.searches.entries.keys := by
    intro hmem
    obtain ⟨value, hitem⟩ := List.exists_of_mem_keys hmem
    exact (s.searches_isValue _ hitem).1.ne hkey rfl
  simp only [settings, List.nodupKeys_cons, List.keys_cons, List.mem_cons, not_or]
  exact ⟨⟨by decide, by decide, hnotMem (by decide)⟩, ⟨by decide, hnotMem (by decide)⟩,
    hnotMem (by decide), s.searches.nodupKeys⟩

section Perm

variable {s} {ls others : List Text}
  (hperm : ls.Perm ((settings s.toConfig).map setting ++ others))
  (hothers : ∀ line ∈ others, ∀ key value, ¬ IsSetting key value line)

include hperm hothers

theorem Settings.lastValue_of_perm {key : Text} (hkey : IsKey key) :
    lastValue key ls = (settings s.toConfig).dlookup key := by
  have hnone : others.filterMap (valueAfter key) = [] := by
    rw [List.filterMap_eq_nil_iff]
    intro line hline
    exact valueAfter_of_not_isSetting hkey (hothers line hline)
  have hvalues := hperm.filterMap (valueAfter key)
  rw [List.filterMap_append, filterMap_setting s.nodupKeys s.isSetting hkey, hnone,
    List.append_nil] at hvalues
  rw [lastValue, Machine.lastSet]
  cases hlookup : (settings s.toConfig).dlookup key with
  | none =>
      rw [hlookup] at hvalues
      rw [hvalues.eq_nil]
      rfl
  | some value =>
      rw [hlookup] at hvalues
      rw [List.perm_singleton.mp hvalues]
      rfl

theorem Settings.loaded_of_perm : Loaded ls s.globals := by
  have hvalue {key : Text} (hkey : IsKey key) := Settings.lastValue_of_perm hperm hothers hkey
  constructor
  · rw [hvalue .server]
    rfl
  · rw [hvalue .domain]
    rfl
  · rw [hvalue .reportEmail]
    rfl
  · intro name value
    have hlookup : s.globals.searches.lookup name = s.searches.entries.dlookup name := rfl
    rw [hlookup]
    constructor
    · intro h
      have hname := (s.searches_isValue _ (List.of_mem_dlookup h)).1
      rw [hvalue (.search hname), dlookup_settings s.toConfig hname]
      exact ⟨hname, h⟩
    · rintro ⟨hname, h⟩
      rw [hvalue (.search hname), dlookup_settings s.toConfig hname] at h
      exact h

end Perm

/-- A file that contains the lines of a configuration once each, in any order and
among any lines that set nothing, is read as this configuration. -/
theorem load_of_perm {conf : Text} {others : List Text}
    (hperm : (lines conf).Perm ((settings s.toConfig).map setting ++ others))
    (hothers : ∀ line ∈ others, ∀ key value, ¬ IsSetting key value line) :
    load conf = s.globals :=
  (Settings.loaded_of_perm hperm hothers).eq (load_loaded conf) fun _ _ => rfl

/-- What is written is read back. -/
theorem load_writeConf : load (writeConf s.toConfig) = s.globals := by
  have hperm := perm_confLines s.toConfig
  have hlines : lines (writeConf s.toConfig) = confLines s.toConfig ++ [[]] := by
    apply lines_flatMap
    intro line hline
    rcases List.mem_append.mp (hperm.mem_iff.mp hline) with hsetting | hheader
    · exact s.newline_notMem hsetting
    · exact newline_notMem_headers line hheader
  have hwritten : (lines (writeConf s.toConfig)).Perm
      ((settings s.toConfig).map setting ++ (headers ++ [[]])) := by
    rw [hlines, ← List.append_assoc]
    exact hperm.append_right [[]]
  apply load_of_perm s hwritten
  intro line hline key value
  exact not_isSetting (equals_notMem_headers line hline)

end Settings

/-- The configuration is read as specified: the globals of a readable file are
those that its lines describe; a line that gives no key a value has no effect;
a configuration that is written in the format of the file, in any order and
among any lines without effect, is read back; and two lines of different keys
may change places exactly if, for each of the two keys, a line behind both has
it, or the last line between them that has it gives it the same value, or no
line between them has it. -/
theorem configuration_read :
    (∀ conf, loadConfig (.readable conf) = pure (load conf) ∧ Loaded (lines conf) (load conf)) ∧
      (∀ conf conf' before line after, (∀ key value, ¬ IsSetting key value line) →
        lines conf = before ++ line :: after → lines conf' = before ++ after →
        load conf' = load conf) ∧
      (∀ s : Settings, load (writeConf s.toConfig) = s.globals) ∧
      (∀ (s : Settings) conf others, (∀ line ∈ others, ∀ key value, ¬ IsSetting key value line) →
        (lines conf).Perm ((settings s.toConfig).map setting ++ others) →
        load conf = s.globals) ∧
      ∀ conf conf' before between after line line' key key' value value',
        IsSetting key value line → IsSetting key' value' line' → key ≠ key' →
        lines conf = before ++ line :: between ++ line' :: after →
        lines conf' = before ++ line' :: between ++ line :: after →
        (load conf' = load conf ↔
          Undisturbed key value between after ∧ Undisturbed key' value' between after) := by
  refine ⟨fun conf => ⟨rfl, load_loaded conf⟩, ?_, load_writeConf, ?_, ?_⟩
  · intro conf conf' before line after hline h h'
    exact load_eq_of_not_isSetting hline h h'
  · intro s conf others hothers hperm
    exact load_of_perm s hperm hothers
  · intro conf conf' before between after line line' key key' value value' hline hline' hne h h'
    exact load_exchange_iff hline hline' hne h h'

/-- Exchanging `server=a` and `domain=x` around `server=b` lets another server
win. -/
theorem exchange_changes :
    ¬ ∀ conf conf' before between after line line' key key' value value',
      IsSetting key value line → IsSetting key' value' line' → key ≠ key' →
      lines conf = before ++ line :: between ++ line' :: after →
      lines conf' = before ++ line' :: between ++ line :: after →
      load conf' = load conf := by
  intro hall
  have hload := hall "server=a\nserver=b\ndomain=x".toList "domain=x\nserver=b\nserver=a".toList
    [] ["server=b".toList] [] "server=a".toList "domain=x".toList server domain ['a'] ['x']
    ⟨.server, by decide, rfl⟩ ⟨.domain, by decide, rfl⟩ (by decide) (by decide) (by decide)
  exact absurd (congrArg Globals.server hload) (by decide)

/-! ## The main loop on a file -/

section Watch

variable {config : Config} {conf : Text}

/-- In any order of the dictionary, it is empty if and only if no line of the
file names a search. -/
theorem entries_eq_nil_iff (h : config.globals = load conf) :
    config.searches.entries = [] ↔
      ∀ name, IsSearchName name → lastValue name (lines conf) = none := by
  have hlookup (name : Text) : config.searches.entries.dlookup name =
      (load conf).searches.lookup name := by
    rw [← h]
    rfl
  constructor
  · intro hnil name hname
    rw [Option.eq_none_iff_forall_ne_some]
    intro value hvalue
    have hsome := (lookup_load conf name value).mpr ⟨hname, hvalue⟩
    rw [← hlookup, hnil] at hsome
    cases hsome
  · intro hnone
    rw [List.eq_nil_iff_forall_not_mem]
    intro item hitem
    have hsome := List.mem_dlookup config.searches.nodupKeys hitem
    rw [Option.mem_def, hlookup, lookup_load] at hsome
    obtain ⟨hname, hvalue⟩ := hsome
    rw [hnone item.1 hname] at hvalue
    cases hvalue

/-- The watchdog has nothing to do with a file without searches, and says so. -/
theorem watch_of_no_searches (h : config.globals = load conf)
    (hnone : ∀ name, IsSearchName name → lastValue name (lines conf) = none)
    (answers : ℕ → Text → Answers) {n : ℕ} (hn : 0 < n) :
    watch config answers n = ⟨[.log .noSearches], .error .systemExit⟩ :=
  watch_of_nil ((entries_eq_nil_iff h).mpr hnone) hn

/-- No line of the blank configuration starts like a search. -/
theorem lastValue_blankConf {name : Text} (hname : IsSearchName name) :
    lastValue name (lines blankConf) = none := by
  have hhead : (lines blankConf).all (·.head? ≠ some 'S') := by decide +kernel
  rw [lastValue, Machine.lastSet, List.getLast?_eq_none_iff, List.filterMap_eq_nil_iff]
  intro line hline
  rw [Option.eq_none_iff_forall_ne_some]
  intro value hvalue
  obtain ⟨-, rfl⟩ := valueAfter_eq_some.mp hvalue
  have hne := of_decide_eq_true (List.all_eq_true.mp hhead _ hline)
  rw [List.head?_append, hname.head?_eq] at hne
  exact hne rfl

/-- After `loadConfig` has created a blank configuration there is nothing to do. -/
theorem watch_of_creatable (h : (loadConfig .creatable).result = .ok config.globals)
    (answers : ℕ → Text → Answers) {n : ℕ} (hn : 0 < n) :
    watch config answers n = ⟨[.log .noSearches], .error .systemExit⟩ := by
  have hload : load blankConf = config.globals := Except.ok.inj h
  exact watch_of_no_searches hload.symm (fun _ => lastValue_blankConf) answers hn

end Watch

end L1Comm.Watchman
