import L1Comm.Watchman.LoadConfig

/-!
What `loadConfig` reads from a file. Only the lines that give one of the keys a
value matter, and of those the last one of each key; the rules of the loop do
not get into each other's way, whatever the values contain, since a line has
one key: what stands before its first equals sign. Two files mean the same if
and only if the last value of each key is the same in both, which says what
may be left out of a file and which of its lines may change places.
-/

namespace L1Comm.Watchman

open Python

/-! ## Lines that give a key a value -/

/-- `Search` followed by one or more decimal digits. -/
def IsSearchName (name : Text) : Prop :=
  ∃ digits, name = search ++ digits ∧ digits ≠ [] ∧ ∀ c ∈ digits, digit c

/-- What a line can give a value. -/
inductive IsKey : Text → Prop where
  | server : IsKey server
  | domain : IsKey domain
  | reportEmail : IsKey reportEmail
  | search {name : Text} (h : IsSearchName name) : IsKey name

/-- The line consists of the key, an equals sign and the value. -/
structure IsSetting (key value line : Text) : Prop where
  isKey : IsKey key
  value_ne_nil : value ≠ []
  line_eq : line = key ++ '=' :: value

/-- What stands on the line behind the key and an equals sign, if the line
starts with these and at least one more character. -/
def valueAfter (key line : Text) : Option Text :=
  if (key ++ ['=']).isPrefixOf line ∧ line.length ≠ key.length + 1 then
    some (line.drop (key.length + 1))
  else none

/-- The value on the last line that has one for the key. -/
def lastValue (key : Text) (ls : List Text) : Option Text := Machine.lastSet (valueAfter key) ls

/-- The globals are those that the lines describe. -/
structure Loaded (ls : List Text) (g : Globals) : Prop where
  server : g.server = (lastValue server ls).getD []
  domain : g.domain = (lastValue domain ls).getD []
  reportEmail : g.reportEmail = (lastValue reportEmail ls).getD []
  searches : ∀ name value, g.searches.lookup name = some value ↔
    IsSearchName name ∧ lastValue name ls = some value

theorem valueAfter_eq_some {key line value : Text} :
    valueAfter key line = some value ↔ value ≠ [] ∧ line = key ++ '=' :: value := by
  rw [valueAfter, Option.ite_none_right_eq_some, List.isPrefixOf_iff_prefix]
  constructor
  · rintro ⟨⟨⟨tail, rfl⟩, hlength⟩, htail⟩
    have hdrop : (key ++ ['='] ++ tail).drop (key.length + 1) = tail := by
      apply List.drop_left'
      simp
    rw [hdrop, Option.some_inj] at htail
    subst htail
    refine ⟨?_, by simp⟩
    rintro rfl
    exact hlength (by simp)
  · rintro ⟨hne, rfl⟩
    refine ⟨⟨⟨value, by simp⟩, ?_⟩, by simp⟩
    have hpos := List.length_pos_of_ne_nil hne
    rw [List.length_append, List.length_cons]
    omega

theorem IsSetting.valueAfter {key value line : Text} (h : IsSetting key value line) :
    valueAfter key line = some value :=
  valueAfter_eq_some.mpr ⟨h.value_ne_nil, h.line_eq⟩

/-- Keys are made of the letters of four words and of digits. -/
theorem notMem_of_isKey {key : Text} (h : IsKey key) {c : Char}
    (hletter : c ∉ server ++ domain ++ reportEmail ++ search) (hdigit : ¬ digit c) : c ∉ key := by
  simp only [List.mem_append, not_or] at hletter
  obtain ⟨⟨⟨hserver, hdomain⟩, hreport⟩, hsearch⟩ := hletter
  cases h with
  | server => exact hserver
  | domain => exact hdomain
  | reportEmail => exact hreport
  | search hname =>
      obtain ⟨digits, rfl, -, hdigits⟩ := hname
      rw [List.mem_append, not_or]
      exact ⟨hsearch, fun hmem => hdigit (hdigits c hmem)⟩

theorem IsKey.equals_notMem {key : Text} (h : IsKey key) : '=' ∉ key :=
  notMem_of_isKey h (by decide) (by decide)

theorem IsKey.newline_notMem {key : Text} (h : IsKey key) : '\n' ∉ key :=
  notMem_of_isKey h (by decide) (by decide)

/-- A line has one key. -/
theorem IsSetting.valueAfter_of_ne {key other value line : Text} (h : IsSetting key value line)
    (hother : IsKey other) (hne : other ≠ key) : Watchman.valueAfter other line = none := by
  rw [Option.eq_none_iff_forall_ne_some]
  intro value' hvalue'
  obtain ⟨-, hline⟩ := valueAfter_eq_some.mp hvalue'
  rw [h.line_eq] at hline
  exact hne (eq_of_append_cons_eq h.isKey.equals_notMem hother.equals_notMem hline).symm

theorem valueAfter_of_not_isSetting {key line : Text} (hkey : IsKey key)
    (h : ∀ key value, ¬ IsSetting key value line) : valueAfter key line = none := by
  rw [Option.eq_none_iff_forall_ne_some]
  intro value hvalue
  obtain ⟨hne, hline⟩ := valueAfter_eq_some.mp hvalue
  exact h key value ⟨hkey, hne, hline⟩

/-! ## What a line of the file does -/

theorem assign_eq (key old line : Text) : assign key old line = (group key line).getD old := by
  have hnames : names key line = (group key line).isSome := by
    rw [names, group, Option.isSome_map, literalGroup_isSome]
    congr 1
    funext tail
    rw [restOfLine, plusGroup_isSome]
    rfl
  rw [assign, hnames]
  cases group key line with
  | none => rfl
  | some value => rfl

/-- The rules that skip a line skip none that would set anything, and no rule
prevents another. -/
theorem readLine_eq (g : Globals) (line : Text) :
    readLine g line =
      {server := (group server line).getD g.server
       domain := (group domain line).getD g.domain
       reportEmail := (group reportEmail line).getD g.reportEmail
       searches := match searchGroups line with
        | some (name, value) => g.searches.insert name value
        | none => g.searches} := by
  rw [readLine]
  split
  · next h =>
      obtain ⟨tail, rfl, -⟩ := literal_iff.mp h
      rfl
  split
  · next h =>
      obtain ⟨tail, rfl, -⟩ := literal_iff.mp h
      rfl
  split
  · next h =>
      rw [h]
      rfl
  · simp only [assign_eq]
    cases searchGroups line with
    | none => rfl
    | some found => rfl

section Line

variable {key name line tail value : Text} (hline : '\n' ∉ line) (htail : ∀ c ∈ tail.head?, ¬ dot c)

include hline htail

theorem group_append (hkey : IsKey key) : group key (line ++ tail) = valueAfter key line := by
  have hword : '\n' ∉ key ++ ['='] := by
    rw [List.mem_append, not_or]
    exact ⟨hkey.newline_notMem, by decide⟩
  apply Option.ext
  intro value
  rw [valueAfter_eq_some, group, Option.map_eq_some_iff, List.append_cons key '=' value,
    ← literalGroup_restOfLine htail hword hline]
  constructor
  · rintro ⟨⟨found, u⟩, hfound, rfl⟩
    exact hfound
  · intro h
    exact ⟨(value, ()), h, rfl⟩

theorem searchGroups_append :
    searchGroups (line ++ tail) = some (name, value) ↔
      IsSearchName name ∧ valueAfter name line = some value := by
  rw [searchGroups, Option.map_eq_some_iff, valueAfter_eq_some]
  constructor
  · rintro ⟨⟨digits, found, u⟩, h, heq⟩
    cases heq
    obtain ⟨behind, hbehind, hdigits⟩ := literalGroup_eq_some h
    obtain ⟨rest, rfl, hne, hall, hrest⟩ := plusGroup_eq_some hdigits
    have hname : IsSearchName (search ++ digits) := ⟨digits, rfl, hne, hall⟩
    have hword : '\n' ∉ search ++ digits ++ ['='] := by
      rw [List.mem_append, not_or]
      exact ⟨(IsKey.search hname).newline_notMem, by decide⟩
    obtain ⟨after, rfl, hafter⟩ := literalGroup_eq_some hrest
    refine ⟨hname, ?_⟩
    rw [List.append_cons, ← literalGroup_restOfLine htail hword hline, hbehind,
      ← List.append_assoc, ← List.append_assoc, literalGroup_append]
    exact hafter
  · rintro ⟨⟨digits, rfl, hne, hall⟩, hvalue, rfl⟩
    refine ⟨(digits, value, ()), ?_, rfl⟩
    have hnewline : '\n' ∉ value := by
      intro hmem
      exact hline (List.mem_append_right _ (List.mem_cons_of_mem _ hmem))
    have hrest : literalGroup ['='] restOfLine ('=' :: value ++ tail) = some (value, ()) :=
      (literalGroup_append ['='] (value ++ tail)).trans (restOfLine_append htail hnewline hvalue)
    rw [List.append_assoc, List.append_assoc, literalGroup_append]
    exact plusGroup_append hne hall (by rintro c ⟨⟩; decide) hrest

end Line

/-! ## What a file does -/

/-- The loop over the lines as a machine. -/
def reader : Machine Globals Text := ⟨fun _ _ => True, readLine⟩

theorem load_eq_after (conf : Text) : load conf = reader.after .initial (fileLines conf) := rfl

/-- The value that a line of the file gives to the search of this name. -/
def searchValue (name line : Text) : Option Text :=
  (searchGroups line).bind fun found => if found.1 = name then some found.2 else none

theorem searchValue_eq_some {name line value : Text} :
    searchValue name line = some value ↔ searchGroups line = some (name, value) := by
  rw [searchValue, Option.bind_eq_some_iff]
  constructor
  · rintro ⟨⟨other, found⟩, hfound, hname⟩
    obtain ⟨rfl, hvalue⟩ := Option.ite_none_right_eq_some.mp hname
    cases hvalue
    exact hfound
  · intro h
    exact ⟨(name, value), h, if_pos rfl⟩

theorem searchValue_append {name line tail value : Text} (hline : '\n' ∉ line)
    (htail : ∀ c ∈ tail.head?, ¬ dot c) :
    searchValue name (line ++ tail) = some value ↔
      IsSearchName name ∧ valueAfter name line = some value := by
  rw [searchValue_eq_some, searchGroups_append hline htail]

theorem lookup_readLine (name : Text) (g : Globals) (line : Text) :
    (readLine g line).searches.lookup name =
      ((searchValue name line).map some).getD (g.searches.lookup name) := by
  rw [readLine_eq, searchValue]
  cases searchGroups line with
  | none => rfl
  | some found =>
      obtain ⟨other, value⟩ := found
      by_cases hother : other = name
      · subst hother
        simp
      · simp [hother, Finmap.lookup_insert_of_ne _ (Ne.symm hother)]

section Load

variable (conf : Text)

theorem lastSet_fileLines {f h : Text → Option Text} (hempty : h [] = none)
    (hline : ∀ line tail, '\n' ∉ line → (∀ c ∈ tail.head?, ¬ dot c) → f (line ++ tail) = h line) :
    Machine.lastSet f (fileLines conf) = Machine.lastSet h (lines conf) := by
  rw [Machine.lastSet, Machine.lastSet, filterMap_fileLines conf hempty hline]

theorem valueAfter_nil (key : Text) : valueAfter key [] = none := by
  rw [Option.eq_none_iff_forall_ne_some]
  intro value hvalue
  exact absurd (valueAfter_eq_some.mp hvalue).2.symm (by simp)

theorem get_load {key : Text} (hkey : IsKey key) (get : Globals → Text)
    (hstep : ∀ g line, get (readLine g line) = (group key line).getD (get g))
    (hinitial : get .initial = []) : get (load conf) = (lastValue key (lines conf)).getD [] := by
  have hvalue : Machine.lastSet (group key) (fileLines conf) = lastValue key (lines conf) := by
    apply lastSet_fileLines conf (valueAfter_nil key)
    intro line tail hline htail
    exact group_append hline htail hkey
  rw [load_eq_after, Machine.after_register get hstep, hvalue, hinitial]

theorem lookup_load_eq (name : Text) :
    (load conf).searches.lookup name = Machine.lastSet (searchValue name) (fileLines conf) := by
  have hregister := Machine.after_register (m := reader) (fun g => g.searches.lookup name)
    (lookup_readLine name) .initial (fileLines conf)
  rw [Machine.lastSet_map] at hregister
  rw [load_eq_after, hregister]
  cases Machine.lastSet (searchValue name) (fileLines conf) with
  | none => rfl
  | some value => rfl

theorem lookup_load (name value : Text) :
    (load conf).searches.lookup name = some value ↔
      IsSearchName name ∧ lastValue name (lines conf) = some value := by
  rw [lookup_load_eq]
  by_cases hname : IsSearchName name
  · have hvalue : Machine.lastSet (searchValue name) (fileLines conf) =
        lastValue name (lines conf) := by
      apply lastSet_fileLines conf (valueAfter_nil name)
      intro line tail hline htail
      apply Option.ext
      intro value
      rw [searchValue_append hline htail, and_iff_right hname]
    rw [hvalue, and_iff_right hname]
  · have hnone : Machine.lastSet (searchValue name) (fileLines conf) =
        Machine.lastSet (fun _ => none) (lines conf) := by
      apply lastSet_fileLines conf rfl
      intro line tail hline htail
      rw [Option.eq_none_iff_forall_ne_some]
      intro value hvalue
      exact hname ((searchValue_append hline htail).mp hvalue).1
    rw [hnone]
    simp [hname, Machine.lastSet]

/-- Every file is read as its lines say. -/
theorem load_loaded : Loaded (lines conf) (load conf) where
  server := get_load conf .server Globals.server (fun g line => by rw [readLine_eq]) rfl
  domain := get_load conf .domain Globals.domain (fun g line => by rw [readLine_eq]) rfl
  reportEmail := get_load conf .reportEmail Globals.reportEmail
    (fun g line => by rw [readLine_eq]) rfl
  searches := lookup_load conf

end Load

example : (load "server=a\n server=b\n#server=c\nserver=d=[#server=e\nserver=\n".toList).server =
    "d=[#server=e".toList := by
  decide

/-! ## Files that mean the same -/

theorem ne_nil_of_lastValue {key value : Text} {ls : List Text}
    (h : lastValue key ls = some value) : value ≠ [] := by
  obtain ⟨line, -, hvalue⟩ := List.mem_filterMap.mp (List.mem_of_getLast? h)
  exact (valueAfter_eq_some.mp hvalue).1

/-- Values are not empty, so the empty text stands for a missing one. -/
theorem lastValue_eq_of_getD {key : Text} {ls ls' : List Text}
    (h : (lastValue key ls').getD [] = (lastValue key ls).getD []) :
    lastValue key ls' = lastValue key ls := by
  cases hvalue' : lastValue key ls' with
  | none =>
      cases hvalue : lastValue key ls with
      | none => rfl
      | some value =>
          rw [hvalue', hvalue] at h
          exact absurd h.symm (ne_nil_of_lastValue hvalue)
  | some value' =>
      cases hvalue : lastValue key ls with
      | none =>
          rw [hvalue', hvalue] at h
          exact absurd h (ne_nil_of_lastValue hvalue')
      | some value =>
          rw [hvalue', hvalue] at h
          exact congrArg some h

section Meaning

variable {ls ls' : List Text} {g g' : Globals} (h : Loaded ls g) (h' : Loaded ls' g')

include h h'

theorem Loaded.eq (hvalues : ∀ key, IsKey key → lastValue key ls' = lastValue key ls) :
    g' = g := by
  apply Globals.ext
  · rw [h.server, h'.server, hvalues _ .server]
  · rw [h.reportEmail, h'.reportEmail, hvalues _ .reportEmail]
  · rw [h.domain, h'.domain, hvalues _ .domain]
  · apply Finmap.ext_lookup
    intro name
    apply Option.ext
    intro value
    rw [h.searches, h'.searches]
    apply and_congr_right
    intro hname
    rw [hvalues name (.search hname)]

theorem Loaded.lastValue_eq (heq : g' = g) {key : Text} (hkey : IsKey key) :
    lastValue key ls' = lastValue key ls := by
  subst heq
  cases hkey with
  | server => exact lastValue_eq_of_getD (h'.server.symm.trans h.server)
  | domain => exact lastValue_eq_of_getD (h'.domain.symm.trans h.domain)
  | reportEmail => exact lastValue_eq_of_getD (h'.reportEmail.symm.trans h.reportEmail)
  | search hname =>
      apply Option.ext
      intro value
      have hlookup := (h'.searches key value).symm.trans (h.searches key value)
      rw [and_iff_right hname, and_iff_right hname] at hlookup
      exact hlookup

end Meaning

section Files

variable {conf conf' : Text} {before between after : List Text} {line line' : Text}

/-- Two files mean the same if and only if they have the same last value of
every key. -/
theorem load_eq_iff :
    load conf' = load conf ↔
      ∀ key, IsKey key → lastValue key (lines conf') = lastValue key (lines conf) :=
  ⟨fun heq _ hkey => (load_loaded conf).lastValue_eq (load_loaded conf') heq hkey,
    (load_loaded conf).eq (load_loaded conf')⟩

/-- A line that gives no key a value may as well be missing. -/
theorem load_eq_of_not_isSetting (hline : ∀ key value, ¬ IsSetting key value line)
    (h : lines conf = before ++ line :: after) (h' : lines conf' = before ++ after) :
    load conf' = load conf := by
  rw [load_eq_iff, h, h']
  intro key hkey
  exact (Machine.lastSet_of_none _ (valueAfter_of_not_isSetting hkey hline)).symm

/-- A line behind the two that change places has the key, or the last line
between them that has it, if there is one, gives it the same value. -/
def Undisturbed (key value : Text) (between after : List Text) : Prop :=
  lastValue key after ≠ none ∨ (lastValue key between).getD value = value

/-- Two lines of different keys may change places exactly when neither key
notices. -/
theorem load_exchange_iff {key key' value value' : Text} (hline : IsSetting key value line)
    (hline' : IsSetting key' value' line') (hne : key ≠ key')
    (h : lines conf = before ++ line :: between ++ line' :: after)
    (h' : lines conf' = before ++ line' :: between ++ line :: after) :
    load conf' = load conf ↔
      Undisturbed key value between after ∧ Undisturbed key' value' between after := by
  have hfirst := Machine.lastSet_exchange (valueAfter key) before between after
    hline.valueAfter (hline'.valueAfter_of_ne hline.isKey hne)
  have hsecond := Machine.lastSet_exchange (valueAfter key') before between after
    hline'.valueAfter (hline.valueAfter_of_ne hline'.isKey hne.symm)
  rw [load_eq_iff, h, h']
  constructor
  · intro hvalues
    exact ⟨hfirst.mp (hvalues key hline.isKey), hsecond.mp (hvalues key' hline'.isKey).symm⟩
  · rintro ⟨hkeep, hkeep'⟩ other hother
    by_cases hkey : other = key
    · rw [hkey]
      exact hfirst.mpr hkeep
    by_cases hkey' : other = key'
    · rw [hkey']
      exact (hsecond.mpr hkeep').symm
    · have hnone := hline.valueAfter_of_ne hother hkey
      have hnone' := hline'.valueAfter_of_ne hother hkey'
      simp only [lastValue, Machine.lastSet_append, Machine.lastSet_cons, hnone, hnone']

end Files

end L1Comm.Watchman
