import L1Comm.Python.Shlex

/-!
What a POSIX shell executes when `subprocess.Popen(args, shell=True)` runs it:
`/bin/sh -c` with the first element of `args` as the script, and the others as
positional parameters, to which only a `$` in the script would refer. Scripts
are taken apart as far as they are simple commands of words that stand for
themselves; of any other script nothing is said, nor of one that the shell
would take for its options. A command that is built into the shell is executed
like any other, but by the shell itself.
-/

namespace L1Comm.Python.Shell

def blank (c : Char) : Bool := c == ' ' || c == '\t'

/-- The characters that have to be quoted to stand for themselves. -/
def special (c : Char) : Bool :=
  ['|', '&', ';', '<', '>', '(', ')', '$', '\x60', '\\', '"', '\'', ' ', '\t', '\n', '*', '?', '[',
    '#', '~', '=', '%'].contains c

/-- The reserved words, which do not name a command where one is expected. -/
def reserved : List Text :=
  [['!'], ['{'], ['}'], ['c', 'a', 's', 'e'], ['d', 'o'], ['d', 'o', 'n', 'e'],
    ['e', 'l', 'i', 'f'], ['e', 'l', 's', 'e'], ['e', 's', 'a', 'c'], ['f', 'i'], ['f', 'o', 'r'],
    ['i', 'f'], ['i', 'n'], ['t', 'h', 'e', 'n'], ['u', 'n', 't', 'i', 'l'],
    ['w', 'h', 'i', 'l', 'e']]

/-- A word without special characters. -/
def Plain (word : Text) : Prop := word ≠ [] ∧ word.all (!special ·)

instance (word : Text) : Decidable (Plain word) := inferInstanceAs (Decidable (_ ∧ _))

/-- The words of a script, which blanks separate. -/
def fields (script : Text) : List Text := (script.splitOnP blank).filter (· ≠ [])

/-- The argument vector of the command a script consists of. -/
def command (script : Text) : Option (List Text) :=
  if (fields script).all (fun word => word.all (!special ·)) then
    match fields script with
    | [] => none
    | name :: args => if name ∈ reserved then none else some (name :: args)
  else none

/-- An argument of `sh` that sets options of the shell. -/
def isOption : Text → Bool
  | [] => false
  | c :: _ => c == '-' || c == '+'

/-- The argument vector that `Popen(args, shell=True)` executes. -/
def popen : List Text → Option (List Text)
  | [] => none
  | script :: _ => if isOption script then none else command script

theorem special_of_blank {c : Char} (h : blank c) : special c := by
  rw [blank, Bool.or_eq_true, beq_iff_eq, beq_iff_eq] at h
  rcases h with rfl | rfl
  · rfl
  · rfl

/-- A plain word is the only field of itself. -/
theorem Plain.fields_eq {word : Text} (h : Plain word) : fields word = [word] := by
  have hblank : ∀ c ∈ word, blank c = false := by
    intro c hc
    have hspecial := List.all_eq_true.mp h.2 c hc
    rw [Bool.not_eq_true'] at hspecial
    exact Bool.eq_false_iff.mpr fun hb => absurd (special_of_blank hb) (by simp [hspecial])
  rw [fields, List.splitOnP_eq_singleton hblank, List.filter_cons_of_pos (by simpa using h.1),
    List.filter_nil]

/-- As a script it executes the command of that name, without arguments. -/
theorem Plain.command_eq {word : Text} (h : Plain word) :
    command word = if word ∈ reserved then none else some [word] := by
  rw [command, h.fields_eq, List.all_cons, h.2]
  rfl

/-- So a list of plain words is executed as it is if and only if it is a single
word, and neither a reserved one nor an option: every further word is lost. -/
theorem popen_eq_iff {words : List Text} (hne : words ≠ []) (hplain : ∀ w ∈ words, Plain w) :
    popen words = some words ↔
      ∃ word, words = [word] ∧ word ∉ reserved ∧ isOption word = false := by
  cases words with
  | nil => exact absurd rfl hne
  | cons script rest =>
      rw [popen, (hplain script List.mem_cons_self).command_eq]
      constructor
      · intro h
        split at h
        · cases h
        · next hoption =>
            split at h
            · cases h
            · next hscript =>
                obtain ⟨-, hrest⟩ := List.cons.inj (Option.some.inj h)
                exact ⟨script, by rw [← hrest], hscript, Bool.eq_false_iff.mpr hoption⟩
      · rintro ⟨word, hwords, hword, hoption⟩
        obtain ⟨rfl, rfl⟩ := List.cons.inj hwords
        rw [if_neg (Bool.eq_false_iff.mp hoption), if_neg hword]

end L1Comm.Python.Shell
