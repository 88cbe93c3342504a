import Mathlib.Data.List.Basic

/-!
Python strings as lists of characters, and the one construct of regular
expressions that needs a search: a repetition `X+` followed by the rest of the
expression. What the rest accepts is a parameter, so an expression is written
as nested calls from the left to the right. There are two readings of an
expression: whether it matches, and what its groups are, where a repetition is
a group and takes the longest run that lets the rest match.
-/

namespace L1Comm.Python

abbrev Text := List Char

/-- `text.split('\n')`. -/
def lines (text : Text) : List Text := text.splitOn '\n'

/-- `.` matches every character except a newline. -/
def dot (c : Char) : Bool := c != '\n'

/-- A literal followed by `rest`. -/
def literal (word : Text) (rest : Text → Bool) (text : Text) : Bool :=
  word.isPrefixOf text && rest (text.drop word.length)

/-- One or more characters of the class `p`, followed by `rest`. -/
def plus (p : Char → Bool) (rest : Text → Bool) : Text → Bool
  | [] => false
  | c :: text => p c && (rest text || plus p rest text)

/-- `\d` of a pattern without flags. -/
def digit (c : Char) : Bool := c.isDigit

/-! ## Groups -/

section Groups

variable {β : Type*}

/-- A literal followed by `rest`. -/
def literalGroup (word : Text) (rest : Text → Option β) (text : Text) : Option β :=
  if word.isPrefixOf text then rest (text.drop word.length) else none

/-- One or more characters of the class `p` as a group, followed by `rest`. -/
def plusGroup (p : Char → Bool) (rest : Text → Option β) : Text → Option (Text × β)
  | [] => none
  | c :: text =>
      if p c then
        match plusGroup p rest text with
        | some (run, b) => some (c :: run, b)
        | none => (rest text).map fun b => ([c], b)
      else none

end Groups

/-- `(.+)` at the end of an expression. -/
def restOfLine : Text → Option (Text × Unit) := plusGroup dot fun _ => some ()

/-! ## Files -/

/-- The lines that iterating over a file gives: each with its newline, except
for what stands behind the last newline, which is a line if it is not empty. -/
def fileLines (text : Text) : List Text :=
  (lines text).dropLast.map (· ++ ['\n']) ++
    [(lines text).getLast (List.splitOn_ne_nil _ _)].filter (· ≠ [])

/-! ## What matches -/

theorem lines_ne_nil (text : Text) : lines text ≠ [] := List.splitOn_ne_nil _ _

theorem literal_iff {word : Text} {rest : Text → Bool} {text : Text} :
    literal word rest text ↔ ∃ tail, text = word ++ tail ∧ rest tail := by
  rw [literal, Bool.and_eq_true, List.isPrefixOf_iff_prefix]
  constructor
  · rintro ⟨⟨tail, rfl⟩, hrest⟩
    rw [List.drop_left] at hrest
    exact ⟨tail, rfl, hrest⟩
  · rintro ⟨tail, rfl, hrest⟩
    rw [List.drop_left]
    exact ⟨List.prefix_append _ _, hrest⟩

theorem plus_iff {p : Char → Bool} {rest : Text → Bool} {text : Text} :
    plus p rest text ↔
      ∃ run tail, text = run ++ tail ∧ run ≠ [] ∧ (∀ c ∈ run, p c) ∧ rest tail := by
  induction text with
  | nil =>
      constructor
      · exact fun h => nomatch h
      · rintro ⟨run, tail, htext, hrun, -⟩
        exact absurd (List.append_eq_nil_iff.mp htext.symm).1 hrun
  | cons c text ih =>
      rw [plus, Bool.and_eq_true, Bool.or_eq_true, ih]
      constructor
      · rintro ⟨hc, hrest | ⟨run, tail, rfl, -, hrun, hrest⟩⟩
        · exact ⟨[c], text, rfl, by simp, by simpa using hc, hrest⟩
        · exact ⟨c :: run, tail, rfl, by simp, by simpa using ⟨hc, hrun⟩, hrest⟩
      · rintro ⟨run, tail, htext, hne, hrun, hrest⟩
        cases run with
        | nil => exact absurd rfl hne
        | cons d run =>
            obtain ⟨rfl, rfl⟩ := List.cons.inj htext
            rw [List.forall_mem_cons] at hrun
            refine ⟨hrun.1, ?_⟩
            cases run with
            | nil => exact .inl hrest
            | cons e run => exact .inr ⟨e :: run, tail, rfl, by simp, hrun.2, hrest⟩

/-! ## What the groups are -/

section Groups

variable {β : Type*} {rest : Text → Option β} {p : Char → Bool}

theorem literalGroup_isSome {word text : Text} :
    (literalGroup word rest text).isSome = literal word (fun tail => (rest tail).isSome) text := by
  rw [literalGroup, literal]
  split
  · next h => rw [h, Bool.true_and]
  · next h => rw [Bool.eq_false_iff.mpr h, Bool.false_and, Option.isSome_none]

theorem literalGroup_append (word tail : Text) :
    literalGroup word rest (word ++ tail) = rest tail := by
  rw [literalGroup, List.drop_left, if_pos]
  exact List.isPrefixOf_iff_prefix.mpr (List.prefix_append _ _)

/-- There are groups if and only if the expression matches. -/
theorem plusGroup_isSome {text : Text} :
    (plusGroup p rest text).isSome = plus p (fun tail => (rest tail).isSome) text := by
  induction text with
  | nil => rfl
  | cons c text ih =>
      rw [plusGroup, plus, ← ih]
      split
      · next h =>
          rw [h, Bool.true_and]
          cases plusGroup p rest text with
          | none => simp
          | some group => simp
      · next h => rw [Bool.eq_false_iff.mpr h, Bool.false_and, Option.isSome_none]

theorem literalGroup_eq_some {word text : Text} {b : β} (h : literalGroup word rest text = some b) :
    ∃ tail, text = word ++ tail ∧ rest tail = some b := by
  rw [literalGroup] at h
  split at h
  · next hword =>
      obtain ⟨tail, rfl⟩ := List.isPrefixOf_iff_prefix.mp hword
      rw [List.drop_left] at h
      exact ⟨tail, rfl, h⟩
  · cases h

theorem plusGroup_eq_none {tail : Text} (hstop : ∀ c ∈ tail.head?, ¬ p c) :
    plusGroup p rest tail = none := by
  cases tail with
  | nil => rfl
  | cons c tail =>
      rw [plusGroup, if_neg]
      exact hstop c rfl

/-- A run that the class does not extend is the group, if the rest matches
behind it. -/
theorem plusGroup_append {run tail : Text} {b : β} (hne : run ≠ []) (hrun : ∀ c ∈ run, p c)
    (hstop : ∀ c ∈ tail.head?, ¬ p c) (htail : rest tail = some b) :
    plusGroup p rest (run ++ tail) = some (run, b) := by
  induction run with
  | nil => exact absurd rfl hne
  | cons c run ih =>
      rw [List.forall_mem_cons] at hrun
      rw [List.cons_append, plusGroup, if_pos hrun.1]
      cases run with
      | nil => rw [List.nil_append, plusGroup_eq_none hstop, htail, Option.map_some]
      | cons d run => rw [ih (List.cons_ne_nil _ _) hrun.2]

theorem plusGroup_eq_some {text run : Text} {b : β} (h : plusGroup p rest text = some (run, b)) :
    ∃ tail, text = run ++ tail ∧ run ≠ [] ∧ (∀ c ∈ run, p c) ∧ rest tail = some b := by
  induction text generalizing run with
  | nil => cases h
  | cons c text ih =>
      rw [plusGroup] at h
      split at h
      · next hc =>
          cases hlonger : plusGroup p rest text with
          | some longer =>
              rw [hlonger] at h
              cases h
              obtain ⟨tail, rfl, -, hrun, htail⟩ := ih hlonger
              exact ⟨tail, rfl, List.cons_ne_nil _ _, List.forall_mem_cons.mpr ⟨hc, hrun⟩, htail⟩
          | none =>
              rw [hlonger] at h
              obtain ⟨last, hrest, heq⟩ := Option.map_eq_some_iff.mp h
              cases heq
              exact ⟨text, rfl, List.cons_ne_nil _ _, by simpa using hc, hrest⟩
      · cases h

end Groups

/-- A text has one part before its first `c`. -/
theorem eq_of_append_cons_eq {c : Char} {first first' rest rest' : Text} (h : c ∉ first)
    (h' : c ∉ first') (heq : first ++ c :: rest = first' ++ c :: rest') : first = first' := by
  have hsplit := congrArg (List.splitOn c) heq
  rw [List.splitOn_append_cons_self_of_not_mem h,
    List.splitOn_append_cons_self_of_not_mem h'] at hsplit
  exact (List.cons.inj hsplit).1

/-! ## What the lines of a file are -/

/-- No newline is in a line. -/
theorem newline_notMem {text line : Text} (h : line ∈ lines text) : '\n' ∉ line := by
  induction text generalizing line with
  | nil =>
      rw [lines, List.splitOn_nil, List.mem_singleton] at h
      rw [h]
      exact List.not_mem_nil
  | cons c text ih =>
      rw [lines, List.splitOn_cons_eq_if_modifyHead] at h
      split at h
      · rcases List.mem_cons.mp h with rfl | hrest
        · exact List.not_mem_nil
        · exact ih hrest
      · next hc =>
          obtain ⟨first, rest, hlines⟩ := List.exists_cons_of_ne_nil (lines_ne_nil text)
          have hfirst : first ∈ lines text := by
            rw [hlines]
            exact List.mem_cons_self
          rw [← lines, hlines, List.modifyHead_cons] at h
          rcases List.mem_cons.mp h with rfl | hrest
          · rw [List.mem_cons, not_or]
            exact ⟨fun heq => hc (beq_iff_eq.mpr heq.symm), ih hfirst⟩
          · apply ih
            rw [hlines]
            exact List.mem_cons_of_mem _ hrest

/-- Lines that are written one after the other are read back; nothing stands
behind the last newline. -/
theorem lines_flatMap {written : List Text} (h : ∀ line ∈ written, '\n' ∉ line) :
    lines (written.flatMap (· ++ ['\n'])) = written ++ [[]] := by
  induction written with
  | nil => rfl
  | cons line rest ih =>
      rw [List.forall_mem_cons] at h
      have hline := List.splitOn_append_cons_self_of_not_mem h.1 (rest.flatMap (· ++ ['\n']))
      rw [List.flatMap_cons, List.append_assoc, List.singleton_append, lines, hline, ← lines,
        ih h.2, List.cons_append]

/-- Where it does not matter to `f` whether a line is behind a newline, the
lines of a file are those between the newlines. -/
theorem filterMap_fileLines {β : Type*} {f h : Text → Option β} (text : Text)
    (hempty : h [] = none)
    (hline : ∀ line tail, '\n' ∉ line → (∀ c ∈ tail.head?, ¬ dot c) → f (line ++ tail) = h line) :
    (fileLines text).filterMap f = (lines text).filterMap h := by
  have hlines := List.dropLast_concat_getLast (lines_ne_nil text)
  have hlast := newline_notMem (List.getLast_mem (lines_ne_nil text))
  rw [fileLines, List.filterMap_append, List.filterMap_map]
  conv_rhs => rw [← hlines, List.filterMap_append]
  congr 1
  · apply List.filterMap_congr
    intro line hmem
    exact hline line ['\n'] (newline_notMem (List.dropLast_subset _ hmem)) (by rintro c ⟨⟩; decide)
  · cases hcases : (lines text).getLast (lines_ne_nil text) with
    | nil => simp [hempty]
    | cons c line =>
        rw [hcases] at hlast
        have hf := hline (c :: line) [] hlast (fun c hc => nomatch hc)
        rw [List.append_nil] at hf
        rw [List.filter_cons_of_pos (by simp), List.filter_nil, List.filterMap_cons,
          List.filterMap_cons, hf, List.filterMap_nil, List.filterMap_nil]

/-! ## Groups on a line of a file

A line of a file is a text without newlines and a tail, which is empty or starts
with one. -/

section RestOfLine

variable {word line tail value : Text} (htail : ∀ c ∈ tail.head?, ¬ dot c)

theorem dot_of_notMem (hvalue : '\n' ∉ value) : ∀ c ∈ value, dot c := by
  intro c hc
  rw [dot, bne_iff_ne]
  rintro rfl
  exact hvalue hc

include htail

theorem restOfLine_append (hvalue : '\n' ∉ value) (hne : value ≠ []) :
    restOfLine (value ++ tail) = some (value, ()) :=
  plusGroup_append hne (dot_of_notMem hvalue) htail rfl

/-- A word without newlines does not reach into the tail. -/
theorem prefix_of_prefix_append (hword : '\n' ∉ word) (h : word <+: line ++ tail) :
    word <+: line := by
  rcases List.prefix_or_prefix_of_prefix h (List.prefix_append line tail) with hprefix | hlonger
  · exact hprefix
  · obtain ⟨more, rfl⟩ := hlonger
    rw [List.prefix_append_right_inj] at h
    cases more with
    | nil => simp
    | cons c more =>
        obtain ⟨behind, rfl⟩ := h
        have hdot := dot_of_notMem hword c (List.mem_append_right _ List.mem_cons_self)
        exact absurd hdot (htail c rfl)

/-- A word and what stands behind it on its line. -/
theorem literalGroup_restOfLine (hword : '\n' ∉ word) (hline : '\n' ∉ line) :
    literalGroup word restOfLine (line ++ tail) = some (value, ()) ↔
      value ≠ [] ∧ line = word ++ value := by
  constructor
  · intro h
    obtain ⟨behind, hbehind, -⟩ := literalGroup_eq_some h
    have hprefix : word <+: line ++ tail := ⟨behind, hbehind.symm⟩
    obtain ⟨found, rfl⟩ := prefix_of_prefix_append htail hword hprefix
    rw [List.append_assoc, literalGroup_append] at h
    cases found with
    | nil =>
        rw [List.nil_append, restOfLine, plusGroup_eq_none htail] at h
        cases h
    | cons c found =>
        have hfound : '\n' ∉ c :: found := fun hmem => hline (List.mem_append_right _ hmem)
        rw [restOfLine_append htail hfound (List.cons_ne_nil _ _)] at h
        cases h
        exact ⟨List.cons_ne_nil _ _, rfl⟩
  · rintro ⟨hne, rfl⟩
    rw [List.append_assoc, literalGroup_append]
    exact restOfLine_append htail (fun hmem => hline (List.mem_append_right _ hmem)) hne

end RestOfLine

end L1Comm.Python
