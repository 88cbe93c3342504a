import L1Comm.Python.Text

/-!
`shlex.split` of the Python 2 standard library: a POSIX lexer that reads one
character after the other and splits words at whitespace only, without
comments. A word ends at whitespace outside quotes; quotes and backslashes are
removed, and a pattern that ends inside quotes or after a backslash is refused.
-/

namespace L1Comm.Python.Shlex

inductive State where
  | blank
  | word
  | quoted (quote : Char)
  /-- After a backslash, which returns to the quotes it stands in, or to a word. -/
  | escaped (quote : Option Char)
  deriving DecidableEq

structure Lexer where
  state : State
  token : Text
  /-- Quotes were read as part of the token, so it counts even when it is empty. -/
  quoted : Bool
  words : List Text
  deriving DecidableEq

def whitespace (c : Char) : Bool := [' ', '\t', '\r', '\n'].contains c

def quotes (c : Char) : Bool := ['\'', '"'].contains c

/-- In these quotes a backslash escapes. -/
def escapedquotes (c : Char) : Bool := c == '"'

namespace Lexer

def initial : Lexer := ⟨.blank, [], false, []⟩

/-- The words, with the current token if there is one. -/
def emitted (s : Lexer) : List Text :=
  if s.token ≠ [] ∨ s.quoted then s.words ++ [s.token] else s.words

def next (s : Lexer) (c : Char) : Lexer :=
  match s.state with
  | .blank =>
      if whitespace c then ⟨.blank, [], false, s.emitted⟩
      else if c = '\\' then {s with state := .escaped none}
      else if quotes c then {s with state := .quoted c}
      else {s with token := [c], state := .word}
  | .quoted q =>
      if c = q then {s with state := .word, quoted := true}
      else if c = '\\' ∧ escapedquotes q then {s with state := .escaped (some q), quoted := true}
      else {s with token := s.token ++ [c], quoted := true}
  | .escaped (some q) =>
      -- in quotes only the quote and the backslash can be escaped
      if c ≠ '\\' ∧ c ≠ q then {s with token := s.token ++ ['\\', c], state := .quoted q}
      else {s with token := s.token ++ [c], state := .quoted q}
  | .escaped none => {s with token := s.token ++ [c], state := .word}
  | .word =>
      if whitespace c then ⟨.blank, [], false, s.emitted⟩
      else if quotes c then {s with state := .quoted c}
      else if c = '\\' then {s with state := .escaped none}
      else {s with token := s.token ++ [c]}

/-- At the end of the pattern; the error is the message of the `ValueError`. -/
def finish (s : Lexer) : Except String (List Text) :=
  match s.state with
  | .blank | .word => .ok s.emitted
  | .quoted _ => .error "No closing quotation"
  | .escaped _ => .error "No escaped character"

end Lexer

def split (pattern : Text) : Except String (List Text) :=
  (pattern.foldl Lexer.next Lexer.initial).finish

/-- A character that stands for itself. -/
def Ordinary (c : Char) : Prop := ¬ whitespace c ∧ ¬ quotes c ∧ c ≠ '\\'

instance (c : Char) : Decidable (Ordinary c) := inferInstanceAs (Decidable (_ ∧ _ ∧ _))

namespace Lexer

variable {s : Lexer} {c : Char}

theorem next_word (h : Ordinary c) (hs : s.state = .word) :
    s.next c = {s with token := s.token ++ [c]} := by
  obtain ⟨hblank, hquote, hescape⟩ := h
  simp [next, hs, hblank, hquote, hescape]

theorem next_blank (h : Ordinary c) (hs : s.state = .blank) :
    s.next c = {s with token := [c], state := .word} := by
  obtain ⟨hblank, hquote, hescape⟩ := h
  simp [next, hs, hblank, hquote, hescape]

/-- Ordinary characters are appended to the token. -/
theorem foldl_word {text : Text} (h : ∀ c ∈ text, Ordinary c) (hs : s.state = .word) :
    text.foldl next s = {s with token := s.token ++ text} := by
  induction text generalizing s with
  | nil => simp
  | cons c text ih =>
      rw [List.forall_mem_cons] at h
      rw [List.foldl_cons, next_word h.1 hs, ih h.2 (by exact hs), List.append_assoc]
      rfl

/-- A word of ordinary characters after whitespace becomes the token. -/
theorem foldl_blank {text : Text} (hne : text ≠ []) (h : ∀ c ∈ text, Ordinary c)
    (hs : s.state = .blank) : text.foldl next s = {s with token := text, state := .word} := by
  cases text with
  | nil => exact absurd rfl hne
  | cons c text =>
      rw [List.forall_mem_cons] at h
      rw [List.foldl_cons, next_blank h.1 hs, foldl_word h.2 rfl]
      rfl

/-- Whitespace after a token that is not empty ends a word. -/
theorem next_space (hs : s.state = .word) (htoken : s.token ≠ []) :
    s.next ' ' = ⟨.blank, [], false, s.words ++ [s.token]⟩ := by
  simp [next, hs, whitespace, emitted, htoken]

/-- Words of ordinary characters with single blanks between them are read as
these words. -/
theorem finish_intercalate {words : List Text} (hne : words ≠ [])
    (h : ∀ w ∈ words, w ≠ [] ∧ ∀ c ∈ w, Ordinary c) (hs : s.state = .blank) :
    (([' '].intercalate words).foldl next s).finish = .ok (s.words ++ words) := by
  induction words generalizing s with
  | nil => exact absurd rfl hne
  | cons w rest ih =>
      rw [List.forall_mem_cons] at h
      obtain ⟨⟨hw, hordinary⟩, htail⟩ := h
      cases rest with
      | nil =>
          rw [List.intercalate_singleton, foldl_blank hw hordinary hs]
          simp [finish, emitted, hw]
      | cons v rest =>
          rw [List.intercalate_cons_cons, List.foldl_append, List.foldl_append,
            foldl_blank hw hordinary hs, List.foldl_cons, List.foldl_nil, next_space rfl hw,
            ih (List.cons_ne_nil _ _) htail rfl, List.append_assoc]
          rfl

end Lexer

theorem split_intercalate {words : List Text} (hne : words ≠ [])
    (h : ∀ w ∈ words, w ≠ [] ∧ ∀ c ∈ w, Ordinary c) :
    split ([' '].intercalate words) = .ok words :=
  Lexer.finish_intercalate hne h rfl

end L1Comm.Python.Shlex
