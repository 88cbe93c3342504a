import Mathlib.Data.List.Basic

/-!
Scripts: computations that perform actions one after the other and then return
a value or raise an exception. What has been performed when an exception is
raised stays performed, and what would have come after it is not. The lemmas
say what a sequence, a loop over a list and a handled exception perform and
return, in terms of their parts.
-/

namespace L1Comm.Python

/-- What a computation performs, and what it returns or raises. -/
structure Script (α ε : Type*) (β : Type) where
  actions : List α
  result : Except ε β

namespace Script

variable {α ε ι : Type*} {β γ : Type}

def act (a : α) : Script α ε Unit := ⟨[a], .ok ()⟩

def throw (e : ε) : Script α ε β := ⟨[], .error e⟩

/-- A function whose error is raised. -/
def lift (r : Except ε β) : Script α ε β := ⟨[], r⟩

def bind (x : Script α ε β) (f : β → Script α ε γ) : Script α ε γ :=
  match x.result with
  | .ok b => ⟨x.actions ++ (f b).actions, (f b).result⟩
  | .error e => ⟨x.actions, .error e⟩

instance : Monad (Script α ε) where
  pure b := ⟨[], .ok b⟩
  bind := Script.bind

/-- `if`, without an `else`. -/
def when (condition : Bool) (x : Script α ε Unit) : Script α ε Unit :=
  if condition then x else pure ()

/-- `try: x except: handler`, for the exceptions of a class. -/
def tryExcept (caught : ε → Bool) (x : Script α ε Unit) (handler : ε → Script α ε Unit) :
    Script α ε Unit :=
  match x.result with
  | .ok () => x
  | .error e =>
      if caught e then ⟨x.actions ++ (handler e).actions, (handler e).result⟩ else x

/-- `for i in l: f(i)`. -/
def forEach (f : ι → Script α ε Unit) : List ι → Script α ε Unit
  | [] => pure ()
  | i :: l => do f i; forEach f l

/-- A script as part of one with more actions and exceptions. -/
def embed {α' ε' : Type*} (f : α → α') (g : ε → ε') (x : Script α ε β) : Script α' ε' β :=
  ⟨x.actions.map f, x.result.mapError g⟩

section Bind

variable (b : β) (a : α) (e : ε) (f : β → Script α ε γ)

@[simp] theorem throw_bind : (throw e : Script α ε β) >>= f = throw e := rfl

@[simp] theorem result_pure : (pure b : Script α ε β).result = .ok b := rfl

@[simp] theorem actions_act_bind (g : Unit → Script α ε γ) :
    (act a >>= g).actions = a :: (g ()).actions := rfl

@[simp] theorem result_act_bind (g : Unit → Script α ε γ) :
    (act a >>= g).result = (g ()).result := rfl

@[simp] theorem actions_act : (act a : Script α ε Unit).actions = [a] := rfl

variable {b e}

/-- After a part that returns comes the rest of the sequence. -/
theorem bind_of_ok {x : Script α ε β} (h : x.result = .ok b) :
    x >>= f = ⟨x.actions ++ (f b).actions, (f b).result⟩ := by
  change Script.bind x f = _
  rw [Script.bind, h]

/-- An exception ends the sequence. -/
theorem bind_of_error {x : Script α ε β} (h : x.result = .error e) :
    x >>= f = ⟨x.actions, .error e⟩ := by
  change Script.bind x f = _
  rw [Script.bind, h]

/-- A sequence returns if its first part returns and then its second does. -/
theorem result_bind_eq_ok_iff {x : Script α ε β} {c : γ} :
    (x >>= f).result = .ok c ↔ ∃ b, x.result = .ok b ∧ (f b).result = .ok c := by
  cases h : x.result with
  | ok b => simp [bind_of_ok f h]
  | error e => simp [bind_of_error f h]

theorem result_bind_eq_error_iff {x : Script α ε β} {e : ε} :
    (x >>= f).result = .error e ↔
      x.result = .error e ∨ ∃ b, x.result = .ok b ∧ (f b).result = .error e := by
  cases h : x.result with
  | ok b => simp [bind_of_ok f h]
  | error e => simp [bind_of_error f h]

end Bind

section Embed

variable {α' ε' : Type*} {f : α → α'} {g : ε → ε'} {x : Script α ε β}

theorem embed_result_ok_iff {b : β} : (x.embed f g).result = .ok b ↔ x.result = .ok b := by
  rw [embed]
  cases x.result <;> simp [Except.mapError]

end Embed

section ForEach

variable {f : ι → Script α ε Unit} {l : List ι}

/-- A loop returns if every pass through its body does. -/
theorem forEach_result_iff :
    (forEach f l).result = .ok () ↔ ∀ i ∈ l, (f i).result = .ok () := by
  induction l with
  | nil => simp [forEach]
  | cons i l ih =>
      rw [forEach, result_bind_eq_ok_iff, List.forall_mem_cons, ← ih]
      constructor
      · exact fun ⟨_, hfirst, hrest⟩ => ⟨hfirst, hrest⟩
      · exact fun ⟨hfirst, hrest⟩ => ⟨(), hfirst, hrest⟩

/-- An exception of a loop is that of one of its passes. -/
theorem forEach_result_error {e : ε} (h : (forEach f l).result = .error e) :
    ∃ i ∈ l, (f i).result = .error e := by
  induction l with
  | nil => cases h
  | cons i l ih =>
      rw [forEach, result_bind_eq_error_iff] at h
      rcases h with hfirst | ⟨_, -, hrest⟩
      · exact ⟨i, List.mem_cons_self, hfirst⟩
      · obtain ⟨j, hj, herror⟩ := ih hrest
        exact ⟨j, List.mem_cons_of_mem i hj, herror⟩

/-- It then has performed what every pass performs. -/
theorem forEach_of_ok (h : ∀ i ∈ l, (f i).result = .ok ()) :
    forEach f l = ⟨l.flatMap fun i => (f i).actions, .ok ()⟩ := by
  induction l with
  | nil => rfl
  | cons i l ih =>
      rw [List.forall_mem_cons] at h
      rw [forEach, bind_of_ok _ h.1, ih h.2, List.flatMap_cons]

/-- A pass that raises ends the loop. -/
theorem forEach_of_error {before after : List ι} {i : ι} {e : ε}
    (hbefore : ∀ j ∈ before, (f j).result = .ok ()) (hi : (f i).result = .error e) :
    forEach f (before ++ i :: after) =
      ⟨(before.flatMap fun j => (f j).actions) ++ (f i).actions, .error e⟩ := by
  induction before with
  | nil => exact bind_of_error _ hi
  | cons j before ih =>
      rw [List.forall_mem_cons] at hbefore
      rw [List.cons_append, forEach, bind_of_ok _ hbefore.1, ih hbefore.2, List.flatMap_cons,
        List.append_assoc]

end ForEach

end Script

end L1Comm.Python
