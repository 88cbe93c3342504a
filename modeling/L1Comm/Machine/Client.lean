import L1Comm.Machine.Run

/-!
A sequential program that uses two machines. Some events of a machine are calls
which only the program makes, one after the other; all others happen by
themselves. The machines have nothing in common, so a run of the whole is a run
of each of them, and two runs make up one of the whole as soon as their calls
are those of the program.
-/

namespace L1Comm

/-- A statement of a program: a call of one of the machines, or what concerns
neither and is gone through once or for ever. -/
inductive Statement (κ : Type*) where
  | pause
  | forever
  | left (c : κ)
  | right (c : κ)
  deriving DecidableEq

namespace Statement

variable {κ : Type*}

@[simp] def left? : Statement κ → Option κ
  | .left c => some c
  | _ => none

@[simp] def right? : Statement κ → Option κ
  | .right c => some c
  | _ => none

@[simp] def passes : Statement κ → Bool
  | .forever => false
  | _ => true

/-- What a program has gone through by the time it stays where it is. -/
def reached (stmts : List (Statement κ)) : List (Statement κ) := stmts.takeWhile passes

end Statement

/-- A program in front of its next statement, and the machines it uses. -/
structure Client (σ τ κ : Type*) where
  rest : List (Statement κ)
  left : σ
  right : τ

namespace Client

variable {σ τ ε φ κ : Type*}

inductive Event (ε φ : Type*) where
  | pause
  | left (e : ε)
  | right (e : φ)
  deriving DecidableEq

@[simp] def Event.left? : Event ε φ → Option ε
  | .left e => some e
  | _ => none

@[simp] def Event.right? : Event ε φ → Option φ
  | .right e => some e
  | _ => none

/-- The events of the first machine. -/
abbrev lefts (events : List (Event ε φ)) : List ε := events.filterMap Event.left?

abbrev rights (events : List (Event ε φ)) : List φ := events.filterMap Event.right?

section Machines

variable (m : Machine σ ε) (n : Machine τ φ) (call : ε → Option κ) (call' : φ → Option κ)

@[simp] def Enabled (s : Client σ τ κ) : Event ε φ → Prop
  | .pause => s.rest.head? = some .pause ∨ s.rest.head? = some .forever
  | .left e => m.enabled s.left e ∧ ∀ c ∈ call e, s.rest.head? = some (.left c)
  | .right e => n.enabled s.right e ∧ ∀ c ∈ call' e, s.rest.head? = some (.right c)

/-- The program behind its next statement. -/
def step (stmts : List (Statement κ)) : List (Statement κ) :=
  match stmts with
  | [] => []
  | .forever :: stmts => .forever :: stmts
  | _ :: stmts => stmts

@[simp] def next (s : Client σ τ κ) : Event ε φ → Client σ τ κ
  | .pause => {s with rest := step s.rest}
  | .left e =>
      {s with left := m.next s.left e, rest := if (call e).isSome then step s.rest else s.rest}
  | .right e =>
      {s with right := n.next s.right e, rest := if (call' e).isSome then step s.rest else s.rest}

def machine : Machine (Client σ τ κ) (Event ε φ) where
  enabled := Enabled m n call call'
  next := next m n call call'

end Machines

variable {m : Machine σ ε} {n : Machine τ φ} {call : ε → Option κ} {call' : φ → Option κ}
variable {s : Client σ τ κ} {events : List (Event ε φ)}

@[simp] theorem machine_enabled (e : Event ε φ) :
    (machine m n call call').enabled s e ↔ Enabled m n call call' s e := Iff.rfl

@[simp] theorem machine_next (e : Event ε φ) :
    (machine m n call call').next s e = next m n call call' s e := rfl

instance [DecidableEq κ] [∀ s e, Decidable (m.enabled s e)] [∀ s e, Decidable (n.enabled s e)]
    (s : Client σ τ κ) (e : Event ε φ) : Decidable ((machine m n call call').enabled s e) := by
  change Decidable (Enabled m n call call' s e)
  cases e <;> dsimp only [Enabled] <;> infer_instance

section Next

variable {e : ε} {f : φ} {c : κ} {stmts : List (Statement κ)}

theorem next_left_quiet (hcall : call e = none) :
    (machine m n call call').next s (.left e) = {s with left := m.next s.left e} := by
  rw [machine_next, next, hcall]
  rfl

theorem next_left_call (hcall : call e = some c) (hrest : s.rest = .left c :: stmts) :
    (machine m n call call').next s (.left e) = ⟨stmts, m.next s.left e, s.right⟩ := by
  rw [machine_next, next, hcall, hrest]
  rfl

theorem next_right_quiet (hcall : call' f = none) :
    (machine m n call call').next s (.right f) = {s with right := n.next s.right f} := by
  rw [machine_next, next, hcall]
  rfl

theorem next_right_call (hcall : call' f = some c) (hrest : s.rest = .right c :: stmts) :
    (machine m n call call').next s (.right f) = ⟨stmts, s.left, n.next s.right f⟩ := by
  rw [machine_next, next, hcall, hrest]
  rfl

theorem next_pause (hrest : s.rest = .pause :: stmts) :
    (machine m n call call').next s .pause = {s with rest := stmts} := by
  simp [step, hrest]

theorem next_forever (hrest : s.rest = .forever :: stmts) :
    (machine m n call call').next s .pause = s := by
  obtain ⟨rest, left, right⟩ := s
  obtain rfl : rest = .forever :: stmts := hrest
  rfl

end Next

/-! ## A run of the whole -/

theorem runs_left (h : (machine m n call call').Runs s events) :
    m.Runs s.left (lefts events) ∧
      ((machine m n call call').after s events).left = m.after s.left (lefts events) := by
  induction events generalizing s with
  | nil => exact ⟨trivial, rfl⟩
  | cons e rest ih =>
      have hrest := ih h.2
      cases e with
      | left e => exact ⟨⟨h.1.1, hrest.1⟩, hrest.2⟩
      | pause | right e => exact hrest

theorem runs_right (h : (machine m n call call').Runs s events) :
    n.Runs s.right (rights events) ∧
      ((machine m n call call').after s events).right = n.after s.right (rights events) := by
  induction events generalizing s with
  | nil => exact ⟨trivial, rfl⟩
  | cons e rest ih =>
      have hrest := ih h.2
      cases e with
      | right e => exact ⟨⟨h.1.1, hrest.1⟩, hrest.2⟩
      | pause | left e => exact hrest

/-- The calls in the two runs are those of an initial part of the program. -/
def Calls (call : ε → Option κ) (call' : φ → Option κ) (stmts : List (Statement κ))
    (r : List ε) (t : List φ) : Prop :=
  ∃ taken, taken <+: Statement.reached stmts ∧
    r.filterMap call = taken.filterMap Statement.left? ∧
    t.filterMap call' = taken.filterMap Statement.right?

theorem calls_of_runs (h : (machine m n call call').Runs s events) :
    Calls call call' s.rest (lefts events) (rights events) := by
  induction events generalizing s with
  | nil => exact ⟨[], List.nil_prefix, rfl, rfl⟩
  | cons e rest ih =>
      obtain ⟨taken, hprefix, hleft, hright⟩ := ih h.2
      cases e with
      | pause =>
          rcases h.1 with hpause | hforever
          · obtain ⟨stmts, hstmts⟩ := List.head?_eq_some_iff.mp hpause
            rw [machine_next, next, hstmts] at hprefix
            rw [hstmts]
            exact ⟨.pause :: taken, List.cons_prefix_cons.mpr ⟨rfl, hprefix⟩, hleft, hright⟩
          · obtain ⟨stmts, hstmts⟩ := List.head?_eq_some_iff.mp hforever
            rw [machine_next, next, hstmts] at hprefix
            rw [hstmts]
            exact ⟨taken, hprefix, hleft, hright⟩
      | left e =>
          cases hcall : call e with
          | none =>
              rw [next_left_quiet hcall] at hprefix
              exact ⟨taken, hprefix, by simp [hcall, hleft], hright⟩
          | some c =>
              obtain ⟨stmts, hstmts⟩ := List.head?_eq_some_iff.mp (h.1.2 c hcall)
              rw [next_left_call hcall hstmts] at hprefix
              rw [hstmts]
              exact ⟨.left c :: taken, List.cons_prefix_cons.mpr ⟨rfl, hprefix⟩,
                by simp [hcall, hleft], hright⟩
      | right e =>
          cases hcall : call' e with
          | none =>
              rw [next_right_quiet hcall] at hprefix
              exact ⟨taken, hprefix, hleft, by simp [hcall, hright]⟩
          | some c =>
              obtain ⟨stmts, hstmts⟩ := List.head?_eq_some_iff.mp (h.1.2 c hcall)
              rw [next_right_call hcall hstmts] at hprefix
              rw [hstmts]
              exact ⟨.right c :: taken, List.cons_prefix_cons.mpr ⟨rfl, hprefix⟩, hleft,
                by simp [hcall, hright]⟩

/-! ## A run of the whole from two runs -/

theorem cons_prefix_reached {stmt : Statement κ} {taken stmts : List (Statement κ)}
    (h : stmt :: taken <+: Statement.reached stmts) :
    ∃ tail, stmts = stmt :: tail ∧ stmt.passes = true ∧ taken <+: Statement.reached tail := by
  cases stmts with
  | nil => simp [Statement.reached] at h
  | cons first tail =>
      cases hpasses : first.passes with
      | false =>
          rw [Statement.reached, List.takeWhile_cons_of_neg (hpasses ▸ Bool.false_ne_true)] at h
          cases List.prefix_nil.mp h
      | true =>
          rw [Statement.reached, List.takeWhile_cons_of_pos hpasses,
            List.cons_prefix_cons] at h
          obtain ⟨rfl, htaken⟩ := h
          exact ⟨tail, rfl, hpasses, htaken⟩

/-- The calls of a run are made if they are the next in the program. -/
theorem runs_calls_left (n : Machine τ φ) (call' : φ → Option κ) {r : List ε}
    {stmts : List (Statement κ)} (hrun : m.Runs s.left r)
    (hrest : s.rest = (r.filterMap call).map .left ++ stmts) :
    (machine m n call call').Runs s (r.map .left) ∧
      (machine m n call call').after s (r.map .left) = ⟨stmts, m.after s.left r, s.right⟩ := by
  induction r generalizing s with
  | nil =>
      obtain ⟨rest, left, right⟩ := s
      obtain rfl : rest = stmts := hrest
      exact ⟨trivial, rfl⟩
  | cons e rest ih =>
      rw [List.map_cons, Machine.after_cons]
      cases hcall : call e with
      | none =>
          rw [List.filterMap_cons_none hcall] at hrest
          obtain ⟨hruns, hafter⟩ := ih (s := {s with left := m.next s.left e}) hrun.2 hrest
          refine ⟨⟨⟨hrun.1, by simp [hcall]⟩, ?_⟩, ?_⟩
          · rw [next_left_quiet hcall]
            exact hruns
          · rw [next_left_quiet hcall]
            exact hafter
      | some c =>
          rw [List.filterMap_cons_some hcall, List.map_cons, List.cons_append] at hrest
          obtain ⟨hruns, hafter⟩ := ih
            (s := ⟨(rest.filterMap call).map .left ++ stmts, m.next s.left e, s.right⟩) hrun.2 rfl
          refine ⟨⟨⟨hrun.1, by simp [hcall, hrest]⟩, ?_⟩, ?_⟩
          · rw [next_left_call hcall hrest]
            exact hruns
          · rw [next_left_call hcall hrest]
            exact hafter

/-- What a machine does between calls it does whatever the program is up to. -/
theorem runs_map_left (n : Machine τ φ) (call' : φ → Option κ) {r : List ε}
    (hrun : m.Runs s.left r) (hquiet : ∀ e ∈ r, call e = none) :
    (machine m n call call').Runs s (r.map .left) ∧
      (machine m n call call').after s (r.map .left) = {s with left := m.after s.left r} := by
  have hcalls : s.rest = (r.filterMap call).map .left ++ s.rest := by
    rw [List.filterMap_eq_nil_iff.mpr hquiet]
    rfl
  exact runs_calls_left n call' hrun hcalls

theorem runs_map_right (m : Machine σ ε) (call : ε → Option κ) {t : List φ}
    (hrun : n.Runs s.right t) (hquiet : ∀ e ∈ t, call' e = none) :
    (machine m n call call').Runs s (t.map .right) ∧
      (machine m n call call').after s (t.map .right) = {s with right := n.after s.right t} := by
  induction t generalizing s with
  | nil => exact ⟨trivial, rfl⟩
  | cons e rest ih =>
      have hcall := hquiet e List.mem_cons_self
      have hnext : (machine m n call call').next s (.right e) =
          {s with right := n.next s.right e} := next_right_quiet hcall
      obtain ⟨hruns, hafter⟩ := ih (s := {s with right := n.next s.right e}) hrun.2
        fun e he => hquiet e (List.mem_cons_of_mem _ he)
      refine ⟨⟨⟨hrun.1, by simp [hcall]⟩, ?_⟩, ?_⟩
      · rw [hnext]
        exact hruns
      · rw [List.map_cons, Machine.after_cons, hnext]
        exact hafter

@[simp] theorem lefts_map_left (r : List ε) :
    lefts (r.map (.left : ε → Event ε φ)) = r := by
  rw [lefts, List.filterMap_map]
  exact List.filterMap_some

@[simp] theorem lefts_map_right (t : List φ) :
    lefts (t.map (.right : φ → Event ε φ)) = [] := by
  simp [lefts]

@[simp] theorem rights_map_left (r : List ε) :
    rights (r.map (.left : ε → Event ε φ)) = [] := by
  simp [rights]

@[simp] theorem rights_map_right (t : List φ) :
    rights (t.map (.right : φ → Event ε φ)) = t := by
  rw [rights, List.filterMap_map]
  exact List.filterMap_some

/-- Each machine is run up to the call that is next in the program. -/
theorem runs_of_calls {r : List ε} {t : List φ} (hleft : m.Runs s.left r)
    (hright : n.Runs s.right t) (hcalls : Calls call call' s.rest r t) :
    ∃ events, (machine m n call call').Runs s events ∧ lefts events = r ∧ rights events = t := by
  obtain ⟨taken, hprefix, hr, ht⟩ := hcalls
  induction taken generalizing s r t with
  | nil =>
      obtain ⟨hruns, hafter⟩ := runs_map_left n call' hleft
        (List.filterMap_eq_nil_iff.mp hr)
      obtain ⟨hruns', -⟩ := runs_map_right m call
        (s := {s with left := m.after s.left r}) hright (List.filterMap_eq_nil_iff.mp ht)
      refine ⟨r.map .left ++ t.map .right, ?_, ?_, ?_⟩
      · exact (Machine.along_append _ _).mpr ⟨hruns, by rw [hafter]; exact hruns'⟩
      · rw [lefts, List.filterMap_append]
        exact (congrArg₂ _ (lefts_map_left r) (lefts_map_right t)).trans (List.append_nil r)
      · rw [rights, List.filterMap_append]
        exact congrArg₂ _ (rights_map_left r) (rights_map_right t)
  | cons stmt taken ih =>
      obtain ⟨tail, hstmts, hpasses, htaken⟩ := cons_prefix_reached hprefix
      cases stmt with
      | forever => cases hpasses
      | pause =>
          obtain ⟨events, hruns, rfl, rfl⟩ := ih (s := {s with rest := tail}) hleft hright
            htaken hr ht
          refine ⟨.pause :: events, ⟨?_, ?_⟩, rfl, rfl⟩
          · simp [hstmts]
          · rw [machine_next, next, hstmts]
            exact hruns
      | left c =>
          obtain ⟨before, e, behind, rfl, hquiet, hcall, hbehind⟩ :=
            List.filterMap_eq_cons_iff.mp hr
          rw [Machine.Runs, Machine.along_append] at hleft
          obtain ⟨hruns, hafter⟩ := runs_map_left n call' hleft.1 hquiet
          obtain ⟨events, hruns', rfl, rfl⟩ := ih
            (s := ⟨tail, m.next (m.after s.left before) e, s.right⟩) hleft.2.2 hright htaken
            hbehind ht
          refine ⟨before.map .left ++ .left e :: events, ?_, ?_, ?_⟩
          · refine (Machine.along_append _ _).mpr ⟨hruns, ?_⟩
            rw [hafter]
            refine ⟨⟨hleft.2.1, by simp [hcall, hstmts]⟩, ?_⟩
            rw [next_left_call (s := {s with left := m.after s.left before}) hcall hstmts]
            exact hruns'
          · rw [lefts, List.filterMap_append]
            exact congrArg₂ _ (lefts_map_left before) rfl
          · rw [rights, List.filterMap_append]
            exact congrArg₂ _ (rights_map_left before) rfl
      | right c =>
          obtain ⟨before, e, behind, rfl, hquiet, hcall, hbehind⟩ :=
            List.filterMap_eq_cons_iff.mp ht
          rw [Machine.Runs, Machine.along_append] at hright
          obtain ⟨hruns, hafter⟩ := runs_map_right m call hright.1 hquiet
          obtain ⟨events, hruns', rfl, rfl⟩ := ih
            (s := ⟨tail, s.left, n.next (n.after s.right before) e⟩) hleft hright.2.2 htaken
            hr hbehind
          refine ⟨before.map .right ++ .right e :: events, ?_, ?_, ?_⟩
          · refine (Machine.along_append _ _).mpr ⟨hruns, ?_⟩
            rw [hafter]
            refine ⟨⟨hright.2.1, by simp [hcall, hstmts]⟩, ?_⟩
            rw [next_right_call (s := {s with right := n.after s.right before}) hcall hstmts]
            exact hruns'
          · rw [lefts, List.filterMap_append]
            exact congrArg₂ _ (lefts_map_right before) rfl
          · rw [rights, List.filterMap_append]
            exact congrArg₂ _ (rights_map_right before) rfl

end Client

end L1Comm
