import L1Comm.Machine.Run

/-!
Registers of a machine: parts of the state that each event either sets to a
value of its own or leaves alone. After any list of events such a part has the
value set last, whatever the other events did in between, so only the events
that set it matter, and of those only their order among each other.
-/

namespace L1Comm.Machine

variable {σ ε α κ : Type*}

/-- The value set last; `set e` is what the event sets, if it sets anything. -/
def lastSet (set : ε → Option α) (events : List ε) : Option α :=
  (events.filterMap set).getLast?

section LastSet

variable (set : ε → Option α) (events : List ε)

@[simp] theorem lastSet_nil : lastSet set [] = none := rfl

theorem lastSet_append (others : List ε) :
    lastSet set (events ++ others) = (lastSet set others).or (lastSet set events) := by
  rw [lastSet, List.filterMap_append, List.getLast?_append]
  rfl

theorem lastSet_cons (e : ε) :
    lastSet set (e :: events) = (lastSet set events).or (set e) := by
  rw [← List.singleton_append, lastSet_append]
  congr 1
  cases h : set e <;> simp [lastSet, h]

theorem lastSet_map {β : Type*} (f : α → β) :
    lastSet (fun e => (set e).map f) events = (lastSet set events).map f := by
  rw [lastSet, lastSet, ← List.map_filterMap, List.getLast?_map]

variable {events}

/-- An event that sets nothing may be left out. -/
theorem lastSet_of_none {e : ε} {before after : List ε} (h : set e = none) :
    lastSet set (before ++ e :: after) = lastSet set (before ++ after) := by
  rw [lastSet_append, lastSet_append, lastSet_cons, h, Option.or_none]

/-- An event that sets something may change places with a later one that sets
nothing exactly when something is set behind both of them, or nothing else is
what is set last between them. -/
theorem lastSet_exchange {e e' : ε} {a : α} (before between after : List ε)
    (he : set e = some a) (he' : set e' = none) :
    lastSet set (before ++ e' :: between ++ e :: after) =
        lastSet set (before ++ e :: between ++ e' :: after) ↔
      lastSet set after ≠ none ∨ (lastSet set between).getD a = a := by
  simp only [lastSet_append, lastSet_cons, he, he', Option.or_none]
  cases lastSet set after with
  | some b => simp
  | none =>
      cases lastSet set between with
      | none => simp
      | some b => simp [eq_comm]

/-- Lists of events of several kinds, in the same order within each kind. -/
def SameOrder [DecidableEq κ] (kind : ε → κ) (events others : List ε) : Prop :=
  ∀ k, others.filter (kind · = k) = events.filter (kind · = k)

/-- The order of the events of other kinds does not matter to what is set last. -/
theorem SameOrder.lastSet [DecidableEq κ] {kind : ε → κ} {others : List ε}
    (h : SameOrder kind events others) {k : κ}
    (hset : ∀ e, set e ≠ none → kind e = k) : lastSet set others = lastSet set events := by
  have hfilter (es : List ε) : (es.filter (kind · = k)).filterMap set = es.filterMap set := by
    rw [List.filterMap_filter]
    apply List.filterMap_congr
    intro e _
    by_cases hkind : kind e = k
    · simp [hkind]
    · simp [hkind, not_imp_comm.mp (hset e) hkind]
  rw [Machine.lastSet, Machine.lastSet, ← hfilter others, h k, hfilter]

end LastSet

variable {m : Machine σ ε} (get : σ → α) {set : ε → Option α}

/-- The register rule: a part that every step sets or leaves alone has, after
any list of events, the value set last, and the initial one if none was set. -/
theorem after_register (hstep : ∀ s e, get (m.next s e) = (set e).getD (get s))
    (s : σ) (events : List ε) : get (m.after s events) = (lastSet set events).getD (get s) := by
  induction events generalizing s with
  | nil => rfl
  | cons e rest ih =>
      rw [after_cons, ih, hstep, lastSet_cons]
      cases lastSet set rest <;> rfl

/-- A part that no step sets keeps its value. -/
theorem after_constant (hstep : ∀ s e, get (m.next s e) = get s) (s : σ) (events : List ε) :
    get (m.after s events) = get s := by
  induction events generalizing s with
  | nil => rfl
  | cons e rest ih => rw [after_cons, ih, hstep]

end L1Comm.Machine
