import Mathlib.Data.List.Chain

/-!
The Python loop `for item in l: if p(item): l.remove(item)`, over any elements
and any test. The loop keeps an index into the list, and `remove` deletes the
first element equal to the item. A deletion moves the elements behind it one
place to the front, so the element after a removed one is never tested.
-/

namespace L1Comm.Python

variable {α : Type*} [DecidableEq α] (p : α → Bool)

/-- The loop from index `i` on. -/
def removeFrom (l : List α) (i : ℕ) : List α :=
  if h : i < l.length then
    if p l[i] then removeFrom (l.erase l[i]) (i + 1) else removeFrom l (i + 1)
  else l
termination_by l.length - i
decreasing_by
  · have := List.length_erase_le (a := l[i]) (l := l)
    omega
  · omega

/-- The whole loop. -/
def removeWhere (l : List α) : List α := removeFrom p l 0

variable {p}

/-- What is left is at least as long as the part already walked over. -/
theorem le_length_removeFrom (l : List α) (i : ℕ) (hi : i ≤ l.length) :
    i ≤ (removeFrom p l i).length := by
  fun_induction removeFrom p l i with
  | case1 l i h hp ih =>
      have hlength := List.length_erase_of_mem (l.getElem_mem h)
      by_cases hlast : i + 1 ≤ (l.erase l[i]).length
      · exact Nat.le_of_succ_le (ih hlast)
      · rw [removeFrom, dif_neg (by omega)]
        omega
  | case2 l i h hp ih => exact Nat.le_of_succ_le (ih h)
  | case3 l i h => exact hi

/-- The loop leaves nothing only of a list without elements, or of one whose
only element matches. -/
theorem removeWhere_eq_nil_iff {l : List α} :
    removeWhere p l = [] ↔ l = [] ∨ ∃ a, l = [a] ∧ p a := by
  rw [removeWhere]
  match l with
  | [] => simp [removeFrom]
  | [a] => cases h : p a <;> simp [removeFrom, h]
  | a :: b :: rest =>
      have hleft : 1 ≤ (removeFrom p (a :: b :: rest) 0).length := by
        rw [removeFrom, dif_pos (by simp)]
        split
        · exact le_length_removeFrom _ _ (by simp)
        · exact le_length_removeFrom _ _ (by simp)
      constructor
      · intro h
        rw [h] at hleft
        cases hleft
      · rintro (h | ⟨c, h, -⟩)
        · cases h
        · cases h

omit [DecidableEq α] in
theorem getElem_mem_take {l : List α} {i : ℕ} (h : i < l.length) :
    l[i] ∈ l.take (i + 1) := by
  rw [List.take_succ_eq_append_getElem h]
  exact List.mem_append_right _ List.mem_cons_self

/-- Removing the current item deletes it, or an equal one before it. -/
theorem erase_getElem {l : List α} {i : ℕ} (h : i < l.length) :
    l.erase l[i] = (l.take (i + 1)).erase l[i] ++ l.drop (i + 1) := by
  rw [← List.erase_append_left _ (getElem_mem_take h), List.take_append_drop]

/-- If no item before it is equal, it is the current item that is deleted. -/
theorem erase_getElem_of_not_mem {l : List α} {i : ℕ} (h : i < l.length)
    (hnew : l[i] ∉ l.take i) : l.erase l[i] = l.take i ++ l.drop (i + 1) := by
  rw [erase_getElem h, List.take_succ_eq_append_getElem h, List.erase_append_right _ hnew]
  simp

/-- A removal deletes one match of those walked over. -/
theorem countP_erase_getElem {l : List α} {i : ℕ} (h : i < l.length) (hp : p l[i]) :
    (l.take i).countP p ≤ ((l.erase l[i]).take (i + 1)).countP p := by
  have htake : (l.take (i + 1)).countP p = (l.take i).countP p + 1 := by
    rw [List.take_succ_eq_append_getElem h, List.countP_append, List.countP_singleton,
      if_pos hp]
  have herase : (l.take (i + 1)).countP p = ((l.take (i + 1)).erase l[i]).countP p + 1 := by
    rw [(List.perm_cons_erase (getElem_mem_take h)).countP_eq p, List.countP_cons_of_pos hp]
  have hprefix : (l.take (i + 1)).erase l[i] <+: (l.erase l[i]).take (i + 1) := by
    rw [List.prefix_take_iff, erase_getElem h]
    exact ⟨List.prefix_append _ _, List.length_erase_le.trans (List.length_take_le _ _)⟩
  have hle := hprefix.countP_le (p := p)
  omega

/-- The matches in the part already walked over never get fewer. -/
theorem countP_take_le (l : List α) (i : ℕ) :
    (l.take i).countP p ≤ (removeFrom p l i).countP p := by
  fun_induction removeFrom p l i with
  | case1 l i h hp ih => exact (countP_erase_getElem h hp).trans ih
  | case2 l i h hp ih =>
      refine le_trans ?_ ih
      rw [List.take_succ_eq_append_getElem h, List.countP_append]
      exact Nat.le_add_right _ _
  | case3 l i h => rw [List.take_of_length_le (Nat.not_lt.mp h)]

/-- So if no match is left, there was none in that part. -/
theorem not_match_of_mem_take {l : List α} {i : ℕ} (hnone : ∀ a ∈ removeFrom p l i, ¬ p a) :
    ∀ a ∈ l.take i, ¬ p a := by
  rw [← List.countP_eq_zero] at hnone ⊢
  have hle := countP_take_le (p := p) l i
  omega

/-- No two adjacent elements match. -/
def Separated (p : α → Bool) (l : List α) : Prop := l.IsChain fun a b => ¬ (p a ∧ p b)

omit [DecidableEq α] in
theorem separated_cons {a : α} {l : List α} :
    Separated p (a :: l) ↔ (p a → ∀ b ∈ l.head?, ¬ p b) ∧ Separated p l := by
  simp only [Separated, List.isChain_cons, not_and]
  constructor
  · exact fun h => ⟨fun ha b hb => h.1 b hb ha, h.2⟩
  · exact fun h => ⟨fun b hb ha => h.1 ha b hb, h.2⟩

/-- A removal of the current item moves the next one into the part walked over. -/
theorem take_erase_getElem {l : List α} {i : ℕ} (h : i < l.length) (hnew : l[i] ∉ l.take i) :
    (l.erase l[i]).take (i + 1) = l.take i ++ (l.drop (i + 1)).head?.toList := by
  rw [erase_getElem_of_not_mem h hnew, List.take_append, List.take_of_length_le
    ((List.length_take_le _ _).trans (Nat.le_succ i)), List.length_take_of_le h.le,
    Nat.add_sub_cancel_left, List.take_one]

theorem drop_erase_getElem {l : List α} {i : ℕ} (h : i < l.length) (hnew : l[i] ∉ l.take i) :
    (l.erase l[i]).drop (i + 1) = (l.drop (i + 1)).tail := by
  rw [erase_getElem_of_not_mem h hnew, List.drop_append, List.drop_of_length_le
    ((List.length_take_le _ _).trans (Nat.le_succ i)), List.length_take_of_le h.le,
    Nat.add_sub_cancel_left, List.drop_one, List.nil_append]

/-- If no match is left, no two adjacent elements from the index on match. -/
theorem separated_of_removeFrom (l : List α) (i : ℕ)
    (hnone : ∀ a ∈ removeFrom p l i, ¬ p a) : Separated p (l.drop i) := by
  fun_induction removeFrom p l i with
  | case1 l i h hp ih =>
      have hwalked := not_match_of_mem_take hnone
      have hnew : l[i] ∉ l.take i := by
        intro hmem
        have hold := countP_erase_getElem h hp
        rw [List.countP_eq_zero.mpr hwalked, Nat.le_zero, List.countP_eq_zero] at hold
        exact hold _ hmem hp
      have hchain := ih hnone
      rw [take_erase_getElem h hnew] at hwalked
      rw [drop_erase_getElem h hnew] at hchain
      rw [List.drop_eq_getElem_cons h, separated_cons]
      cases hrest : l.drop (i + 1) with
      | nil => exact ⟨fun _ b hb => (nomatch hb), List.IsChain.nil⟩
      | cons b rest =>
          rw [hrest] at hwalked hchain
          have hb : ¬ p b := hwalked b (List.mem_append_right _ (by simp))
          have htail : Separated p (b :: rest) :=
            separated_cons.mpr ⟨fun hpb => absurd hpb hb, hchain⟩
          refine ⟨fun _ c hc => ?_, htail⟩
          obtain rfl : b = c := Option.some.inj hc
          exact hb
  | case2 l i h hp ih =>
      rw [List.drop_eq_getElem_cons h, separated_cons]
      exact ⟨fun hitem => absurd hitem hp, ih hnone⟩
  | case3 l i h =>
      rw [List.drop_of_length_le (Nat.not_lt.mp h)]
      exact List.IsChain.nil

/-- Where no two adjacent elements match, the loop removes every match. -/
theorem removeFrom_eq_filter (l : List α) (i : ℕ) (hwalked : ∀ a ∈ l.take i, ¬ p a)
    (hchain : Separated p (l.drop i)) : removeFrom p l i = l.filter (fun a => !p a) := by
  fun_induction removeFrom p l i with
  | case1 l i h hp ih =>
      have hnew : l[i] ∉ l.take i := fun hmem => hwalked _ hmem hp
      rw [List.drop_eq_getElem_cons h, separated_cons] at hchain
      rw [ih]
      · have hlist := List.take_append_drop i l
        rw [List.drop_eq_getElem_cons h] at hlist
        conv_rhs => rw [← hlist]
        rw [erase_getElem_of_not_mem h hnew, List.filter_append, List.filter_append,
          List.filter_cons_of_neg (by simp [hp])]
      · intro a ha
        rw [take_erase_getElem h hnew, List.mem_append, Option.mem_toList] at ha
        exact ha.elim (hwalked a) (hchain.1 hp a)
      · rw [drop_erase_getElem h hnew]
        exact hchain.2.tail
  | case2 l i h hp ih =>
      rw [List.drop_eq_getElem_cons h, separated_cons] at hchain
      refine ih (fun a ha => ?_) hchain.2
      rw [List.take_succ_eq_append_getElem h, List.mem_append, List.mem_singleton] at ha
      rcases ha with ha | rfl
      · exact hwalked a ha
      · exact hp
  | case3 l i h =>
      rw [List.take_of_length_le (Nat.not_lt.mp h)] at hwalked
      rw [List.filter_eq_self.mpr fun a ha => by simpa using hwalked a ha]

/-- The loop leaves exactly the elements that do not match, in their order, if
and only if no two adjacent elements match. -/
theorem removeWhere_eq_filter_iff {l : List α} :
    removeWhere p l = l.filter (fun a => !p a) ↔ Separated p l := by
  constructor
  · intro h
    refine separated_of_removeFrom l 0 fun a ha => ?_
    rw [← removeWhere, h, List.mem_filter] at ha
    simpa using ha.2
  · intro h
    exact removeFrom_eq_filter l 0 (by simp) h

end L1Comm.Python
