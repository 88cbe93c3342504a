import Mathlib.Data.List.GetD
import Mathlib.Data.List.Range

/-!
Records of a fixed size in a stream without boundaries. A stream is a list of
cells; its complete records are the blocks of `size` cells from the start on,
and what is left over is a fragment. The stream arrives in pieces, so the laws
are about what appending a piece does to the records: a piece that starts at a
record boundary adds its own records, and a piece that does not completes
records whose cells lie on both sides of the cut.

The last part is about a predicate that looks at one cell of a record only. It
says which cells of the stream can make a difference to the number of records
with the predicate.
-/

namespace L1Comm.Framing

variable {α : Type*} [Inhabited α] (size : Nat)

/-- The cells `size * i`, …, `size * i + size - 1` of the stream. -/
def record (stream : List α) (i : Nat) : Fin size → α :=
  fun j => stream.getD (size * i + j) default

/-- The complete records of the stream. -/
def records (stream : List α) : List (Fin size → α) :=
  (List.range (stream.length / size)).map (record size stream)

/-- A complete record lies inside the stream. -/
theorem record_end_le {size length i : Nat} (hi : i < length / size) :
    size * i + size ≤ length := by
  rw [← Nat.mul_succ, Nat.mul_comm]
  exact Nat.mul_le_of_le_div size (i + 1) length hi

theorem record_append_left {stream : List α} {i : Nat} (hi : i < stream.length / size)
    (piece : List α) : record size (stream ++ piece) i = record size stream i := by
  funext j
  have hend := record_end_le hi
  exact List.getD_append _ _ _ _ (by omega)

theorem record_append_right {stream : List α} {n : Nat} (hn : stream.length = size * n)
    (piece : List α) (i : Nat) :
    record size (stream ++ piece) (n + i) = record size piece i := by
  funext j
  have hle : stream.length ≤ size * (n + i) + j := by
    rw [hn, Nat.mul_add]
    omega
  have hsub : size * (n + i) + j - stream.length = size * i + j := by
    rw [hn, Nat.mul_add]
    omega
  simp only [record]
  rw [List.getD_append_right _ _ _ _ hle, hsub]

/-- At a record boundary the pieces can be looked at one by one. -/
theorem records_append {stream : List α} {n : Nat} (hsize : 0 < size)
    (hn : stream.length = size * n) (piece : List α) :
    records size (stream ++ piece) = records size stream ++ records size piece := by
  have hcount : stream.length / size = n := by
    rw [hn, Nat.mul_div_cancel_left n hsize]
  have htotal : (stream ++ piece).length / size = n + piece.length / size := by
    rw [List.length_append, hn, Nat.mul_add_div hsize]
  simp only [records, htotal, hcount, List.range_add, List.map_append, List.map_map]
  congr 1
  · apply List.map_congr_left
    intro i hi
    apply record_append_left
    rw [hcount]
    exact List.mem_range.mp hi
  · apply List.map_congr_left
    intro i _
    exact record_append_right size hn piece i

/-- A piece of less than two records holds at most its first one. -/
theorem records_of_lt {piece : List α} (hone : size ≤ piece.length)
    (htwo : piece.length < 2 * size) : records size piece = [record size piece 0] := by
  have hcount : piece.length / size = 1 := by
    rw [Nat.div_eq_iff (by omega)]
    omega
  simp [records, hcount]

/-- The records of a part of the stream that has arrived. -/
theorem records_of_prefix {arrived stream : List α} (h : arrived <+: stream) :
    records size arrived = (records size stream).take (arrived.length / size) := by
  obtain ⟨piece, rfl⟩ := h
  have hle : arrived.length / size ≤ (arrived ++ piece).length / size := by
    apply Nat.div_le_div_right
    simp
  rw [records, records, ← List.map_take, List.take_range, Nat.min_eq_left hle]
  apply List.map_congr_left
  intro i hi
  exact (record_append_left size (List.mem_range.mp hi) piece).symm

/-- The cells of a list of records, one record after the other. -/
def cells (rs : List (Fin size → α)) : List α := rs.flatMap List.ofFn

omit [Inhabited α] in
theorem length_cells (rs : List (Fin size → α)) : (cells size rs).length = size * rs.length := by
  induction rs with
  | nil => rfl
  | cons r rest ih =>
      rw [cells, List.flatMap_cons, ← cells, List.length_append, ih, List.length_ofFn,
        List.length_cons, Nat.mul_succ, Nat.add_comm]

theorem records_ofFn (hsize : 0 < size) (r : Fin size → α) : records size (List.ofFn r) = [r] := by
  have hone : size ≤ (List.ofFn r).length := by simp
  have htwo : (List.ofFn r).length < 2 * size := by
    rw [List.length_ofFn]
    omega
  rw [records_of_lt size hone htwo]
  congr 1
  funext j
  simp [record, List.getD_eq_getElem?_getD]

/-- Whoever cuts the stream into records again has what was put into it. -/
theorem records_cells (hsize : 0 < size) (rs : List (Fin size → α)) :
    records size (cells size rs) = rs := by
  induction rs with
  | nil => simp [records, cells]
  | cons r rest ih =>
      have hlength : (List.ofFn r).length = size * 1 := by simp
      rw [cells, List.flatMap_cons, ← cells, records_append size hsize hlength,
        records_ofFn size hsize, ih]
      rfl

section Cells

variable {size}

/-- In a stream of this length, cell `q` is cell `c` of no complete record. -/
def Misses (length : Nat) (c : Fin size) (q : Nat) : Prop :=
  ∀ i < length / size, size * i + c ≠ q

/-- Off a record boundary, what is cell `c` of the piece is another cell of the
record that the piece continues. -/
theorem misses_of_offset {n : Nat} (hoffset : n % size ≠ 0) (length : Nat) (c : Fin size) :
    Misses length c (n + c) := by
  intro i _ heq
  have hn : n = size * i := by omega
  exact hoffset (by rw [hn, Nat.mul_mod_right])

/-- A piece too short for a record does not complete the one it begins. -/
theorem misses_of_short {n length : Nat} (hshort : length < n + size) (c : Fin size) :
    Misses length c (n + c) := by
  intro i hi heq
  have hn : n = size * i := by omega
  have hend := record_end_le hi
  omega

/-- A predicate that looks at cell `c` does not see the other cells. -/
theorem countP_records_set {p : (Fin size → α) → Bool} {c : Fin size}
    (hp : ∀ f g : Fin size → α, f c = g c → p f = p g)
    {stream : List α} {q : Nat} (hmisses : Misses stream.length c q) (x : α) :
    (records size (stream.set q x)).countP p = (records size stream).countP p := by
  simp only [records, List.length_set, List.countP_map]
  apply List.countP_congr
  intro i hi
  have hcell : record size (stream.set q x) i c = record size stream i c := by
    have hne : q ≠ size * i + c := (hmisses i (List.mem_range.mp hi)).symm
    simp [record, List.getD_eq_getElem?_getD, List.getElem?_set_ne hne]
  simp only [Function.comp_apply, hp _ _ hcell]

end Cells

end L1Comm.Framing
