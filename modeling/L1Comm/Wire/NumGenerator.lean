import Mathlib.Order.Interval.Finset.Nat

/-!
`NumGenerator<T>`, the source of the heartbeat numbers. Its only state is the
function-local static `num_`, one for each type `T` and shared by the whole
process. The parameter `max` is `std::numeric_limits<T>::max()`.
-/

namespace L1Comm.NumGenerator

/-- `++num_`. The types the sender uses are unsigned, so the increment wraps
past the largest value. -/
def incr (max num : Nat) : Nat := (num + 1) % (max + 1)

/-- `GetNum`: the number returned and the value left in `num_`. -/
def getNum (max num : Nat) : Nat × Nat := (num, incr max num % max)

/-- From a value below `max` the increment does not wrap, so only the modulus
brings the generator back to zero. -/
theorem getNum_of_lt {max num : Nat} (h : num < max) :
    getNum max num = (num, (num + 1) % max) := by
  have hincr : incr max num = num + 1 := Nat.mod_eq_of_lt (by omega)
  rw [getNum, hincr]

/-- One call takes the state `k mod max` to `(k + 1) mod max`. -/
theorem getNum_mod {max : Nat} (hmax : 0 < max) (k : Nat) :
    getNum max (k % max) = (k % max, (k + 1) % max) := by
  rw [getNum_of_lt (Nat.mod_lt k hmax), Nat.mod_add_mod]

/-! ## Any integer type -/

/-- An integer type as the generator sees it: its largest value, and what `++`
makes of a value. At the largest value this is a matter of the type: unsigned
types wrap, narrow signed ones too, and for the others it is undefined. -/
structure IntType where
  max : Nat
  inc : Nat → Nat
  inc_of_lt : ∀ num < max, inc num = num + 1

namespace IntType

/-- The unsigned type with this largest value. -/
def unsigned (max : Nat) : IntType where
  max := max
  inc := incr max
  inc_of_lt _ h := Nat.mod_eq_of_lt (Nat.succ_lt_succ h)

variable (T : IntType)

/-- `NumGenerator<T>::GetNum`. -/
def getNum (num : Nat) : Nat × Nat := (num, T.inc num % T.max)

theorem getNum_unsigned (max num : Nat) :
    (unsigned max).getNum num = NumGenerator.getNum max num := rfl

/-- `num_` after this many calls. -/
def stored : Nat → Nat
  | 0 => 0
  | n + 1 => (T.getNum (stored n)).2

/-- What the call with this number returns, counting from 0. -/
def returned (n : Nat) : Nat := (T.getNum (T.stored n)).1

variable {T}

theorem stored_eq (hmax : 0 < T.max) (n : Nat) : T.stored n = n % T.max := by
  induction n with
  | zero => exact (Nat.zero_mod T.max).symm
  | succ n ih =>
      have hlt : T.stored n < T.max := ih ▸ Nat.mod_lt n hmax
      rw [stored, getNum, T.inc_of_lt _ hlt, ih, Nat.mod_add_mod]

theorem returned_eq (hmax : 0 < T.max) (n : Nat) : T.returned n = n % T.max :=
  stored_eq hmax n

/-- As many consecutive calls as the type has values below the largest return
distinct values. -/
theorem nodup_returned (hmax : 0 < T.max) (n : Nat) :
    ((List.range' n T.max).map T.returned).Nodup := by
  refine List.Nodup.map_on ?_ List.nodup_range'
  intro i hi j hj hij
  rw [returned_eq hmax, returned_eq hmax] at hij
  rw [List.mem_range'_1] at hi hj
  exact Nat.mod_injOn_Ico n T.max (by simpa using hi) (by simpa using hj) hij

end IntType

end L1Comm.NumGenerator
