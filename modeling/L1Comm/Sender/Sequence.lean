import L1Comm.Sender.Heartbeats
import L1Comm.Sender.System

/-!
The numbers of the heartbeats over the whole life of a process: they are those
of the generator, whichever sockets the heartbeats are written to and whichever
objects send them.
-/

namespace L1Comm.Sender

open NumGenerator (IntType)

variable {ι : Type*} [DecidableEq ι]

theorem counts_system_next (sys : System ι) (step : ι × Event) :
    Counts sys.process (sys.next step).process step.2.isTick :=
  counts_next (sys.view step.1) step.2

theorem numbers_system (address : ι → SockAddr) (steps : List (ι × Event)) :
    numbers ((system ι).after (.initial address) steps).process.trace =
      (List.range (steps.countP fun step => step.2.isTick)).map (· % 65535) := by
  rw [numbers_of_counts System.process (fun step : ι × Event => step.2.isTick)
    counts_system_next _ steps 0 rfl, List.range_eq_range']
  rfl

/-- The closed form of the generator, for every integer type with a largest
value of 2 or more, and of the heartbeats of a process: the calls count modulo
the largest value and never return it, the increment stays within the type, as
many calls in a row return distinct values, and the heartbeats carry the values
of `NumGenerator<unsigned short>` in order, across all connections of a sender
and all senders of the process. -/
theorem sequence_closed_form {T : IntType} (hmax : 2 ≤ T.max) (n : Nat) :
    (T.returned n = n % T.max ∧ T.returned n ≠ T.max ∧
        T.stored n < T.max ∧ T.inc (T.stored n) = T.stored n + 1 ∧
        T.inc (T.stored n) ≤ T.max ∧
        ((List.range' n T.max).map T.returned).Nodup) ∧
      (∀ (host : String) (port : Int) (events : List Event),
        numbers (machine.after (initial host port) events).trace =
          (List.range (events.countP Event.isTick)).map (· % 65535)) ∧
      ∀ (address : ι → SockAddr) (steps : List (ι × Event)),
        numbers ((system ι).after (.initial address) steps).process.trace =
          (List.range (steps.countP fun step => step.2.isTick)).map (· % 65535) := by
  have hpos : 0 < T.max := by omega
  have hlt : T.stored n < T.max := by
    rw [IntType.stored_eq hpos]
    exact Nat.mod_lt n hpos
  have hinc : T.inc (T.stored n) = T.stored n + 1 := T.inc_of_lt _ hlt
  refine ⟨⟨IntType.returned_eq hpos n, Nat.ne_of_lt hlt, hlt, hinc, ?_,
    IntType.nodup_returned hpos n⟩, numbers_initial, numbers_system⟩
  rw [hinc]
  exact hlt

/-- The generator of the heartbeats, at its last number before the wrap. -/
theorem sequence_closed_form_unsignedShort :
    (IntType.unsigned numMax).returned 65534 = 65534 ∧
      (IntType.unsigned numMax).returned 65535 = 0 := by
  have hmax : 2 ≤ (IntType.unsigned numMax).max := by decide
  have hlast := (@sequence_closed_form Unit _ _ hmax 65534).1.1
  have hwrap := (@sequence_closed_form Unit _ _ hmax 65535).1.1
  exact ⟨hlast, hwrap⟩

end L1Comm.Sender
