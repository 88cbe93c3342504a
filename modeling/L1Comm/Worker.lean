import L1Comm.Uv.Loop

/-!
What the two worker classes have in common. `Start` resets the stop flag and
creates the thread; `Stop` sets the flag, tries to close the loop and joins
the thread. Both are called from outside the thread, one after the other.
-/

namespace L1Comm

/-- The address `uv_ip4_addr` makes of a host and a port. It stands for both as
they are given: what is said of destinations is said of hosts and ports which
`uv_ip4_addr` accepts, whose result the workers drop, and of ports of 16 bits. -/
structure SockAddr where
  host : String
  port : Int
  deriving DecidableEq, Repr

/-- Where the caller is: no thread to stop, a thread started, inside `Stop`
after the store of the flag, inside `Stop` after `uv_loop_close`. -/
inductive Caller where
  | stopped | started | flagged | joining
  deriving DecidableEq, Repr

/-- `uv_loop_close` fails while a handle is in the queue. -/
def loopCloseRet (l : Uv.Loop SockAddr) : Int := if l.queue = [] then 0 else -16

theorem loopCloseRet_eq_zero {l : Uv.Loop SockAddr} : loopCloseRet l = 0 ↔ l.queue = [] := by
  constructor
  · intro hret
    by_contra hne
    rw [loopCloseRet, if_neg hne] at hret
    cases hret
  · exact fun hempty => if_pos hempty

end L1Comm
