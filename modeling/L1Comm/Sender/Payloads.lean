import L1Comm.Machine.Recording
import L1Comm.Sender.Actions

/-!
The memory of the heartbeats. `onTimer` allocates a payload and a request and
hands both to `uv_write`; the callback of the request releases them. Where
`uv_write` refuses the request there is no callback, and `onTimer`, which drops
the return value, does not release them either.
-/

namespace L1Comm.Sender

open Uv

/-- The payload and the request that a step allocates. -/
def allocated (s : State) : Event → List (Addr × Addr)
  | .timerCb .. => [(s.fresh, s.fresh + 1)]
  | _ => []

/-- libuv has accepted the request and still owes its callback. -/
def InFlight (s : State) (req : Addr) : Prop := ∃ c ∈ s.loop.writes, c.req = req

/-- A payload and its request are released once, as soon as the request is not
pending. -/
structure PairReturned (s : State) (pair : Addr × Addr) : Prop where
  pending : InFlight s pair.2 → frees s.trace pair.1 = 0 ∧ frees s.trace pair.2 = 0
  settled : ¬ InFlight s pair.2 → frees s.trace pair.1 = 1 ∧ frees s.trace pair.2 = 1

def PairsReturned (s : State × List (Addr × Addr)) : Prop := ∀ pair ∈ s.2, PairReturned s.1 pair

/-- `uv_write` accepts the heartbeat. -/
def WriteAccepted : Event → Prop
  | .timerCb _ _ ret => ret = 0
  | _ => True

/-- What a step releases. -/
def released (s : State) : Event → List Ptr
  | .connectCb _ _ status => if status < 0 then [] else [s.conn.timer]
  | .writeCb req _ _ => [s.data req, some req]
  | .closeCb h => [some h]
  | .exit =>
      let p := s.toProcess.call (.close (some s.worker.connect))
      if p.loop.fate = .aborted ∨ (p.call (.close s.worker.socket)).loop.fate = .aborted then []
      else [s.conn.timer]
  | _ => []

section Steps

variable (s : State) (e : Event)

theorem frees_next (a : Addr) :
    frees (next s e).trace a = frees s.trace a + (released s e).count (some a) := by
  rw [trace_next, frees_append]
  apply congrArg (frees s.trace a + ·)
  cases e with
  | body ret =>
      by_cases hstatus : s.conn.status = .disconnect
      · cases hsocket : s.worker.socket <;> simp [calls, released, hstatus, hsocket]
      · simp [calls, released, hstatus]
  | connectCb req h status =>
      by_cases hstatus : status < 0
      · simp [calls, released, hstatus]
      · cases htimer : s.conn.timer <;>
          simp [calls, released, hstatus, htimer, List.count_cons]
  | writeCb req h status =>
      by_cases hstatus : status < 0 <;> simp [calls, released, hstatus, List.count_cons]
  | exit =>
      simp only [calls, released]
      cases htimer : s.conn.timer <;> split_ifs <;> simp_all [List.count_cons]
  | _ => simp [calls, released, List.count_cons]

theorem data_next {a : Addr} (ha : a < s.fresh) : (next s e).data a = s.data a := by
  cases e with
  | body ret =>
      by_cases hstatus : s.conn.status = .disconnect <;> simp [next, body, hstatus]
  | connectCb req h status =>
      by_cases hstatus : status < 0
      · rw [connectCb_failed req hstatus]
        rfl
      · rw [connectCb_data req hstatus]
  | writeCb req h status => rw [writeCb_data]
  | timerCb t heap ret =>
      have hne : a ≠ s.fresh + 1 := Nat.ne_of_lt (Nat.lt_succ_of_lt ha)
      simp [next, onTimer, Function.update_of_ne hne]
  | exit => rw [next, exit_data]
  | _ => rfl

/-- Only the heartbeats and their callbacks change the pending writes. -/
theorem writes_next (htimer : ∀ t heap ret, e ≠ .timerCb t heap ret)
    (hwrite : ∀ req h status, e ≠ .writeCb req h status) :
    (next s e).loop.writes = s.loop.writes := by
  cases e with
  | body ret =>
      by_cases hstatus : s.conn.status = .disconnect <;> simp [next, body, hstatus]
  | connectCb req h status => rw [connectCb_writes]
  | writeCb req h status => exact absurd rfl (hwrite req h status)
  | timerCb t heap ret => exact absurd rfl (htimer t heap ret)
  | exit => rw [next, exit_writes]
  | _ => rfl

end Steps

/-- The payloads and requests of a run whose writes are all accepted: memory of
their own, each request pending at most once and with its payload. -/
structure PairsKept (s : State × List (Addr × Addr)) : Prop where
  wellFormed : WellFormed s.1
  frees_fresh : ∀ a, s.1.fresh ≤ a → frees s.1.trace a = 0
  unconnected : s.1.conn.socket = none →
    s.1.loop.connects = [] ∧ ∀ t, s.1.loop.active t = false
  plain : ∀ x ∈ s.2, x.1 < x.2 ∧ x.2 < s.1.fresh ∧
    s.1.loop.stage x.1 = .uninitialised ∧ s.1.loop.stage x.2 = .uninitialised
  apart : ∀ x ∈ s.2, ∀ y ∈ s.2, x = y ∨ x.2 < y.1 ∨ y.2 < x.1
  paired : ∀ c ∈ s.1.loop.writes, ∃ x ∈ s.2, c.req = x.2 ∧ s.1.data c.req = some x.1
  once : ∀ c ∈ s.1.loop.writes, ∀ d ∈ s.1.loop.writes, c.req = d.req → c = d
  returned : PairsReturned s

theorem pairsKept_initial (host : String) (port : Int) : PairsKept (initial host port, []) := by
  constructor
  · exact wellFormed_initial host port
  all_goals simp [initial, PairsReturned]

namespace PairsKept

variable {s : State × List (Addr × Addr)} {e : Event} {a : Addr}

/-- Memory that is no handle is released by the callbacks of writes alone. -/
theorem frees_plain (h : PairsKept s) (henabled : Enabled s.1 e)
    (hwrite : ∀ req h status, e ≠ .writeCb req h status)
    (hplain : s.1.loop.stage a = .uninitialised) :
    frees (next s.1 e).trace a = frees s.1.trace a := by
  have htimer : s.1.conn.timer ≠ some a := fun ht => h.wellFormed.timer_used a ht hplain
  rw [frees_next, Nat.add_eq_left]
  cases e with
  | writeCb req h status => exact absurd rfl (hwrite req h status)
  | connectCb req h status =>
      by_cases hstatus : status < 0 <;> simp [released, hstatus, htimer]
  | closeCb h =>
      have hne : h ≠ a := by
        rintro rfl
        have hclosing := henabled.2.1
        rw [hplain] at hclosing
        cases hclosing
      simp [released, hne]
  | exit =>
      simp only [released]
      split_ifs <;> simp [htimer]
  | _ => rfl

theorem stage_plain (henabled : Enabled s.1 e) (hlt : a < s.1.fresh)
    (hplain : s.1.loop.stage a = .uninitialised) :
    (next s.1 e).loop.stage a = .uninitialised := by
  refine Sender.plain_next hlt ?_ hplain
  rintro rfl
  have hclosing := henabled.2.1
  rw [hplain] at hclosing
  cases hclosing

theorem frees_fresh_next (h : PairsKept s) (henabled : Enabled s.1 e)
    (ha : (next s.1 e).fresh ≤ a) : frees (next s.1 e).trace a = 0 := by
  have hle : s.1.fresh ≤ a := Nat.le_trans (fresh_le_next s.1 e) ha
  have hplain := h.wellFormed.stage_fresh a hle
  rw [← h.frees_fresh a hle]
  cases e with
  | writeCb req b status =>
      obtain ⟨-, hreq⟩ := h.wellFormed.writes_lt _ henabled.2.1
      obtain ⟨-, payload, hlt, hdata, -⟩ := h.wellFormed.writes_plain _ henabled.2.1
      have hreq' : req ≠ a := Nat.ne_of_lt (Nat.lt_of_lt_of_le hreq hle)
      have hpayload' : payload ≠ a := Nat.ne_of_lt (Nat.lt_of_lt_of_le hlt hle)
      rw [frees_next, Nat.add_eq_left]
      simp [released, hdata, hreq', hpayload']
  | _ => exact h.frees_plain henabled (by simp) hplain

theorem unconnected_next (h : PairsKept s) (henabled : Enabled s.1 e)
    (hnone : (next s.1 e).conn.socket = none) :
    (next s.1 e).loop.connects = [] ∧ ∀ t, (next s.1 e).loop.active t = false := by
  rw [socket_next] at hnone
  split at hnone
  · cases hnone
  · next hkeeps =>
      obtain ⟨hconnects, hactive⟩ := h.unconnected hnone
      constructor
      · refine List.eq_nil_iff_forall_not_mem.mpr fun c hc => ?_
        rcases mem_connects_next s.1 e hc with hold | ⟨-, hnew⟩
        · rw [hconnects] at hold
          exact List.not_mem_nil hold
        · exact hkeeps hnew
      · intro t
        refine Bool.eq_false_iff.mpr fun ht => ?_
        rcases active_next s.1 e ht with hold | ⟨-, -, req, b, status, rfl⟩
        · rw [hactive t] at hold
          cases hold
        · have hpending := henabled.2.1
          rw [hconnects] at hpending
          exact List.not_mem_nil hpending

theorem plain_next (h : PairsKept s) (henabled : Enabled s.1 e) {x : Addr × Addr}
    (hx : x ∈ s.2) : x.1 < x.2 ∧ x.2 < (next s.1 e).fresh ∧
      (next s.1 e).loop.stage x.1 = .uninitialised ∧
      (next s.1 e).loop.stage x.2 = .uninitialised := by
  obtain ⟨hlt, hbound, hpayload, hreq⟩ := h.plain x hx
  exact ⟨hlt, Nat.lt_of_lt_of_le hbound (fresh_le_next s.1 e),
    stage_plain henabled (Nat.lt_trans hlt hbound) hpayload,
    stage_plain henabled hbound hreq⟩

/-- A step that is not about heartbeats. -/
theorem of_frame (h : PairsKept s) (henabled : Enabled s.1 e)
    (htimer : ∀ t heap ret, e ≠ .timerCb t heap ret)
    (hwrite : ∀ req h status, e ≠ .writeCb req h status) :
    PairsKept (next s.1 e, s.2) := by
  have hwrites := writes_next s.1 e htimer hwrite
  constructor
  · exact h.wellFormed.next henabled
  · exact fun a ha => h.frees_fresh_next henabled ha
  · exact h.unconnected_next henabled
  · exact fun x hx => h.plain_next henabled hx
  · exact h.apart
  · intro c hc
    rw [hwrites] at hc
    obtain ⟨x, hx, hreq, hdata⟩ := h.paired c hc
    exact ⟨x, hx, hreq, (data_next s.1 e (h.wellFormed.writes_lt c hc).2).trans hdata⟩
  · intro c hc d hd
    rw [hwrites] at hc hd
    exact h.once c hc d hd
  · intro x hx
    obtain ⟨-, -, hpayload, hreq⟩ := h.plain x hx
    have hflight : InFlight (next s.1 e) x.2 ↔ InFlight s.1 x.2 := by
      rw [InFlight, hwrites, InFlight]
    have hfrees := h.frees_plain henabled hwrite hpayload
    have hfrees' := h.frees_plain henabled hwrite hreq
    constructor
    · rw [hflight, hfrees, hfrees']
      exact (h.returned x hx).pending
    · rw [hflight, hfrees, hfrees']
      exact (h.returned x hx).settled

/-- Two pairs that do not overlap have no address in common. -/
theorem ne_of_apart {a b c d : Nat} (hab : a < b) (hcd : c < d) (h : b < c ∨ d < a) :
    a ≠ c ∧ a ≠ d ∧ b ≠ c ∧ b ≠ d := by
  omega

section WriteCb

variable {req b : Addr} {status : Int}

/-- The callback releases the pair of its request. -/
theorem writeCb_own (h : PairsKept s) (hpending : ⟨req, b⟩ ∈ s.1.loop.writes)
    {x : Addr × Addr} (hx : x ∈ s.2) (hreq : req = x.2) (hdata : s.1.data req = some x.1) :
    PairReturned (next s.1 (.writeCb req b status)) x := by
  have hlt := (h.plain x hx).1
  have hdone : ¬ InFlight (next s.1 (.writeCb req b status)) x.2 := by
    rintro ⟨c, hc, hcreq⟩
    obtain ⟨hold, hne⟩ := (mem_writeCb_writes req status).mp hc
    exact hne (h.once c hold _ hpending (hcreq.trans hreq.symm))
  obtain ⟨hpayload, hrequest⟩ := (h.returned x hx).pending ⟨_, hpending, hreq⟩
  refine ⟨fun hflight => absurd hflight hdone, fun _ => ?_⟩
  rw [frees_next, frees_next, hpayload, hrequest, released, hdata, hreq]
  simp [Nat.ne_of_lt hlt, Nat.ne_of_gt hlt]

/-- All others are elsewhere. -/
theorem writeCb_other (h : PairsKept s) {x y : Addr × Addr} (hx : x ∈ s.2) (hy : y ∈ s.2)
    (hreq : req = y.2) (hdata : s.1.data req = some y.1) (hxy : x ≠ y) :
    PairReturned (next s.1 (.writeCb req b status)) x := by
  obtain ⟨hpp, hpr, hrp, hrr⟩ :=
    ne_of_apart (h.plain x hx).1 (h.plain y hy).1 ((h.apart x hx y hy).resolve_left hxy)
  have hpayload : frees (next s.1 (.writeCb req b status)).trace x.1 = frees s.1.trace x.1 := by
    rw [frees_next, released, hdata, hreq]
    simp [hpp.symm, hpr.symm]
  have hrequest : frees (next s.1 (.writeCb req b status)).trace x.2 = frees s.1.trace x.2 := by
    rw [frees_next, released, hdata, hreq]
    simp [hrp.symm, hrr.symm]
  have hflight : InFlight (next s.1 (.writeCb req b status)) x.2 ↔ InFlight s.1 x.2 := by
    constructor
    · rintro ⟨c, hc, hcreq⟩
      exact ⟨c, ((mem_writeCb_writes req status).mp hc).1, hcreq⟩
    · rintro ⟨c, hc, hcreq⟩
      refine ⟨c, (mem_writeCb_writes req status).mpr ⟨hc, ?_⟩, hcreq⟩
      rintro rfl
      exact hrr (hcreq.symm.trans hreq)
  constructor
  · rw [hflight, hpayload, hrequest]
    exact (h.returned x hx).pending
  · rw [hflight, hpayload, hrequest]
    exact (h.returned x hx).settled

theorem writeCb (h : PairsKept s) (henabled : Enabled s.1 (.writeCb req b status)) :
    PairsKept (next s.1 (.writeCb req b status), s.2) := by
  obtain ⟨y, hy, hreq, hdata⟩ := h.paired _ henabled.2.1
  constructor
  · exact h.wellFormed.next henabled
  · exact fun a ha => h.frees_fresh_next henabled ha
  · exact h.unconnected_next henabled
  · exact fun x hx => h.plain_next henabled hx
  · exact h.apart
  · intro c hc
    rw [writeCb_data]
    exact h.paired c ((mem_writeCb_writes req status).mp hc).1
  · intro c hc d hd
    exact h.once c ((mem_writeCb_writes req status).mp hc).1 d
      ((mem_writeCb_writes req status).mp hd).1
  · intro x hx
    by_cases hxy : x = y
    · subst hxy
      exact h.writeCb_own henabled.2.1 hx hreq hdata
    · exact h.writeCb_other hx hy hreq hdata hxy

end WriteCb

section TimerCb

variable {t : Addr} {heap : Payload}

theorem timerCb_frees (s : State) (ret : Int) :
    frees (next s (.timerCb t heap ret)).trace a = frees s.trace a :=
  frees_next s _ a

theorem timerCb_old (h : PairsKept s) {x : Addr × Addr} (hx : x ∈ s.2) :
    PairReturned (next s.1 (.timerCb t heap 0)) x := by
  have hlt := (h.plain x hx).2.1
  have hflight : InFlight (next s.1 (.timerCb t heap 0)) x.2 ↔ InFlight s.1 x.2 := by
    constructor
    · rintro ⟨c, hc, hcreq⟩
      rcases (mem_timerCb_writes t heap 0).mp hc with hold | ⟨-, hreq, -⟩
      · exact ⟨c, hold, hcreq⟩
      · rw [← hcreq, hreq] at hlt
        exact absurd hlt (Nat.not_lt_of_le (Nat.le_succ _))
    · rintro ⟨c, hc, hcreq⟩
      exact ⟨c, (mem_timerCb_writes t heap 0).mpr (.inl hc), hcreq⟩
  constructor
  · rw [hflight, timerCb_frees, timerCb_frees]
    exact (h.returned x hx).pending
  · rw [hflight, timerCb_frees, timerCb_frees]
    exact (h.returned x hx).settled

/-- A timer that fires has a socket to write to. -/
theorem timerCb_socket (h : PairsKept s) (hactive : s.1.loop.active t = true) :
    ∃ socket, s.1.conn.socket = some socket := by
  refine Option.ne_none_iff_exists'.mp fun hnone => ?_
  have hidle := (h.unconnected hnone).2 t
  rw [hactive] at hidle
  cases hidle

/-- The new pair is pending. -/
theorem timerCb_new (h : PairsKept s) (hactive : s.1.loop.active t = true) :
    PairReturned (next s.1 (.timerCb t heap 0)) (s.1.fresh, s.1.fresh + 1) := by
  obtain ⟨socket, hsocket⟩ := h.timerCb_socket hactive
  have hflight : InFlight (next s.1 (.timerCb t heap 0)) (s.1.fresh + 1) :=
    ⟨⟨s.1.fresh + 1, socket⟩,
      (mem_timerCb_writes t heap 0).mpr (.inr ⟨rfl, rfl, hsocket⟩), rfl⟩
  refine ⟨fun _ => ⟨?_, ?_⟩, fun hdone => absurd hflight hdone⟩
  · rw [timerCb_frees, h.frees_fresh _ le_rfl]
  · rw [timerCb_frees, h.frees_fresh _ (Nat.le_succ _)]

theorem timerCb (h : PairsKept s) (henabled : Enabled s.1 (.timerCb t heap 0)) :
    PairsKept (next s.1 (.timerCb t heap 0), s.2 ++ [(s.1.fresh, s.1.fresh + 1)]) := by
  have hmem {c : Pending} := mem_timerCb_writes (s := s.1) t heap 0 (c := c)
  constructor
  · exact h.wellFormed.next henabled
  · exact fun a ha => h.frees_fresh_next henabled ha
  · exact h.unconnected_next henabled
  · intro x hx
    rcases List.mem_append.mp hx with hold | hnew
    · exact h.plain_next henabled hold
    · rw [List.mem_singleton.mp hnew, timerCb_stage, timerCb_stage]
      exact ⟨Nat.lt_succ_self _, Nat.lt_succ_self _,
        h.wellFormed.stage_fresh _ le_rfl, h.wellFormed.stage_fresh _ (Nat.le_succ _)⟩
  · intro x hx y hy
    rcases List.mem_append.mp hx with hold | hnew <;>
      rcases List.mem_append.mp hy with hold' | hnew'
    · exact h.apart x hold y hold'
    · rw [List.mem_singleton.mp hnew']
      exact .inr (.inl (h.plain x hold).2.1)
    · rw [List.mem_singleton.mp hnew]
      exact .inr (.inr (h.plain y hold').2.1)
    · exact .inl ((List.mem_singleton.mp hnew).trans (List.mem_singleton.mp hnew').symm)
  · intro c hc
    rcases hmem.mp hc with hold | ⟨-, hreq, -⟩
    · obtain ⟨x, hx, hxreq, hdata⟩ := h.paired c hold
      exact ⟨x, List.mem_append_left _ hx, hxreq,
        (data_next s.1 _ (h.wellFormed.writes_lt c hold).2).trans hdata⟩
    · refine ⟨(s.1.fresh, s.1.fresh + 1), List.mem_append_right _ List.mem_cons_self, hreq, ?_⟩
      rw [hreq]
      simp [next, onTimer]
  · intro c hc d hd hcd
    have hnot {c : Pending} (hold : c ∈ s.1.loop.writes) : c.req ≠ s.1.fresh + 1 :=
      Nat.ne_of_lt (Nat.lt_succ_of_lt (h.wellFormed.writes_lt c hold).2)
    rcases hmem.mp hc with hold | ⟨-, hreq, hhandle⟩ <;>
      rcases hmem.mp hd with hold' | ⟨-, hreq', hhandle'⟩
    · exact h.once c hold d hold' hcd
    · exact absurd (hcd.trans hreq') (hnot hold)
    · exact absurd (hcd.symm.trans hreq) (hnot hold')
    · rw [hhandle] at hhandle'
      obtain ⟨creq, chandle⟩ := c
      obtain ⟨dreq, dhandle⟩ := d
      exact (Pending.mk.injEq ..).mpr ⟨hcd, Option.some.inj hhandle'⟩
  · intro x hx
    rcases List.mem_append.mp hx with hold | hnew
    · exact h.timerCb_old hold
    · rw [List.mem_singleton.mp hnew]
      exact h.timerCb_new henabled.2

end TimerCb

protected theorem next (h : PairsKept s) (henabled : Enabled s.1 e) (hok : WriteAccepted e) :
    PairsKept ((machine.recording allocated).next s e) := by
  cases e with
  | timerCb t heap ret =>
      obtain rfl : ret = 0 := hok
      exact h.timerCb henabled
  | writeCb req b status =>
      rw [Machine.recording_next_nil rfl]
      exact h.writeCb henabled
  | _ =>
      rw [Machine.recording_next_nil rfl]
      exact h.of_frame henabled (by simp) (by simp)

/-- A payload and a request whose write is refused are never released. -/
theorem fault (h : PairsKept s) (henabled : Enabled s.1 e) (hbad : ¬ WriteAccepted e) :
    ¬ PairsReturned ((machine.recording allocated).next s e) := by
  cases e with
  | timerCb t heap ret =>
      intro hreturned
      have hpair := hreturned (s.1.fresh, s.1.fresh + 1)
        (List.mem_append_right _ List.mem_cons_self)
      have hdone : ¬ InFlight (next s.1 (.timerCb t heap ret)) (s.1.fresh + 1) := by
        rintro ⟨c, hc, hcreq⟩
        rcases (mem_timerCb_writes t heap ret).mp hc with hold | ⟨hret, -⟩
        · have hlt := (h.wellFormed.writes_lt c hold).2
          exact Nat.ne_of_lt (Nat.lt_succ_of_lt hlt) hcreq
        · exact hbad hret
      have honce := (hpair.settled hdone).1
      have hframe : frees (next s.1 (.timerCb t heap ret)).trace s.1.fresh =
          frees s.1.trace s.1.fresh := timerCb_frees s.1 ret
      have hnone := hframe.trans (h.frees_fresh s.1.fresh le_rfl)
      exact absurd (hnone.symm.trans honce) (by decide)
  | _ => exact absurd trivial hbad

end PairsKept

/-- In every state of a run each payload and its request are released once,
unless the request is still pending, if and only if `uv_write` accepts every
heartbeat of the run. -/
theorem payloads_returned_iff {host : String} {port : Int} {events : List Event}
    (hrun : machine.Runs (initial host port) events) :
    (machine.recording allocated).Always PairsReturned (initial host port, []) events ↔
      machine.Along (fun _ => WriteAccepted) (initial host port) events := by
  rw [← Machine.recording_along allocated (fun _ => WriteAccepted)
    (initial host port, [])]
  exact Machine.always_iff_along (m := machine.recording allocated) (I := PairsKept)
    (fun _ _ h henabled hok => h.next henabled.2 hok) (fun _ h => h.returned)
    (fun _ _ h henabled hbad => h.fault henabled.2 hbad) (pairsKept_initial host port)
    ((Machine.recording_runs _ _).mpr hrun)

end L1Comm.Sender
