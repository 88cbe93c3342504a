import L1Comm.Framing.Records
import L1Comm.Receiver.Invariant
import Mathlib.Algebra.BigOperators.Group.Finset.Basic

/-!
Requests and reads. A request is a record of 8 bytes in the byte stream of its
connection, and TCP hands the stream over in pieces of any size. `onRead`
takes the first 8 bytes of each buffer for a request: it keeps nothing between
reads, does not look at the bytes behind the first 8, and does not look at
whether 8 bytes have arrived. That is right for a piece that is one request.

The condition on the pieces is exact in the following sense. Two runs have the
same cut if they differ in the content of the buffers only. If each piece
begins a request and does not reach the end of the next one, all runs with
this cut call the user's function as they should; with any other cut some
content makes them go wrong.
-/

namespace L1Comm.Receiver

open Uv

/-- Bits 0 and 1 of `dbw2`: a signal comes with the heartbeat, in place. -/
def isSignal (cells : Fin L1Request.size → WORD) : Bool :=
  (L1Request.ofBytes cells).dbw2.getLsbD 0 && (L1Request.ofBytes cells).dbw2.getLsbD 1

/-- The signals among the complete requests of a stream. -/
def signals (stream : List WORD) : Nat :=
  (Framing.records L1Request.size stream).countP isSignal

/-- The user's function has been called once for each complete signal. -/
def Framed (s : State) : Prop :=
  s.invoked = ∑ h ∈ connections s.trace, signals (received s.trace h)

/-- A read that delivers data begins at the boundary of a request, and delivers
this request but not the end of the next. -/
def Aligned (s : State) : Event → Prop
  | .readCb h nread _ => 0 ≤ nread →
      (received s.trace h).length % L1Request.size = 0 ∧ 8 ≤ nread ∧ nread < 16
  | _ => True

/-- The events differ at most in what the buffer of a read contains. -/
inductive SameCut : Event → Event → Prop where
  | refl (e : Event) : SameCut e e
  | read (h : Addr) (nread : Int) {buf buf' : Buffer}
      (hlength : buf'.base.length = buf.base.length) :
      SameCut (.readCb h nread buf) (.readCb h nread buf')

instance : Std.Refl SameCut := ⟨SameCut.refl⟩

/-! ## Signals in a stream -/

/-- Whether a request is a signal can be seen at its third byte. -/
theorem isSignal_eq (cells : Fin L1Request.size → WORD) :
    isSignal cells = ((cells 2).getLsbD 0 && (cells 2).getLsbD 1) := by
  simp only [isSignal, L1Request.ofBytes]
  rw [DWORD.getLsbD_ofBytes _ _ 0 (by decide), DWORD.getLsbD_ofBytes _ _ 1 (by decide)]

theorem isSignal_record (stream : List WORD) (i : Nat) :
    isSignal (Framing.record L1Request.size stream i) =
      ((stream.getD (8 * i + 2) 0).getLsbD 0 && (stream.getD (8 * i + 2) 0).getLsbD 1) :=
  isSignal_eq _

theorem isSignal_congr {cells cells' : Fin L1Request.size → WORD} (h : cells 2 = cells' 2) :
    isSignal cells = isSignal cells' := by
  rw [isSignal_eq, isSignal_eq, h]

@[simp] theorem signals_nil : signals [] = 0 := rfl

theorem signals_append {stream : List WORD} (hboundary : stream.length % L1Request.size = 0)
    (piece : List WORD) : signals (stream ++ piece) = signals stream + signals piece := by
  have hlength : stream.length = L1Request.size * (stream.length / L1Request.size) := by
    have hdiv := Nat.div_add_mod stream.length L1Request.size
    omega
  rw [signals, Framing.records_append _ (by decide) hlength, List.countP_append]
  rfl

theorem signals_single {piece : List WORD} (hone : 8 ≤ piece.length)
    (htwo : piece.length < 16) :
    signals piece = if isSignal (Framing.record L1Request.size piece 0) then 1 else 0 := by
  rw [signals, Framing.records_of_lt _ hone (by simpa using htwo)]
  simp [List.countP_cons]

/-- Writing to the third byte of a piece that begins no complete request makes
no difference. -/
theorem signals_set {stream piece : List WORD}
    (hcut : stream.length % L1Request.size ≠ 0 ∨ piece.length < L1Request.size) (b : WORD) :
    signals (stream ++ piece.set 2 b) = signals (stream ++ piece) := by
  have hset : stream ++ piece.set 2 b = (stream ++ piece).set (stream.length + 2) b := by
    rw [List.set_append_right _ _ (Nat.le_add_right _ _), Nat.add_sub_cancel_left]
  rw [hset]
  refine Framing.countP_records_set (c := 2) (fun f g h => isSignal_congr h) ?_ b
  rcases hcut with hoffset | hshort
  · exact Framing.misses_of_offset hoffset _ 2
  · refine Framing.misses_of_short ?_ 2
    rw [List.length_append]
    omega

/-! ## What a read does -/

/-- What `onRead` looks at is the first record of the buffer. -/
theorem request_eq (buf : Buffer) :
    buf.request = .ofBytes (Framing.record L1Request.size buf.base 0) := by
  refine congrArg L1Request.ofBytes (funext fun i => ?_)
  have hi : i.val < buf.base.length := Nat.lt_of_lt_of_le i.isLt buf.room
  simp [Framing.record, List.getElem?_eq_getElem hi]

theorem handleRequest_invoked (p : Process) (stream : Addr) (req : L1Request) :
    (handleRequest p stream req).invoked =
      p.invoked + if p.data stream ≠ none ∧ req.dbw2.getLsbD 0 ∧ req.dbw2.getLsbD 1 then 1
        else 0 := by
  simp only [handleRequest, L1Request.getRequestType_eq_signal,
    L1Request.getSignalType_eq_inPlace]
  split_ifs <;> rfl

variable {s : State}

/-- A read of a connection calls the user's function exactly if the first
record of the buffer is a signal. -/
theorem invoked_readCb (hwf : WellFormed s) {a : Addr} {nread : Int} {buf : Buffer}
    (henabled : Enabled s (.readCb a nread buf)) (hnread : 0 ≤ nread) :
    (next s (.readCb a nread buf)).invoked =
      s.invoked +
        if isSignal (Framing.record L1Request.size buf.base 0) then 1 else 0 := by
  have hdata : s.data a ≠ none := by
    rw [(hwf.reading a henabled.2.1).2]
    exact Option.some_ne_none _
  simp [next, onRead, Int.not_lt.mpr hnread, allocBuffer, handleRequest_invoked, hdata,
    request_eq, isSignal]

/-- The sum over the connections changes by what the read adds to its own. -/
theorem sum_signals_readCb {a : Addr} (trace : List Call) (ha : a ∈ connections trace)
    (stream : Addr → List WORD) (hother : ∀ b, b ≠ a → stream b = received trace b) :
    ∑ b ∈ connections trace, signals (stream b) + signals (received trace a) =
      ∑ b ∈ connections trace, signals (received trace b) + signals (stream a) := by
  rw [← Finset.add_sum_erase _ (fun b => signals (stream b)) ha,
    ← Finset.add_sum_erase _ (fun b => signals (received trace b)) ha]
  have hrest : ∑ b ∈ (connections trace).erase a, signals (stream b) =
      ∑ b ∈ (connections trace).erase a, signals (received trace b) := by
    apply Finset.sum_congr rfl
    intro b hb
    rw [hother b (Finset.ne_of_mem_erase hb)]
  rw [hrest]
  omega

/-- A read keeps the count exact if it calls the user's function as often as
the piece it delivers completes signals. -/
theorem framed_readCb_iff (hwf : WellFormed s) (hframed : Framed s) {a : Addr} {nread : Int}
    {buf : Buffer} (henabled : Enabled s (.readCb a nread buf)) (hnread : 0 ≤ nread) :
    Framed (next s (.readCb a nread buf)) ↔
      signals (received s.trace a ++ buf.base.take nread.toNat) =
        signals (received s.trace a) +
          if isSignal (Framing.record L1Request.size buf.base 0) then 1 else 0 := by
  have hconnection := (hwf.reading a henabled.2.1).1
  have hconnections : connections (next s (.readCb a nread buf)).trace = connections s.trace := by
    simp [next, onRead, Int.not_lt.mpr hnread, allocBuffer]
  have hstream (b : Addr) : received (next s (.readCb a nread buf)).trace b =
      received s.trace b ++ if a = b then buf.base.take nread.toNat else [] := by
    simp [next, onRead, Int.not_lt.mpr hnread, allocBuffer]
  have hsum := sum_signals_readCb s.trace hconnection
    (fun b => received (next s (.readCb a nread buf)).trace b) (fun b hb => by
      rw [hstream b, if_neg (Ne.symm hb), List.append_nil])
  have hself : received (next s (.readCb a nread buf)).trace a =
      received s.trace a ++ buf.base.take nread.toNat := by
    rw [hstream a, if_pos rfl]
  have hcount : s.invoked = ∑ b ∈ connections s.trace, signals (received s.trace b) := hframed
  rw [hself] at hsum
  unfold Framed
  rw [invoked_readCb hwf henabled hnread, hconnections]
  omega

theorem framed_of_frame (h : Framed s) {s' : State} (hinvoked : s'.invoked = s.invoked)
    (hconnections : connections s'.trace = connections s.trace)
    (hreceived : ∀ a, received s'.trace a = received s.trace a) : Framed s' := by
  unfold Framed
  rw [hinvoked, hconnections, h]
  exact Finset.sum_congr rfl fun a _ => by rw [hreceived a]

/-- A connection that is accepted has delivered nothing. -/
theorem framed_accept (hwf : WellFormed s) (h : Framed s) (server : Addr) :
    Framed (next s (.connectionCb server 0 0)) := by
  have hnew : s.fresh ∉ connections s.trace := fun hmem =>
    Nat.lt_irrefl _ (hwf.connections_lt _ hmem).1
  have hempty := hwf.received _ hnew
  have hconnections : connections (next s (.connectionCb server 0 0)).trace =
      insert s.fresh (connections s.trace) := by
    simp [next, onConnection]
  have hreceived (a : Addr) :
      received (next s (.connectionCb server 0 0)).trace a = received s.trace a := by
    simp [next, onConnection]
  unfold Framed
  rw [hconnections, Finset.sum_insert (by exact hnew), hreceived, hempty, signals_nil, Nat.zero_add]
  simp only [hreceived]
  exact h

/-- A piece that is one request calls the user's function for this request. -/
theorem framed_readCb (hwf : WellFormed s) (h : Framed s) {a : Addr} {nread : Int} {buf : Buffer}
    (henabled : Enabled s (.readCb a nread buf)) (hnread : 0 ≤ nread)
    (hok : Aligned s (.readCb a nread buf)) : Framed (next s (.readCb a nread buf)) := by
  obtain ⟨hboundary, hone, htwo⟩ := hok hnread
  have hlength : (buf.base.take nread.toNat).length = nread.toNat := by
    have hsize := henabled.2.2
    rw [List.length_take]
    omega
  have hsingle : signals (buf.base.take nread.toNat) = _ :=
    signals_single (by omega) (by omega)
  have hcomplete : 0 < (buf.base.take nread.toNat).length / L1Request.size := by
    have hsize : L1Request.size ≤ nread.toNat := by
      change 8 ≤ nread.toNat
      omega
    rw [hlength]
    exact Nat.div_pos hsize (by decide)
  have hfirst : Framing.record L1Request.size
      (buf.base.take nread.toNat ++ buf.base.drop nread.toNat) 0 =
        Framing.record L1Request.size (buf.base.take nread.toNat) 0 :=
    Framing.record_append_left _ hcomplete _
  rw [List.take_append_drop] at hfirst
  rw [framed_readCb_iff hwf h henabled hnread, signals_append hboundary, hsingle, hfirst]

theorem framed_next (hwf : WellFormed s) (h : Framed s) {e : Event} (henabled : Enabled s e)
    (hok : Aligned s e) : Framed (next s e) := by
  cases e with
  | connectionCb server status ret =>
      by_cases hstatus : status = 0
      · by_cases hret : ret = 0
        · rw [hstatus, hret]
          exact framed_accept hwf h server
        · exact framed_of_frame h (by simp [next, onConnection, hstatus, hret])
            (by simp [next, onConnection, hstatus, hret])
            (by simp [next, onConnection, hstatus, hret])
      · exact framed_of_frame h (by simp [next, onConnection, hstatus])
          (by simp [next, onConnection, hstatus]) (by simp [next, onConnection, hstatus])
  | readCb a nread buf =>
      by_cases hnread : nread < 0
      · have hnone : nread.toNat = 0 := Int.toNat_of_nonpos (by omega)
        exact framed_of_frame h (by simp [next, onRead, hnread, allocBuffer])
          (by simp [next, onRead, hnread, allocBuffer])
          (by simp [next, onRead, hnread, allocBuffer, hnone])
      · exact framed_readCb hwf h henabled (Int.not_lt.mp hnread) hok
  | enter ret => exact framed_of_frame h rfl (by simp [next, enter]) (by simp [next, enter])
  | readErrorCb a nread => exact framed_of_frame h rfl (by simp [next]) (by simp [next])
  | closeCb a => exact framed_of_frame h rfl (by simp [next, onClose]) (by simp [next, onClose])
  | exit => exact framed_of_frame h rfl (by simp [next, exit]) (by simp [next, exit])
  | stopLoopClose => exact framed_of_frame h rfl (by simp [next]) (by simp [next])
  | start | test | runEnd | stopFlag | stopJoin => exact h

/-! ## Cuts -/

/-- A buffer of zeros, of the length of the given one. -/
def zeroed (buf : Buffer) : Buffer where
  base := List.replicate buf.base.length 0
  room := by simpa using buf.room

/-- A buffer of zeros but for one byte, which has the two flags set. -/
def marked (buf : Buffer) (q : Nat) : Buffer where
  base := (List.replicate buf.base.length 0).set q 3
  room := by simpa using buf.room

theorem isSignal_zeroed (buf : Buffer) (i : Nat) :
    isSignal (Framing.record L1Request.size (zeroed buf).base i) = false := by
  have hzero : (zeroed buf).base.getD (8 * i + 2) 0 = 0 := by
    simp [zeroed, List.getElem?_replicate]
    split <;> rfl
  rw [isSignal_record, hzero]
  rfl

theorem isSignal_marked (buf : Buffer) {q : Nat} (hq : q < buf.base.length) (i : Nat) :
    isSignal (Framing.record L1Request.size (marked buf q).base i) = decide (8 * i + 2 = q) := by
  by_cases hcell : 8 * i + 2 = q
  · have hthree : (marked buf q).base.getD (8 * i + 2) 0 = 3 := by
      simp [marked, hcell, hq]
    rw [isSignal_record, hthree, decide_eq_true hcell]
    rfl
  · have hzero : (marked buf q).base.getD (8 * i + 2) 0 = 0 := by
      simp [marked, List.getElem?_set_ne (Ne.symm hcell), List.getElem?_replicate]
      split <;> rfl
    rw [isSignal_record, hzero, decide_eq_false hcell]
    rfl

theorem signals_marked_of_misses {stream : List WORD} (buf : Buffer) {n : Nat}
    (hcut : stream.length % L1Request.size ≠ 0 ∨ n < 8) :
    signals (stream ++ (marked buf 2).base.take n) =
      signals (stream ++ (zeroed buf).base.take n) := by
  have htake : (marked buf 2).base.take n = ((zeroed buf).base.take n).set 2 3 :=
    List.take_set
  rw [htake]
  refine signals_set (hcut.imp_right fun hshort => ?_) 3
  exact Nat.lt_of_le_of_lt (List.length_take_le _ _) hshort

theorem signals_marked_pos (buf : Buffer) {n : Nat} (htwo : 16 ≤ n)
    (hfits : n ≤ buf.base.length) : 0 < signals ((marked buf 10).base.take n) := by
  have hlength : ((marked buf 10).base.take n).length = n := by
    simpa [marked] using hfits
  have hsecond : 1 < ((marked buf 10).base.take n).length / L1Request.size := by
    rw [hlength]
    exact (Nat.le_div_iff_mul_le (by decide)).mpr htwo
  refine List.countP_pos_iff.mpr
    ⟨Framing.record L1Request.size ((marked buf 10).base.take n) 1, ?_, ?_⟩
  · exact List.mem_map.mpr ⟨1, List.mem_range.mpr hsecond, rfl⟩
  · have hrecord := Framing.record_append_left L1Request.size hsecond
      ((marked buf 10).base.drop n)
    rw [List.take_append_drop] at hrecord
    rw [← hrecord, isSignal_marked buf (by omega) 1]
    rfl

/-- Any other cut of the next piece goes wrong with some content. At the third
byte of the buffer `onRead` sees a signal; if this is not the third byte of a
request that is complete, it makes no difference to the stream. If the piece
holds two requests, `onRead` does not see the second one. -/
theorem exists_misframed (hwf : WellFormed s) (hframed : Framed s) {e : Event}
    (henabled : Enabled s e) (hbad : ¬ Aligned s e) :
    ∃ e', SameCut e e' ∧ ¬ Framed (next s e') := by
  cases e with
  | readCb a nread buf =>
      obtain ⟨hnread, hcut⟩ : 0 ≤ nread ∧ ¬ ((received s.trace a).length % L1Request.size = 0 ∧
          8 ≤ nread ∧ nread < 16) := by simpa [Aligned] using hbad
      by_contra hall
      have hfits : nread.toNat ≤ buf.base.length := by
        have hsize := henabled.2.2
        omega
      have hroom : 8 ≤ buf.base.length := buf.room
      have hcount (buf' : Buffer) (hlength : buf'.base.length = buf.base.length) :
          signals (received s.trace a ++ buf'.base.take nread.toNat) =
            signals (received s.trace a) +
              if isSignal (Framing.record L1Request.size buf'.base 0) then 1 else 0 := by
        have henabled' : Enabled s (.readCb a nread buf') :=
          ⟨henabled.1, henabled.2.1, by rw [hlength]; exact henabled.2.2⟩
        apply (framed_readCb_iff hwf hframed henabled' hnread).mp
        by_contra hnot
        exact hall ⟨_, .read a nread hlength, hnot⟩
      by_cases hmisses : (received s.trace a).length % L1Request.size ≠ 0 ∨ nread.toNat < 8
      · have hzeros := hcount (zeroed buf) (by simp [zeroed])
        have hmark := hcount (marked buf 2) (by simp [marked])
        rw [isSignal_zeroed] at hzeros
        rw [isSignal_marked buf (by omega), signals_marked_of_misses buf hmisses, hzeros] at hmark
        simp at hmark
      · obtain ⟨hboundary, hone⟩ := not_or.mp hmisses
        have htwo : 16 ≤ nread.toNat := by
          by_contra hless
          exact hcut ⟨not_not.mp hboundary, by omega, by omega⟩
        have hmark := hcount (marked buf 10) (by simp [marked])
        have hpos := signals_marked_pos buf htwo hfits
        rw [signals_append (not_not.mp hboundary), isSignal_marked buf (by omega)] at hmark
        simp at hmark
        omega
  | _ => exact absurd trivial hbad

/-- Two states that differ at most in what has been read. -/
structure SameShape (s t : State) : Prop where
  loop : s.loop = t.loop
  fresh : s.fresh = t.fresh
  worker : s.worker = t.worker
  length : ∀ h, (received s.trace h).length = (received t.trace h).length

variable {t : State} {e f : Event}

theorem SameShape.enabled (h : SameShape s t) (hcut : SameCut e f) (henabled : Enabled s e) :
    Enabled t f := by
  cases hcut with
  | read a nread hlength =>
      obtain ⟨hrun, hreading, hsize⟩ := henabled
      exact ⟨by rw [← h.worker]; exact hrun, by rw [← h.loop]; exact hreading,
        by rw [hlength]; exact hsize⟩
  | refl =>
      cases e <;> simpa only [Enabled, ← h.loop, ← h.worker] using henabled

/-- And the loop, which is the same, admits the one step if it admits the other. -/
theorem SameShape.admitted (h : SameShape s t) (hcut : SameCut e f)
    (henabled : machine.enabled s e) : machine.enabled t f := by
  refine ⟨?_, h.enabled hcut henabled.2⟩
  rw [← h.loop]
  cases hcut with
  | refl | read => exact henabled.1

theorem SameShape.aligned (h : SameShape s t) (hcut : SameCut e f) (hok : Aligned s e) :
    Aligned t f := by
  cases hcut with
  | read a nread _ =>
      intro hnread
      rw [← h.length]
      exact hok hnread
  | refl =>
      cases e with
      | readCb a nread buf =>
          intro hnread
          rw [← h.length]
          exact hok hnread
      | _ => trivial

theorem SameShape.readCb (h : SameShape s t) (a : Addr) (nread : Int) {buf buf' : Buffer}
    (hlength : buf'.base.length = buf.base.length) :
    SameShape (next s (.readCb a nread buf)) (next t (.readCb a nread buf')) := by
  by_cases hnread : nread < 0
  · constructor
    · simp [next, onRead, hnread, allocBuffer, h.loop]
    · simp [next, onRead, hnread, allocBuffer, h.fresh]
    · exact h.worker
    · intro b
      by_cases hb : a = b <;> simp [next, onRead, hnread, allocBuffer, h.length, hb, hlength]
  · constructor
    · simp [next, onRead, hnread, allocBuffer, h.loop, h.fresh]
    · simp [next, onRead, hnread, allocBuffer, h.fresh]
    · exact h.worker
    · intro b
      by_cases hb : a = b <;> simp [next, onRead, hnread, allocBuffer, h.length, hb, hlength]

theorem SameShape.next (h : SameShape s t) (hcut : SameCut e f) :
    SameShape (Receiver.next s e) (Receiver.next t f) := by
  cases hcut with
  | read a nread hlength => exact h.readCb a nread hlength
  | refl =>
      cases e with
      | readCb a nread buf => exact h.readCb a nread rfl
      | connectionCb server status ret =>
          by_cases hstatus : status = 0
          · by_cases hret : ret = 0
            all_goals
              constructor
              all_goals simp [Receiver.next, onConnection, hstatus, hret, h.loop, h.fresh,
                h.worker, h.length]
          · constructor
            all_goals simp [Receiver.next, onConnection, hstatus, h.loop, h.fresh, h.worker,
              h.length]
      | _ =>
          constructor
          all_goals simp [Receiver.next, enter, exit, onClose, h.loop, h.fresh, h.worker, h.length]

theorem framed_initial (host : String) (port : Int) (callback : Addr) :
    Framed (initial host port callback) := rfl

/-- A cut that is right for all contents hands over each request by itself. -/
theorem aligned_of_always_framed {events : List Event} (hwf : WellFormed s)
    (hrun : machine.Runs s events)
    (hall : ∀ others, List.Forall₂ SameCut events others → machine.Always Framed s others) :
    machine.Along Aligned s events := by
  have hsame (rest : List Event) : List.Forall₂ SameCut rest rest := List.forall₂_refl rest
  induction events generalizing s with
  | nil => trivial
  | cons e rest ih =>
      have hframed : Framed s := hall _ (hsame _) [] List.nil_prefix
      refine ⟨?_, ih (hwf.next hrun.1.2) hrun.2 ?_⟩
      · by_contra hbad
        obtain ⟨e', hcut, hnot⟩ := exists_misframed hwf hframed hrun.1.2 hbad
        exact hnot (hall (e' :: rest) (.cons hcut (hsame rest)) [e'] (by simp))
      · intro others hothers taken htaken
        exact hall (e :: others) (.cons (.refl e) hothers) (e :: taken)
          (List.cons_prefix_cons.mpr ⟨rfl, htaken⟩)

/-- Whatever the connections deliver, the user's function has been called once
for each complete signal after every prefix of the run, if and only if every
piece of data is one request, with less than another one behind it. -/
theorem framing_iff {host : String} {port : Int} {callback : Addr} {events : List Event}
    (hrun : machine.Runs (initial host port callback) events) :
    (∀ others, List.Forall₂ SameCut events others →
        machine.Always Framed (initial host port callback) others) ↔
      machine.Along Aligned (initial host port callback) events := by
  have hwf := wellFormed_initial host port callback
  refine ⟨aligned_of_always_framed hwf hrun, fun haligned others hcut => ?_⟩
  have hshape : SameShape (initial host port callback) (initial host port callback) :=
    ⟨rfl, rfl, rfl, fun _ => rfl⟩
  have hrun' : machine.Runs (initial host port callback) others := by
    refine Machine.along_of_lockstep (R := SameShape) (S := SameCut) ?_ hshape hcut hrun
    intro s t e f h hcut henabled
    exact ⟨h.admitted hcut henabled, h.next hcut⟩
  have haligned' : machine.Along Aligned (initial host port callback) others := by
    refine Machine.along_of_lockstep (R := SameShape) (S := SameCut) ?_ hshape hcut haligned
    intro s t e f h hcut hok
    exact ⟨h.aligned hcut hok, h.next hcut⟩
  exact Machine.always_along (I := fun s => WellFormed s ∧ Framed s)
    (fun _ _ h henabled hok => ⟨h.1.next henabled.2, framed_next h.1 h.2 henabled.2 hok⟩)
    (fun _ h => h.2) ⟨hwf, framed_initial host port callback⟩ hrun' haligned'

/-- A buffer with room for one request and a byte. -/
def buffer (b₀ b₁ b₂ b₃ b₄ b₅ b₆ b₇ b₈ : WORD) : Buffer where
  base := [b₀, b₁, b₂, b₃, b₄, b₅, b₆, b₇, b₈]
  room := Nat.le_succ 8

/-- A connection that delivers one signal in a read of its own, then ends. -/
def signalRun : List Event :=
  [.start, .enter 0, .test, .connectionCb 1 0 0,
   .readCb 2 8 (buffer 7 0 3 0 0 0 0 0 255), .readCb 2 (-4095) (buffer 0 0 0 0 0 0 0 0 0)]

theorem framing_iff_signalRun :
    (∀ others, List.Forall₂ SameCut signalRun others →
        machine.Always Framed (initial "10.0.0.1" 3001 0) others) ↔
      machine.Along Aligned (initial "10.0.0.1" 3001 0) signalRun :=
  framing_iff (by decide)

/-- The packet that `press_test.sh` means to send, `abcd` and a newline, too
short for a request. The `echo` of bash sends a backslash and an `n` before the
newline. -/
def pressRun : List Event :=
  [.start, .enter 0, .test, .connectionCb 1 0 0,
   .readCb 2 5 (buffer 97 98 99 100 10 0 0 0 0)]

/-- No request is complete, but bits 0 and 1 of the letter `c` are set, so the
user's function is called. -/
theorem fragment_calls_back :
    machine.Runs (initial "10.0.0.1" 3001 0) pressRun ∧
      received (machine.after (initial "10.0.0.1" 3001 0) pressRun).trace 2 =
        [97, 98, 99, 100, 10] ∧
      ¬ machine.Always Framed (initial "10.0.0.1" 3001 0) pressRun := by
  refine ⟨by decide, by decide, fun h => ?_⟩
  have hcount := h.last
  unfold Framed at hcount
  exact absurd hcount (by decide)

end L1Comm.Receiver
