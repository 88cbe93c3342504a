import L1Comm.Machine.Registers
import L1Comm.Wire.L1

/-!
The setters and getters of `L1Request` under any sequence of calls. Two of the
setters rewrite the word `dbw2`, each for the sake of one bit; the three values
are nevertheless registers that do not disturb each other, and together with
the bits no setter touches they make up the whole record. `ToString` writes
down these three values and nothing else.
-/

namespace L1Comm.L1Request

/-- A call of one of the setters. -/
inductive Setter where
  | heartbeatSeqNum (num : DWORD)
  | requestType (t : RequestType)
  | signalType (t : SignalType)
  deriving DecidableEq

/-- The setters themselves. -/
inductive Field where
  | heartbeatSeqNum | requestType | signalType
  deriving DecidableEq, Repr

namespace Setter

def field : Setter → Field
  | .heartbeatSeqNum _ => .heartbeatSeqNum
  | .requestType _ => .requestType
  | .signalType _ => .signalType

@[simp] def num? : Setter → Option DWORD
  | .heartbeatSeqNum num => some num
  | _ => none

@[simp] def requestType? : Setter → Option RequestType
  | .requestType t => some t
  | _ => none

@[simp] def signalType? : Setter → Option SignalType
  | .signalType t => some t
  | _ => none

def apply (r : L1Request) : Setter → L1Request
  | .heartbeatSeqNum num => r.setHeartbeatSeqNum num
  | .requestType t => r.setRequestType t
  | .signalType t => r.setSignalType t

end Setter

/-- A record and the calls of its setters, which are always admitted. -/
def accessors : Machine L1Request Setter where
  enabled _ _ := True
  next := Setter.apply

section Flags

variable (r : L1Request) (i : Nat)

/-- A setter of a flag decides that bit of `dbw2` and no other. -/
theorem getLsbD_setRequestType (t : RequestType) : (r.setRequestType t).dbw2.getLsbD i =
    if i = 0 then decide (t = .heartbeatAndSignal) else r.dbw2.getLsbD i := by
  cases t with
  | heartbeat => simp [setRequestType, Bitset.getLsbD_reset]
  | heartbeatAndSignal => simp [setRequestType, Bitset.getLsbD_set]

theorem getLsbD_setSignalType (t : SignalType) : (r.setSignalType t).dbw2.getLsbD i =
    if i = 1 then decide (t = .inPlace) else r.dbw2.getLsbD i := by
  cases t with
  | notReady => simp [setSignalType, Bitset.getLsbD_reset]
  | inPlace => simp [setSignalType, Bitset.getLsbD_set]

end Flags

/-! ## One call -/

section Apply

variable (r : L1Request) (c : Setter)

theorem getHeartbeatSeqNum_apply :
    (c.apply r).getHeartbeatSeqNum = c.num?.getD r.getHeartbeatSeqNum := by
  cases c <;> rfl

theorem getRequestType_apply :
    (c.apply r).getRequestType = c.requestType?.getD r.getRequestType := by
  cases c with
  | heartbeatSeqNum num => rfl
  | requestType t =>
      rw [Setter.apply, getRequestType, getLsbD_setRequestType]
      cases t <;> rfl
  | signalType t =>
      rw [Setter.apply, getRequestType, getLsbD_setSignalType]
      rfl

theorem getSignalType_apply :
    (c.apply r).getSignalType = c.signalType?.getD r.getSignalType := by
  cases c with
  | heartbeatSeqNum num => rfl
  | requestType t =>
      rw [Setter.apply, getSignalType, getLsbD_setRequestType]
      rfl
  | signalType t =>
      rw [Setter.apply, getSignalType, getLsbD_setSignalType]
      cases t <;> rfl

theorem reserved_apply {i : Nat} (hi : 2 ≤ i) :
    (c.apply r).dbw2.getLsbD i = r.dbw2.getLsbD i := by
  have hzero : i ≠ 0 := by omega
  have hone : i ≠ 1 := by omega
  cases c with
  | heartbeatSeqNum num => rfl
  | requestType t => rw [Setter.apply, getLsbD_setRequestType, if_neg hzero]
  | signalType t => rw [Setter.apply, getLsbD_setSignalType, if_neg hone]

theorem dbw4_apply : (c.apply r).dbw4 = r.dbw4 := by
  cases c <;> rfl

theorem dbw7_apply : (c.apply r).dbw7 = r.dbw7 := by
  cases c <;> rfl

end Apply

/-- What the getters return and what no setter touches is the whole record. -/
theorem eq_of_getters {r r' : L1Request} (hnum : r.getHeartbeatSeqNum = r'.getHeartbeatSeqNum)
    (hrequest : r.getRequestType = r'.getRequestType)
    (hsignal : r.getSignalType = r'.getSignalType)
    (hreserved : ∀ i, 2 ≤ i → r.dbw2.getLsbD i = r'.dbw2.getLsbD i)
    (hdbw4 : r.dbw4 = r'.dbw4) (hdbw7 : r.dbw7 = r'.dbw7) : r = r' := by
  refine L1Request.ext hnum ?_ hdbw4 hdbw7
  apply BitVec.eq_of_getLsbD_eq
  intro i _
  match i with
  | 0 => rw [Bool.eq_iff_iff, ← getRequestType_eq_signal, hrequest, getRequestType_eq_signal]
  | 1 => rw [Bool.eq_iff_iff, ← getSignalType_eq_inPlace, hsignal, getSignalType_eq_inPlace]
  | i + 2 => exact hreserved (i + 2) (Nat.le_add_left 2 i)

/-! ## Any sequence of calls -/

section Calls

variable (r : L1Request) (calls : List Setter)

theorem getters_after :
    (accessors.after r calls).getHeartbeatSeqNum =
        (Machine.lastSet Setter.num? calls).getD r.getHeartbeatSeqNum ∧
      (accessors.after r calls).getRequestType =
        (Machine.lastSet Setter.requestType? calls).getD r.getRequestType ∧
      (accessors.after r calls).getSignalType =
        (Machine.lastSet Setter.signalType? calls).getD r.getSignalType :=
  ⟨Machine.after_register _ getHeartbeatSeqNum_apply r calls,
    Machine.after_register _ getRequestType_apply r calls,
    Machine.after_register _ getSignalType_apply r calls⟩

theorem untouched_after :
    (∀ i, 2 ≤ i → (accessors.after r calls).dbw2.getLsbD i = r.dbw2.getLsbD i) ∧
      (accessors.after r calls).dbw4 = r.dbw4 ∧ (accessors.after r calls).dbw7 = r.dbw7 := by
  refine ⟨?_, Machine.after_constant _ dbw4_apply r calls,
    Machine.after_constant _ dbw7_apply r calls⟩
  intro i hi
  have hstep (r : L1Request) (c : Setter) :
      (accessors.next r c).dbw2.getLsbD i = r.dbw2.getLsbD i := reserved_apply r c hi
  exact Machine.after_constant (fun r => r.dbw2.getLsbD i) hstep r calls

variable {calls}

/-- Calls of different setters may be exchanged. -/
theorem after_sameOrder {others : List Setter}
    (h : Machine.SameOrder Setter.field calls others) :
    accessors.after r others = accessors.after r calls := by
  obtain ⟨hnum, hrequest, hsignal⟩ := getters_after r calls
  obtain ⟨hnum', hrequest', hsignal'⟩ := getters_after r others
  obtain ⟨hreserved, hdbw4, hdbw7⟩ := untouched_after r calls
  obtain ⟨hreserved', hdbw4', hdbw7'⟩ := untouched_after r others
  apply eq_of_getters
  · rw [hnum', hnum, h.lastSet (k := .heartbeatSeqNum)]
    rintro (_ | _ | _) hset <;> simp_all [Setter.field]
  · rw [hrequest', hrequest, h.lastSet (k := .requestType)]
    rintro (_ | _ | _) hset <;> simp_all [Setter.field]
  · rw [hsignal', hsignal, h.lastSet (k := .signalType)]
    rintro (_ | _ | _) hset <;> simp_all [Setter.field]
  · intro i hi
    rw [hreserved' i hi, hreserved i hi]
  · rw [hdbw4', hdbw4]
  · rw [hdbw7', hdbw7]

/-- The accessor laws: after any calls of the setters each getter returns what
its own setter set last, the reserved parts are those of the initial record,
and the same calls in any order that keeps those of each setter in theirs make
the same bytes. -/
theorem accessor_laws (r : L1Request) (calls : List Setter) :
    (accessors.after r calls).getHeartbeatSeqNum =
        (Machine.lastSet Setter.num? calls).getD r.getHeartbeatSeqNum ∧
      (accessors.after r calls).getRequestType =
        (Machine.lastSet Setter.requestType? calls).getD r.getRequestType ∧
      (accessors.after r calls).getSignalType =
        (Machine.lastSet Setter.signalType? calls).getD r.getSignalType ∧
      (∀ i, 2 ≤ i → (accessors.after r calls).dbw2.getLsbD i = r.dbw2.getLsbD i) ∧
      (accessors.after r calls).dbw4 = r.dbw4 ∧ (accessors.after r calls).dbw7 = r.dbw7 ∧
      ∀ others, Machine.SameOrder Setter.field calls others →
        (accessors.after r others).toBytes = (accessors.after r calls).toBytes := by
  obtain ⟨hnum, hrequest, hsignal⟩ := getters_after r calls
  obtain ⟨hreserved, hdbw4, hdbw7⟩ := untouched_after r calls
  refine ⟨hnum, hrequest, hsignal, hreserved, hdbw4, hdbw7, ?_⟩
  intro others horder
  rw [after_sameOrder r horder]

end Calls

/-! ## As a text -/

def RequestType.text : RequestType → String
  | .heartbeat => " TYPE: HEARTBEAT"
  | .heartbeatAndSignal => " TYPE: HEARTBEAT_AND_SIGNAL"

def SignalType.text : SignalType → String
  | .notReady => " SIGNAL: NOTREADY"
  | .inPlace => " SIGNAL: INPLACE"

theorem toString_eq (r : L1Request) : r.toString =
    "HB: " ++ (Nat.repr r.getHeartbeatSeqNum.toNat ++ (r.getRequestType.text ++
      r.getSignalType.text)) := by
  rw [L1Request.toString, getRequestType, getSignalType, getHeartbeatSeqNum]
  split_ifs <;> simp only [String.append_assoc] <;> rfl

theorem text_eq_iff {t t' : RequestType} {s s' : SignalType} :
    t.text ++ s.text = t'.text ++ s'.text ↔ t = t' ∧ s = s' := by
  cases t <;> cases t' <;> cases s <;> cases s' <;> decide

/-- The number ends where the digits do. -/
theorem takeWhile_toString (r : L1Request) :
    (r.toString.toList.drop 4).takeWhile Char.isDigit =
      Nat.toDigits 10 r.getHeartbeatSeqNum.toNat := by
  have hdigits : ∀ c ∈ Nat.toDigits 10 r.getHeartbeatSeqNum.toNat, c.isDigit :=
    fun c hc => Nat.isDigit_of_mem_toDigits (by decide) (by decide) hc
  rw [toString_eq, String.toList_append, String.toList_append, Nat.toList_repr,
    List.drop_left' (show "HB: ".toList.length = 4 from rfl), List.takeWhile_append_of_pos hdigits]
  cases r.getRequestType <;> cases r.getSignalType <;> exact List.append_nil _

/-- The text tells what the getters return, and nothing else. -/
theorem toString_eq_iff {r r' : L1Request} :
    r.toString = r'.toString ↔ r.getHeartbeatSeqNum = r'.getHeartbeatSeqNum ∧
      r.getRequestType = r'.getRequestType ∧ r.getSignalType = r'.getSignalType := by
  constructor
  · intro h
    have hdigits := takeWhile_toString r
    rw [h, takeWhile_toString r'] at hdigits
    have hnum : r.getHeartbeatSeqNum = r'.getHeartbeatSeqNum := by
      apply BitVec.eq_of_toNat_eq
      rw [← Nat.ofDigitChars_ten_toDigits (n := r.getHeartbeatSeqNum.toNat), ← hdigits,
        Nat.ofDigitChars_ten_toDigits]
    rw [toString_eq, toString_eq, hnum, String.append_right_inj, String.append_right_inj] at h
    exact ⟨hnum, text_eq_iff.mp h⟩
  · rintro ⟨hnum, htype, hsignal⟩
    rw [toString_eq, toString_eq, hnum, htype, hsignal]

/-- After any calls of the setters, of any two records, the texts are the same
if and only if for each setter what it has set last is. -/
theorem toString_after_iff (r r' : L1Request) (calls others : List Setter) :
    (accessors.after r calls).toString = (accessors.after r' others).toString ↔
      (Machine.lastSet Setter.num? calls).getD r.getHeartbeatSeqNum =
          (Machine.lastSet Setter.num? others).getD r'.getHeartbeatSeqNum ∧
        (Machine.lastSet Setter.requestType? calls).getD r.getRequestType =
          (Machine.lastSet Setter.requestType? others).getD r'.getRequestType ∧
        (Machine.lastSet Setter.signalType? calls).getD r.getSignalType =
          (Machine.lastSet Setter.signalType? others).getD r'.getSignalType := by
  obtain ⟨hnum, hrequest, hsignal⟩ := getters_after r calls
  obtain ⟨hnum', hrequest', hsignal'⟩ := getters_after r' others
  rw [toString_eq_iff, hnum, hrequest, hsignal, hnum', hrequest', hsignal']

end L1Comm.L1Request
