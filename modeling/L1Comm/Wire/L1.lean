import Mathlib.Data.Fintype.Pi
import Mathlib.Tactic.FinCases

/-!
The two packed records of the L1 protocol and their layout in memory. Both are
declared under `#pragma pack(push, 1)`, so the fields lie next to each other
in the order of their declaration; the targets the Makefile builds for store
the low byte of a `DWORD` first.
-/

namespace L1Comm

/-- `unsigned char`; the name is that of the user document. -/
abbrev WORD := BitVec 8

/-- `unsigned short`. -/
abbrev DWORD := BitVec 16

namespace DWORD

def ofBytes (low high : WORD) : DWORD := low.setWidth 16 ||| high.setWidth 16 <<< 8

def low (w : DWORD) : WORD := w.setWidth 8

def high (w : DWORD) : WORD := (w >>> 8).setWidth 8

/-- The flags of a `DWORD` below bit 8 are those of its first byte. -/
theorem getLsbD_ofBytes (a b : WORD) (i : Nat) (hi : i < 8) :
    (ofBytes a b).getLsbD i = a.getLsbD i := by
  have hi' : i < 16 := by omega
  simp [ofBytes, hi, hi']

@[simp] theorem low_ofBytes (a b : WORD) : low (ofBytes a b) = a := by
  apply BitVec.eq_of_getLsbD_eq
  intro i hi
  simp [low, hi, getLsbD_ofBytes a b i hi]

@[simp] theorem high_ofBytes (a b : WORD) : high (ofBytes a b) = b := by
  apply BitVec.eq_of_getLsbD_eq
  intro i hi
  have hi' : 8 + i < 16 := by omega
  simp [high, ofBytes, hi, hi']

@[simp] theorem ofBytes_low_high (w : DWORD) : ofBytes (low w) (high w) = w := by
  apply BitVec.eq_of_getLsbD_eq
  intro i hi
  by_cases hlow : i < 8
  · simp [ofBytes, low, high, hi, hlow]
  · have hsub : i - 8 < 8 := by omega
    have hadd : 8 + (i - 8) = i := by omega
    simp [ofBytes, low, high, hi, hlow, hadd, hsub]

end DWORD

/-! `std::bitset<16>`: constructed from a `DWORD` it has the bits of the word. -/

namespace Bitset

def set (v : BitVec 16) (pos : Nat) : BitVec 16 := v ||| .twoPow 16 pos

def reset (v : BitVec 16) (pos : Nat) : BitVec 16 := v &&& ~~~(.twoPow 16 pos)

/-- `to_ulong`; 16 bits fit into every `unsigned long`. -/
def toUlong (v : BitVec 16) : Nat := v.toNat

/-- The narrowing cast of `to_ulong` loses nothing. -/
@[simp] theorem ofNat_toUlong (v : BitVec 16) : BitVec.ofNat 16 (toUlong v) = v := by
  simp [toUlong]

theorem getLsbD_set (v : BitVec 16) {pos : Nat} (hpos : pos < 16) (i : Nat) :
    (set v pos).getLsbD i = if i = pos then true else v.getLsbD i := by
  by_cases hi : i = pos
  · simp [set, hi, hpos]
  · simp [set, hi, BitVec.getLsbD_twoPow, Ne.symm hi]

theorem getLsbD_reset (v : BitVec 16) (pos i : Nat) :
    (reset v pos).getLsbD i = if i = pos then false else v.getLsbD i := by
  by_cases hi : i = pos
  · simp [reset, hi]
  · simp [reset, hi, BitVec.getLsbD_twoPow, Ne.symm hi]
    exact BitVec.lt_of_getLsbD

end Bitset

/-- What L1 sends: 8 bytes. -/
@[ext] structure L1Request where
  dbw0 : DWORD := 0
  dbw2 : DWORD := 0
  dbw4 : DWORD := 0
  dbw7 : DWORD := 0
  deriving DecidableEq

namespace L1Request

inductive RequestType where
  | heartbeat | heartbeatAndSignal
  deriving DecidableEq, Repr

inductive SignalType where
  | notReady | inPlace
  deriving DecidableEq, Repr

/-- `sizeof(L1Request)`. -/
abbrev size : Nat := 8

def setHeartbeatSeqNum (r : L1Request) (num : DWORD) : L1Request := {r with dbw0 := num}

def getHeartbeatSeqNum (r : L1Request) : DWORD := r.dbw0

def setRequestType (r : L1Request) (t : RequestType) : L1Request :=
  let v := if .heartbeat = t then Bitset.reset r.dbw2 0 else Bitset.set r.dbw2 0
  {r with dbw2 := .ofNat 16 (Bitset.toUlong v)}

def getRequestType (r : L1Request) : RequestType :=
  if r.dbw2.getLsbD 0 then .heartbeatAndSignal else .heartbeat

def setSignalType (r : L1Request) (t : SignalType) : L1Request :=
  let v := if .notReady = t then Bitset.reset r.dbw2 1 else Bitset.set r.dbw2 1
  {r with dbw2 := .ofNat 16 (Bitset.toUlong v)}

def getSignalType (r : L1Request) : SignalType :=
  if r.dbw2.getLsbD 1 then .inPlace else .notReady

@[simp] theorem getRequestType_eq_signal (r : L1Request) :
    r.getRequestType = .heartbeatAndSignal ↔ r.dbw2.getLsbD 0 = true := by
  unfold getRequestType
  split <;> simp_all

@[simp] theorem getSignalType_eq_inPlace (r : L1Request) :
    r.getSignalType = .inPlace ↔ r.dbw2.getLsbD 1 = true := by
  unfold getSignalType
  split <;> simp_all

/-- The name of the source is `ToString`; `std::to_string` writes a number in
decimal. -/
protected def toString (r : L1Request) : String :=
  let ret := "HB: " ++ Nat.repr r.dbw0.toNat
  let ret :=
    if r.dbw2.getLsbD 0 then ret ++ " TYPE: HEARTBEAT_AND_SIGNAL"
    else ret ++ " TYPE: HEARTBEAT"
  if r.dbw2.getLsbD 1 then ret ++ " SIGNAL: INPLACE" else ret ++ " SIGNAL: NOTREADY"

/-- Reading the record through a pointer to its first byte. -/
def ofBytes (base : Fin size → WORD) : L1Request where
  dbw0 := .ofBytes (base 0) (base 1)
  dbw2 := .ofBytes (base 2) (base 3)
  dbw4 := .ofBytes (base 4) (base 5)
  dbw7 := .ofBytes (base 6) (base 7)

/-- The 8 bytes a record occupies. -/
def toBytes (r : L1Request) (i : Fin size) : WORD :=
  match i with
  | 0 => r.dbw0.low
  | 1 => r.dbw0.high
  | 2 => r.dbw2.low
  | 3 => r.dbw2.high
  | 4 => r.dbw4.low
  | 5 => r.dbw4.high
  | 6 => r.dbw7.low
  | 7 => r.dbw7.high

@[simp] theorem ofBytes_toBytes (r : L1Request) : ofBytes r.toBytes = r := by
  ext1 <;> exact DWORD.ofBytes_low_high _

@[simp] theorem toBytes_ofBytes (base : Fin size → WORD) : (ofBytes base).toBytes = base := by
  funext i
  match i with
  | 0 | 2 | 4 | 6 => exact DWORD.low_ofBytes _ _
  | 1 | 3 | 5 | 7 => exact DWORD.high_ofBytes _ _

end L1Request

/-- What the sender sends: 32 bytes. The steel number `dbw6` is the one field
without a default member initialiser. -/
@[ext] structure L1Response where
  dbw0 : DWORD := 0
  dbw2 : DWORD := 0
  dbw4 : DWORD := 0
  dbw6 : Fin 20 → WORD
  dbw26 : WORD := 0
  dbw27 : WORD := 0
  dbw28 : WORD := 0
  dbw29 : DWORD := 0
  dbw31 : WORD := 0
  deriving DecidableEq

namespace L1Response

/-- `sizeof(L1Response)`. -/
abbrev size : Nat := 32

/-- The record at the start of a block of 32 bytes. -/
def ofBytes (base : Fin size → WORD) : L1Response where
  dbw0 := .ofBytes (base 0) (base 1)
  dbw2 := .ofBytes (base 2) (base 3)
  dbw4 := .ofBytes (base 4) (base 5)
  dbw6 i := base ⟨6 + i.val, by have := i.isLt; simp only [size]; omega⟩
  dbw26 := base 26
  dbw27 := base 27
  dbw28 := base 28
  dbw29 := .ofBytes (base 29) (base 30)
  dbw31 := base 31

/-- The 32 bytes a record occupies. -/
def toBytes (r : L1Response) (i : Fin size) : WORD :=
  if h : 6 ≤ i.val ∧ i.val < 26 then r.dbw6 ⟨i.val - 6, by omega⟩
  else
    match i.val with
    | 0 => r.dbw0.low
    | 1 => r.dbw0.high
    | 2 => r.dbw2.low
    | 3 => r.dbw2.high
    | 4 => r.dbw4.low
    | 5 => r.dbw4.high
    | 26 => r.dbw26
    | 27 => r.dbw27
    | 28 => r.dbw28
    | 29 => r.dbw29.low
    | 30 => r.dbw29.high
    | _ => r.dbw31

@[simp] theorem ofBytes_toBytes (r : L1Response) : ofBytes r.toBytes = r := by
  ext1
  case dbw6 =>
    funext i
    have hrange : 6 ≤ 6 + i.val ∧ 6 + i.val < 26 := by omega
    simp [ofBytes, toBytes, hrange]
  all_goals first | exact DWORD.ofBytes_low_high _ | rfl

@[simp] theorem toBytes_ofBytes (base : Fin size → WORD) : (ofBytes base).toBytes = base := by
  funext i
  change Fin 32 at i
  fin_cases i <;> first | exact DWORD.low_ofBytes _ _ | exact DWORD.high_ofBytes _ _ | rfl

/-- The number is in the first two bytes; the others are those of the rest of
the record. -/
theorem toBytes_dbw0 (r : L1Response) (num : DWORD) (i : Fin size) :
    {r with dbw0 := num}.toBytes i =
      if i.val = 0 then num.low else if i.val = 1 then num.high else r.toBytes i := by
  change Fin 32 at i
  fin_cases i <;> rfl

end L1Response

end L1Comm
