import TopicTracker.FixedWidthBytes
import Mathlib.Data.UInt

namespace TopicTracker.RustValues

open TopicTracker.FixedWidthBytes

/-- A byte array `[u8; n]`. -/
abbrev Bytes (n : Nat) := List.Vector UInt8 n

/-- Why a computation gave no value: an `anyhow` error with its text, or a panic. -/
inductive Fault
  | bail (text : String)
  | panic (text : String)
deriving DecidableEq, Repr

abbrev Result (α : Type) := Except Fault α

/-- The array `[0; n]`. -/
def zeroBytes (n : Nat) : Bytes n := List.Vector.replicate n 0

/-- `slice::split_at`, which panics when the split point is out of range. -/
def splitAt (buf : List UInt8) (mid : Nat) : Result (List UInt8 × List UInt8) :=
  if mid ≤ buf.length then .ok (buf.take mid, buf.drop mid)
  else .error (.panic "mid > len")

/-- The slice `buf[..n]`, which panics when `n` is out of range. -/
def sliceTo (buf : List UInt8) (n : Nat) : Result (List UInt8) :=
  if n ≤ buf.length then .ok (buf.take n)
  else .error (.panic "range end index out of range for slice")

/-- Subtraction of `usize` values with the overflow check on. -/
def subUsize (a b : Nat) : Result Nat :=
  if b ≤ a then .ok (a - b) else .error (.panic "attempt to subtract with overflow")

/-- Subtraction of `u64` values with the overflow check on. -/
def subU64 (a b : UInt64) : Result UInt64 :=
  if b ≤ a then .ok (a - b) else .error (.panic "attempt to subtract with overflow")

/-- `<[u8; n]>::try_from` of a slice. -/
def tryIntoArray (n : Nat) (buf : List UInt8) : Result (Bytes n) :=
  if h : buf.length = n then .ok ⟨buf, h⟩
  else .error (.bail "could not convert slice to array")

/-- `u64::to_le_bytes`. -/
def u64ToLeBytes (n : UInt64) : Bytes 8 :=
  ⟨littleEndian 8 n.toNat, littleEndian_length 8 n.toNat⟩

/-- `u64::to_be_bytes`. -/
def u64ToBeBytes (n : UInt64) : Bytes 8 :=
  ⟨bigEndian 8 n.toNat, bigEndian_length 8 n.toNat⟩

/-- `u64::from_le_bytes`. -/
def u64FromLeBytes (bytes : Bytes 8) : UInt64 :=
  UInt64.ofNat (littleEndianValue bytes.toList)

/-- `u32::to_le_bytes`. -/
def u32ToLeBytes (n : UInt32) : Bytes 4 :=
  ⟨littleEndian 4 n.toNat, littleEndian_length 4 n.toNat⟩

/-- `u32::from_le_bytes`. -/
def u32FromLeBytes (bytes : Bytes 4) : UInt32 :=
  UInt32.ofNat (littleEndianValue bytes.toList)

/-- `u32::checked_add`. -/
def u32CheckedAdd (a b : UInt32) : Option UInt32 :=
  if a.toNat + b.toNat < 2 ^ 32 then some (a + b) else none

/-- `u64::saturating_sub`. -/
def saturatingSub (a b : UInt64) : UInt64 :=
  if b ≤ a then a - b else 0

/-- Subtraction of `u64` values in a build with or without overflow checks. -/
def minusU64 (overflowChecks : Bool) (a b : UInt64) : Result UInt64 :=
  if overflowChecks then subU64 a b else .ok (a - b)

/-- `i64::saturating_add`. -/
def i64SaturatingAdd (a b : Int64) : Int64 := Int64.ofIntClamp (a.toInt + b.toInt)

/-- `u64::try_from` of an `i64`. -/
def u64TryFromI64 (n : Int64) : Result UInt64 :=
  if 0 ≤ n then .ok n.toUInt64
  else .error (.bail "out of range integral type conversion attempted")

/-- The remainder of `u128` values, which panics when the divisor is zero. -/
def remU128 (a b : BitVec 128) : Result (BitVec 128) :=
  if b = 0 then .error (.panic "attempt to calculate the remainder with a divisor of zero")
  else .ok (a % b)

/-- `Result::expect`. -/
def expect {α : Type} (text : String) : Result α → Result α
  | .ok a => .ok a
  | .error _ => .error (.panic text)

/-- How a `tokio::select!` between `cancel_token.cancelled()` and one future ends. -/
inductive Awaited (α : Type)
  | cancelled
  | ready (result : Result α)
deriving DecidableEq

theorem bind_eq_ok {α β : Type} {x : Result α} {f : α → Result β} {b : β} :
    (x >>= f) = .ok b ↔ ∃ a, x = .ok a ∧ f a = .ok b := by
  cases x with
  | error e => simp [bind, Except.bind]
  | ok a => simp [bind, Except.bind]

@[simp] theorem ok_bind {α β : Type} (a : α) (f : α → Result β) :
    ((Except.ok a : Result α) >>= f) = f a := rfl

@[simp] theorem error_bind {α β : Type} (e : Fault) (f : α → Result β) :
    ((Except.error e : Result α) >>= f) = .error e := rfl

/-- The computation ends in a panic. -/
def Panics {α : Type} (result : Result α) : Prop := ∃ text, result = .error (.panic text)

theorem not_panics_ok {α : Type} (a : α) : ¬ Panics (.ok a : Result α) := by
  rintro ⟨text, h⟩
  cases h

theorem not_panics_bail {α : Type} (text : String) :
    ¬ Panics (.error (.bail text) : Result α) := by
  rintro ⟨text', h⟩
  cases h

theorem not_panics_bind {α β : Type} {x : Result α} {f : α → Result β} (hx : ¬ Panics x)
    (hf : ∀ a, x = .ok a → ¬ Panics (f a)) : ¬ Panics (x >>= f) := by
  cases x with
  | ok a => exact hf a rfl
  | error fault =>
      rintro ⟨text, h⟩
      exact hx ⟨text, congrArg Except.error (Except.error.inj h)⟩

theorem panics_bind {α β : Type} {x : Result α} (hx : Panics x) (f : α → Result β) :
    Panics (x >>= f) := by
  obtain ⟨text, rfl⟩ := hx
  exact ⟨text, rfl⟩

theorem splitAt_of_le {buf : List UInt8} {mid : Nat} (h : mid ≤ buf.length) :
    splitAt buf mid = .ok (buf.take mid, buf.drop mid) := if_pos h

theorem splitAt_append (front back : List UInt8) {mid : Nat} (h : front.length = mid) :
    splitAt (front ++ back) mid = .ok (front, back) := by
  subst h
  rw [splitAt_of_le (by simp)]
  simp

theorem sliceTo_append (front back : List UInt8) {n : Nat} (h : front.length = n) :
    sliceTo (front ++ back) n = .ok front := by
  subst h
  simp [sliceTo]

theorem subUsize_of_le {a b : Nat} (h : b ≤ a) : subUsize a b = .ok (a - b) := if_pos h

theorem tryIntoArray_of_length {n : Nat} {buf : List UInt8} (h : buf.length = n) :
    tryIntoArray n buf = .ok ⟨buf, h⟩ := dif_pos h

@[simp] theorem tryIntoArray_toList {n : Nat} (bytes : Bytes n) :
    tryIntoArray n bytes.toList = .ok bytes :=
  tryIntoArray_of_length bytes.toList_length

theorem u64FromLeBytes_toLeBytes (n : UInt64) :
    u64FromLeBytes (u64ToLeBytes n) = n := by
  have hn : n.toNat < 256 ^ 8 := by simpa using n.toNat_lt
  have hvalue : littleEndianValue (u64ToLeBytes n).toList = n.toNat :=
    littleEndianValue_littleEndian_of_lt hn
  rw [u64FromLeBytes, hvalue, UInt64.ofNat_toNat]

theorem u64ToLeBytes_injective : Function.Injective u64ToLeBytes := fun a b h => by
  rw [← u64FromLeBytes_toLeBytes a, h, u64FromLeBytes_toLeBytes]

theorem u64ToBeBytes_injective : Function.Injective u64ToBeBytes := fun a b h => by
  apply u64ToLeBytes_injective
  apply List.Vector.toList_injective
  exact List.reverse_injective (congrArg List.Vector.toList h)

theorem u64ToLeBytes_fromLeBytes (bytes : Bytes 8) :
    u64ToLeBytes (u64FromLeBytes bytes) = bytes := by
  apply List.Vector.toList_injective
  have hlength : bytes.toList.length = 8 := bytes.toList_length
  have hvalue : littleEndianValue bytes.toList < 2 ^ 64 := by
    simpa [hlength] using littleEndianValue_lt bytes.toList
  have hround := littleEndian_littleEndianValue bytes.toList
  rw [hlength] at hround
  change littleEndian 8 (UInt64.ofNat (littleEndianValue bytes.toList)).toNat = bytes.toList
  rw [UInt64.toNat_ofNat_of_lt' hvalue, hround]

theorem u32FromLeBytes_toLeBytes (n : UInt32) :
    u32FromLeBytes (u32ToLeBytes n) = n := by
  have hn : n.toNat < 256 ^ 4 := by simpa using n.toNat_lt
  have hvalue : littleEndianValue (u32ToLeBytes n).toList = n.toNat :=
    littleEndianValue_littleEndian_of_lt hn
  rw [u32FromLeBytes, hvalue, UInt32.ofNat_toNat]

theorem u32ToLeBytes_fromLeBytes (bytes : Bytes 4) :
    u32ToLeBytes (u32FromLeBytes bytes) = bytes := by
  apply List.Vector.toList_injective
  have hlength : bytes.toList.length = 4 := bytes.toList_length
  have hvalue : littleEndianValue bytes.toList < 2 ^ 32 := by
    simpa [hlength] using littleEndianValue_lt bytes.toList
  have hround := littleEndian_littleEndianValue bytes.toList
  rw [hlength] at hround
  change littleEndian 4 (UInt32.ofNat (littleEndianValue bytes.toList)).toNat = bytes.toList
  rw [UInt32.toNat_ofNat_of_lt' hvalue, hround]

theorem saturatingSub_toNat (a b : UInt64) :
    (saturatingSub a b).toNat = a.toNat - b.toNat := by
  unfold saturatingSub
  split
  · next h => exact UInt64.toNat_sub_of_le a b h
  · next h =>
      have : a.toNat < b.toNat := by simpa [UInt64.le_iff_toNat_le] using h
      simp only [UInt64.toNat_zero]
      omega

end TopicTracker.RustValues
