import Mathlib.Data.List.Basic
import Mathlib.Data.Vector.Basic
import Mathlib.Tactic.Ring

namespace TopicTracker.FixedWidthBytes

/-- The `width` low bytes of `n`, least significant byte first. -/
def littleEndian : Nat → Nat → List UInt8
  | 0, _ => []
  | width + 1, n => UInt8.ofNat n :: littleEndian width (n / 256)

/-- The number whose least-significant-first bytes are given. -/
def littleEndianValue : List UInt8 → Nat
  | [] => 0
  | byte :: bytes => byte.toNat + 256 * littleEndianValue bytes

/-- The `width` low bytes of `n`, most significant byte first. -/
def bigEndian (width n : Nat) : List UInt8 :=
  (littleEndian width n).reverse

@[simp] theorem littleEndian_length (width n : Nat) :
    (littleEndian width n).length = width := by
  induction width generalizing n with
  | zero => rfl
  | succ width ih => simp [littleEndian, ih]

@[simp] theorem bigEndian_length (width n : Nat) :
    (bigEndian width n).length = width := by
  simp [bigEndian]

theorem littleEndianValue_lt (bytes : List UInt8) :
    littleEndianValue bytes < 256 ^ bytes.length := by
  induction bytes with
  | nil => simp [littleEndianValue]
  | cons byte bytes ih =>
      have hbyte : byte.toNat < 256 := byte.toNat_lt
      simp only [littleEndianValue, List.length_cons, pow_succ]
      omega

theorem littleEndianValue_littleEndian (width n : Nat) :
    littleEndianValue (littleEndian width n) = n % 256 ^ width := by
  induction width generalizing n with
  | zero => simp [littleEndian, littleEndianValue, Nat.mod_one]
  | succ width ih =>
      have hbyte : (UInt8.ofNat n).toNat = n % 256 := UInt8.toNat_ofNat'
      rw [littleEndian, littleEndianValue, ih, hbyte, pow_succ', Nat.mod_mul]

theorem littleEndianValue_littleEndian_of_lt {width n : Nat}
    (hn : n < 256 ^ width) : littleEndianValue (littleEndian width n) = n := by
  rw [littleEndianValue_littleEndian, Nat.mod_eq_of_lt hn]

theorem littleEndian_littleEndianValue (bytes : List UInt8) :
    littleEndian bytes.length (littleEndianValue bytes) = bytes := by
  induction bytes with
  | nil => rfl
  | cons byte bytes ih =>
      have hbyte : byte.toNat < 256 := byte.toNat_lt
      have hhead : UInt8.ofNat (byte.toNat + 256 * littleEndianValue bytes) = byte := by
        apply UInt8.toNat_inj.mp
        rw [UInt8.toNat_ofNat', Nat.add_mul_mod_self_left, Nat.mod_eq_of_lt hbyte]
      have htail : (byte.toNat + 256 * littleEndianValue bytes) / 256 =
          littleEndianValue bytes := by omega
      simp only [List.length_cons, littleEndianValue, littleEndian]
      rw [hhead, htail, ih]

theorem append_eq_append_iff_of_length {α : Type*} {a b c d : List α}
    (h : a.length = c.length) : a ++ b = c ++ d ↔ a = c ∧ b = d :=
  ⟨fun heq => List.append_inj heq h, fun ⟨hac, hbd⟩ => by rw [hac, hbd]⟩

theorem vector_append_eq_append_iff {α : Type*} {n : Nat}
    (a c : List.Vector α n) (b d : List α) :
    a.toList ++ b = c.toList ++ d ↔ a = c ∧ b = d := by
  rw [append_eq_append_iff_of_length (by simp)]
  exact and_congr_left' List.Vector.toList_injective.eq_iff

end TopicTracker.FixedWidthBytes
