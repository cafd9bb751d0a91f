import TopicTracker.RustValues
import Mathlib.Order.Basic

namespace TopicTracker.RustDuration

open TopicTracker.RustValues

def nanosPerSec : Nat := 1000000000

/-- One nanosecond more than `Duration::MAX`. -/
def nanosLimit : Nat := 2 ^ 64 * nanosPerSec

structure Duration where
  nanos : Nat
  nanos_lt : nanos < nanosLimit
deriving DecidableEq

namespace Duration

theorem nanos_injective : Function.Injective Duration.nanos := by
  rintro ⟨nanos, hnanos⟩ ⟨nanos', hnanos'⟩ h
  obtain rfl : nanos = nanos' := h
  rfl

instance : LinearOrder Duration := LinearOrder.lift' Duration.nanos nanos_injective

/-- `Duration::ZERO`. -/
def zero : Duration := ⟨0, by decide⟩

/-- `Duration::MAX`. -/
def largest : Duration := ⟨nanosLimit - 1, by decide⟩

def fromSecs (secs : UInt64) : Duration :=
  ⟨secs.toNat * nanosPerSec, Nat.mul_lt_mul_of_pos_right secs.toNat_lt (by decide)⟩

def fromNanos (nanos : UInt64) : Duration :=
  ⟨nanos.toNat, nanos.toNat_lt.trans (by decide)⟩

/-- The `u128` of `Duration::as_nanos`. -/
def asNanos (d : Duration) : BitVec 128 := BitVec.ofNat 128 d.nanos

/-- The `+` of durations, which panics on overflow. -/
def add (a b : Duration) : Result Duration :=
  if h : a.nanos + b.nanos < nanosLimit then .ok ⟨a.nanos + b.nanos, h⟩
  else .error (.panic "overflow when adding durations")

theorem le_iff_nanos_le {a b : Duration} : a ≤ b ↔ a.nanos ≤ b.nanos := Iff.rfl

theorem zero_lt_or_eq_zero (d : Duration) : zero < d ∨ d = zero := by
  rcases Nat.eq_zero_or_pos d.nanos with hzero | hpos
  · exact .inr (nanos_injective hzero)
  · exact .inl hpos

@[simp] theorem fromNanos_nanos (nanos : UInt64) : (fromNanos nanos).nanos = nanos.toNat := rfl

@[simp] theorem asNanos_toNat (d : Duration) : d.asNanos.toNat = d.nanos := by
  have hfits : d.nanos < 2 ^ 128 := d.nanos_lt.trans (by decide)
  rw [asNanos, BitVec.toNat_ofNat, Nat.mod_eq_of_lt hfits]

theorem add_eq_ok_iff {a b c : Duration} : a.add b = .ok c ↔ a.nanos + b.nanos = c.nanos := by
  unfold add
  split
  · rw [Except.ok.injEq]
    exact ⟨fun h => h ▸ rfl, fun h => nanos_injective h⟩
  · rename_i hover
    constructor
    · intro h
      cases h
    · intro h
      exact absurd (h ▸ c.nanos_lt) hover

end Duration

end TopicTracker.RustDuration
