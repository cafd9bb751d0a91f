import TopicTracker.BootstrapLoop

namespace TopicTracker.MinuteSlots

open TopicTracker.Configuration
open TopicTracker.RustValues
open TopicTracker.ThirdParty
open TopicTracker.RecordCodec
open TopicTracker.RecordRetrieval
open TopicTracker.BootstrapLoop

variable {X : Externals}

/-- `unix_minute` at a reading of the clock, in seconds since the epoch. -/
def unixMinute (timestamp minuteOffset : Int64) : Result UInt64 :=
  expect "timestamp overflow" (u64TryFromI64 (i64SaturatingAdd (timestamp / 60) minuteOffset))

/-- The slots that one tick of either merge actor reads. -/
def mergeSlots (overflowChecks : Bool) (unixMinute : UInt64) : Result (UInt64 × UInt64) := do
  let previousMinute ← minusU64 overflowChecks unixMinute 1
  .ok (previousMinute, unixMinute)

/-- The slots that one iteration of the bootstrap loop reads. -/
def bootstrapSlots (cfg : BootstrapConfig) (lastPublishedUnixMinute unixMinute : UInt64) :
    UInt64 × UInt64 :=
  let w := Window.select cfg lastPublishedUnixMinute unixMinute
  (w.older, w.newer)

theorem unixMinute_of_nonneg {timestamp : Int64} (h : 0 ≤ timestamp) :
    ∃ minute, unixMinute timestamp 0 = .ok minute ∧
      minute.toNat = timestamp.toInt.toNat / 60 := by
  have htimestamp : 0 ≤ timestamp.toInt := by simpa using Int64.le_iff_toInt_le.mp h
  have hquotient : (timestamp / 60).toInt = timestamp.toInt / 60 := by
    rw [Int64.toInt_div_of_ne_right _ _ (by decide)]
    exact Int.tdiv_eq_ediv_of_nonneg htimestamp
  have hoffset : i64SaturatingAdd (timestamp / 60) 0 = timestamp / 60 := by
    rw [i64SaturatingAdd, Int64.toInt_zero, Int.add_zero, Int64.ofIntClamp_toInt]
  have hnonneg : 0 ≤ timestamp / 60 := by
    rw [Int64.le_iff_toInt_le, hquotient, Int64.toInt_zero]
    exact Int.ediv_nonneg htimestamp (by decide)
  refine ⟨(timestamp / 60).toUInt64, ?_, ?_⟩
  · rw [unixMinute, hoffset, u64TryFromI64, if_pos hnonneg, expect]
  · rw [Int64.toNat_toUInt64_of_le hnonneg, Int64.toNatClampNeg, hquotient]
    omega

theorem mergeSlots_eq_ok_iff {overflowChecks : Bool} {minute : UInt64} {slots : UInt64 × UInt64} :
    mergeSlots overflowChecks minute = .ok slots ↔
      minusU64 overflowChecks minute 1 = .ok slots.1 ∧ slots.2 = minute := by
  rcases slots with ⟨older, newer⟩
  rw [mergeSlots, bind_eq_ok]
  simp only [Except.ok.injEq, Prod.mk.injEq]
  constructor
  · rintro ⟨previousMinute, hprevious, rfl, rfl⟩
    exact ⟨hprevious, rfl⟩
  · rintro ⟨hprevious, rfl⟩
    exact ⟨older, hprevious, rfl, rfl⟩

theorem minusU64_one_eq_iff (overflowChecks : Bool) (minute : UInt64) :
    minusU64 overflowChecks minute 1 = .ok (saturatingSub minute 1) ↔ 1 ≤ minute := by
  by_cases hminute : 1 ≤ minute
  · cases overflowChecks <;> simp [minusU64, subU64, saturatingSub, hminute]
  · obtain rfl : minute = 0 := by
      apply UInt64.toNat_inj.mp
      have hlt : minute.toNat < 1 := by simpa [UInt64.le_iff_toNat_le] using hminute
      exact Nat.lt_one_iff.mp hlt
    cases overflowChecks <;> decide

theorem mergeSlots_of_one_le (overflowChecks : Bool) {minute : UInt64} (h : 1 ≤ minute) :
    mergeSlots overflowChecks minute = .ok (minute - 1, minute) := by
  rw [mergeSlots_eq_ok_iff]
  refine ⟨((minusU64_one_eq_iff overflowChecks minute).mpr h).trans ?_, rfl⟩
  rw [saturatingSub, if_pos h]

/-- In its normal window the loop reads the minute and, saturating, the one before it. -/
theorem bootstrapSlots_normal {cfg : BootstrapConfig} {last : UInt64}
    (h : ¬ (last = 0 ∧ cfg.checkOlderRecordsFirstOnStartup = true)) (minute : UInt64) :
    bootstrapSlots cfg last minute = (saturatingSub minute 1, minute) := by
  rw [bootstrapSlots, Window.select, if_neg h]
  have hzero : saturatingSub minute 0 = minute := by simp [saturatingSub]
  rw [Window.older, Window.newer, hzero]
  rfl

/-- The merge actors and the bootstrap loop in its normal window read the same two slots,
with and without overflow checks, from the first minute after the epoch on. -/
theorem slots_agree_iff (overflowChecks : Bool) (timestamp : Int64) (hclock : 0 ≤ timestamp)
    (cfg : BootstrapConfig) (last : UInt64)
    (hnormal : ¬ (last = 0 ∧ cfg.checkOlderRecordsFirstOnStartup = true)) :
    ∃ minute, unixMinute timestamp 0 = .ok minute ∧
      (mergeSlots overflowChecks minute = .ok (bootstrapSlots cfg last minute) ↔
        60 ≤ timestamp) := by
  obtain ⟨minute, hminute, hvalue⟩ := unixMinute_of_nonneg hclock
  refine ⟨minute, hminute, ?_⟩
  rw [bootstrapSlots_normal hnormal, mergeSlots_eq_ok_iff, and_iff_left rfl, minusU64_one_eq_iff,
    UInt64.le_iff_toNat_le, hvalue, Int64.le_iff_toInt_le]
  have hsixty : (60 : Int64).toInt = 60 := rfl
  have hone : (1 : UInt64).toNat = 1 := rfl
  rw [hsixty, hone]
  omega

/-- In the first minute after the epoch the loop reads slot 0 twice, while a merge actor
panics or, without overflow checks, reads the last slot there is. -/
theorem slots_differ_in_first_minute :
    unixMinute 30 0 = .ok 0 ∧ bootstrapSlots {} 0 0 = (0, 0) ∧
      mergeSlots true 0 = .error (.panic "attempt to subtract with overflow") ∧
      mergeSlots false 0 = .ok (18446744073709551615, 0) := by
  decide

theorem slots_agree_iff_seventh_minute : ∃ minute, unixMinute 430 0 = .ok minute ∧
    (mergeSlots true minute = .ok (bootstrapSlots {} 0 minute) ↔ (60 : Int64) ≤ 430) :=
  slots_agree_iff true 430 (by decide) {} 0 (by decide)

end TopicTracker.MinuteSlots
