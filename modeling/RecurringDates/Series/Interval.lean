/-!
# Intervals

The distance between the periods of a series, in units of its frequency.
-/

namespace RecurringDates

/-- A positive number of units that 32 bits hold. -/
structure Interval where
  value : Int
  pos : 0 < value
  lt : value < 4294967296
deriving DecidableEq

namespace Interval

/-- The interval with a value, if it is in range. -/
def ofInt? (n : Int) : Option Interval :=
  if h : 0 < n ∧ n < 4294967296 then some ⟨n, h.1, h.2⟩ else none

theorem ofInt?_eq_some_iff {n : Int} {interval : Interval} :
    ofInt? n = some interval ↔ interval.value = n := by
  unfold ofInt?
  constructor
  · intro h
    split at h
    · cases h
      rfl
    · cases h
  · rintro rfl
    rw [dif_pos ⟨interval.pos, interval.lt⟩]

/-- A step divides a distance forward exactly if a number of steps covers it. -/
theorem dvd_iff_exists_steps {step distance : Int} (hpos : 0 < step) (hnonneg : 0 ≤ distance) :
    step ∣ distance ↔ ∃ k : Nat, distance = step * k := by
  constructor
  · rintro ⟨steps, rfl⟩
    have hforward : 0 ≤ steps := Int.nonneg_of_mul_nonneg_right hnonneg hpos
    obtain ⟨k, rfl⟩ := Int.eq_ofNat_of_zero_le hforward
    exact ⟨k, rfl⟩
  · rintro ⟨k, rfl⟩
    exact ⟨k, rfl⟩

theorem value_dvd_iff (interval : Interval) {distance : Int} (hnonneg : 0 ≤ distance) :
    interval.value ∣ distance ↔ ∃ k : Nat, distance = interval.value * k :=
  dvd_iff_exists_steps interval.pos hnonneg

end Interval

end RecurringDates
