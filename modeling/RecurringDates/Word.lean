/-!
# Numbers of limited size

The stored numbers of a rule have 8, 32 or 64 bits. A whole number becomes one of them if it is in
range, and none if it is not; nothing wraps round.
-/

namespace RecurringDates.Word

/-- The signed 8-bit number with a value, if there is one. -/
def toInt8? (n : Int) : Option Int8 :=
  if -128 ≤ n ∧ n < 128 then some (Int8.ofInt n) else none

/-- The signed 32-bit number with a value, if there is one. -/
def toInt32? (n : Int) : Option Int32 :=
  if -2147483648 ≤ n ∧ n < 2147483648 then some (Int32.ofInt n) else none

/-- The signed 64-bit number with a value, if there is one. -/
def toInt64? (n : Int) : Option Int64 :=
  if -9223372036854775808 ≤ n ∧ n < 9223372036854775808 then some (Int64.ofInt n) else none

/-- The unsigned 64-bit number with a value, if there is one. -/
def toUInt64? (n : Int) : Option UInt64 :=
  if 0 ≤ n ∧ n < 18446744073709551616 then some (UInt64.ofNat n.toNat) else none

/-! ## The values are kept -/

theorem toInt8?_eq_some_iff {n : Int} {w : Int8} : toInt8? n = some w ↔ w.toInt = n := by
  unfold toInt8?
  constructor
  · intro h
    split at h
    · rename_i hbounds
      cases h
      exact Int8.toInt_ofInt_of_le hbounds.1 hbounds.2
    · cases h
  · rintro rfl
    have hlow := w.le_toInt
    have hhigh := w.toInt_lt
    rw [if_pos ⟨hlow, hhigh⟩, Int8.ofInt_toInt]

theorem toInt32?_eq_some_iff {n : Int} {w : Int32} : toInt32? n = some w ↔ w.toInt = n := by
  unfold toInt32?
  constructor
  · intro h
    split at h
    · rename_i hbounds
      cases h
      exact Int32.toInt_ofInt_of_le hbounds.1 hbounds.2
    · cases h
  · rintro rfl
    have hlow := w.le_toInt
    have hhigh := w.toInt_lt
    rw [if_pos ⟨hlow, hhigh⟩, Int32.ofInt_toInt]

theorem toInt64?_eq_some_iff {n : Int} {w : Int64} : toInt64? n = some w ↔ w.toInt = n := by
  unfold toInt64?
  constructor
  · intro h
    split at h
    · rename_i hbounds
      cases h
      exact Int64.toInt_ofInt_of_le hbounds.1 hbounds.2
    · cases h
  · rintro rfl
    have hlow := w.le_toInt
    have hhigh := w.toInt_lt
    rw [if_pos ⟨hlow, hhigh⟩, Int64.ofInt_toInt]

theorem toUInt64?_eq_some_iff {n : Int} {w : UInt64} :
    toUInt64? n = some w ↔ (w.toNat : Int) = n := by
  unfold toUInt64?
  constructor
  · intro h
    split at h
    · rename_i hbounds
      cases h
      have hbound : n.toNat < 18446744073709551616 := by omega
      rw [UInt64.toNat_ofNat_of_lt' hbound]
      omega
    · cases h
  · rintro rfl
    have hhigh := w.toNat_lt
    rw [if_pos (by omega), Int.toNat_natCast, UInt64.ofNat_toNat]

end RecurringDates.Word
