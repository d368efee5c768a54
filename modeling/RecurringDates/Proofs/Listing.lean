import RecurringDates.Calendar.DateSet

/-!
# Ascending lists of dates

A strictly ascending list of dates is known by its members, so a skip to a first day and a cut
after a last day are filters on it, and a list of dates can be described by a property alone.

The main statements turn skips and cuts into filters (`Date.takeWhile_eq_filter`,
`Date.dropWhile_eq_filter`) and say that a property has at most one listing
(`Date.Enumerates.unique`).
-/

namespace RecurringDates.Date

/-! ## §1 Skips and cuts -/

variable {dates : List Date} {test : Date → Bool}

/-- Helper: if the head fails a test that earlier dates always pass, nothing after it passes. -/
private theorem filter_eq_nil_of_head {date : Date} {rest : List Date}
    (hasc : (date :: rest).Pairwise (· < ·)) (hdown : ∀ a b, a < b → test b = true → test a = true)
    (hfail : ¬ test date = true) : rest.filter test = [] := by
  rw [List.filter_eq_nil_iff]
  intro other hmem hother
  exact hfail (hdown date other ((List.pairwise_cons.mp hasc).1 other hmem) hother)

/-- A cut at the first failure keeps exactly the dates that pass, if earlier dates pass whenever
later ones do. -/
theorem takeWhile_eq_filter (hasc : dates.Pairwise (· < ·))
    (hdown : ∀ a b, a < b → test b = true → test a = true) :
    dates.takeWhile test = dates.filter test := by
  induction dates with
  | nil => rfl
  | cons date rest ih =>
    by_cases hpass : test date = true
    · -- The head stays on both sides, and the rest is ascending too.
      rw [List.takeWhile_cons_of_pos hpass, List.filter_cons_of_pos hpass,
        ih (List.pairwise_cons.mp hasc).2]
    · -- The cut is here, and nothing later passes the filter.
      rw [List.takeWhile_cons_of_neg hpass, List.filter_cons_of_neg hpass,
        filter_eq_nil_of_head hasc hdown hpass]

/-- A skip to the first failure drops exactly the dates that pass, if earlier dates pass whenever
later ones do. -/
theorem dropWhile_eq_filter (hasc : dates.Pairwise (· < ·))
    (hdown : ∀ a b, a < b → test b = true → test a = true) :
    dates.dropWhile test = dates.filter fun date => !test date := by
  induction dates with
  | nil => rfl
  | cons date rest ih =>
    by_cases hpass : test date = true
    · -- The head is dropped on both sides, and the rest is ascending too.
      rw [List.dropWhile_cons_of_pos hpass, List.filter_cons_of_neg (by simp [hpass]),
        ih (List.pairwise_cons.mp hasc).2]
    · -- The skip ends here, and the filter drops nothing that comes later.
      rw [List.dropWhile_cons_of_neg hpass]
      symm
      rw [List.filter_eq_self]
      intro other hmem
      rcases List.mem_cons.mp hmem with rfl | hlater
      · simp [hpass]
      · have hnone := List.filter_eq_nil_iff.mp (filter_eq_nil_of_head hasc hdown hpass)
        simpa using hnone other hlater

/-- The dates up to a last day stand at the front of an ascending list. -/
theorem takeWhile_le_eq_filter (hasc : dates.Pairwise (· < ·)) (last : Date) :
    dates.takeWhile (· ≤ last) = dates.filter (· ≤ last) := by
  apply takeWhile_eq_filter hasc
  intro a b hlt hle
  simp only [decide_eq_true_eq, lt_def, le_def] at *
  omega

/-- The dates before a first day stand at the front of an ascending list. -/
theorem dropWhile_lt_eq_filter (hasc : dates.Pairwise (· < ·)) (first : Date) :
    dates.dropWhile (· < first) = dates.filter (first ≤ ·) := by
  rw [dropWhile_eq_filter hasc]
  · congr 1
    funext date
    rw [← decide_not, decide_eq_decide, lt_def, le_def]
    omega
  · intro a b hlt hle
    simp only [decide_eq_true_eq, lt_def] at *
    omega

/-- No date stands twice in an ascending list. -/
theorem nodup_of_ascending (hasc : dates.Pairwise (· < ·)) : dates.Nodup := by
  apply hasc.imp
  intro a b hlt heq
  rw [heq, lt_def] at hlt
  omega

/-! ## §2 Listings -/

/-- A list holds exactly the dates with a property, in ascending order. -/
structure Enumerates (dates : List Date) (property : Date → Prop) : Prop where
  ascending : dates.Pairwise (· < ·)
  mem_iff : ∀ date, date ∈ dates ↔ property date

/-- **A property has at most one listing.** -/
theorem Enumerates.unique {other : List Date} {property : Date → Prop}
    (h : Enumerates dates property) (h' : Enumerates other property) : dates = other :=
  DateSet.eq_of_ascending h.ascending h'.ascending fun date =>
    (h.mem_iff date).trans (h'.mem_iff date).symm

/-! ## §3 Positions in a listing -/

/-- A date stands at a position among the dates with a property: at its place from the earliest,
counted from 1, or at its place from the latest, counted from -1. -/
def StandsAt (date : Date) (property : Date → Prop) (position : Int) : Prop :=
  ∃ dates, Enumerates dates property ∧ ∃ i : Nat, dates[i]? = some date ∧
    (position = i + 1 ∨ position = i - dates.length)

theorem Enumerates.standsAt_iff {date : Date} {property : Date → Prop} {position : Int}
    (h : Enumerates dates property) :
    date.StandsAt property position ↔
      ∃ i : Nat, dates[i]? = some date ∧ (position = i + 1 ∨ position = i - dates.length) := by
  constructor
  · rintro ⟨other, hother, hplace⟩
    rwa [h.unique hother]
  · exact fun hplace => ⟨dates, h, hplace⟩

/-- A date that stands among the dates with a property has it. -/
theorem StandsAt.property {date : Date} {property : Date → Prop} {position : Int}
    (h : date.StandsAt property position) : property date := by
  obtain ⟨dates, hlisting, i, hi, _⟩ := h
  exact (hlisting.mem_iff date).mp (List.mem_of_getElem? hi)

theorem StandsAt.congr {date : Date} {property property' : Date → Prop} {position : Int}
    (hsame : ∀ other, property other ↔ property' other) :
    date.StandsAt property position ↔ date.StandsAt property' position := by
  rw [funext fun other => propext (hsame other)]

end RecurringDates.Date
