import RecurringDates.Calendar.Date

/-!
# Sets of dates

A set of dates is kept as its strictly ascending list, so that it has one form however it was
built: order and repetitions of what went in do not show.

The main statements say which dates a set holds (`DateSet.mem_insert`, `DateSet.mem_ofList`) and
that a set is known by them (`DateSet.ext`).
-/

namespace RecurringDates

/-! ## §1 Ordered insertion -/

namespace Date

/-- A date put at its place in an ascending list, unless it is there already. -/
def insertInto (date : Date) : List Date → List Date
  | [] => [date]
  | other :: rest =>
    if date < other then date :: other :: rest
    else if other < date then other :: date.insertInto rest
    else other :: rest

theorem eq_of_not_lt {a b : Date} (h : ¬ a < b) (h' : ¬ b < a) : a = b := by
  rw [lt_def] at h h'
  exact dayNumber_inj (by omega)

theorem mem_insertInto {date other : Date} {dates : List Date} :
    other ∈ date.insertInto dates ↔ other = date ∨ other ∈ dates := by
  induction dates with
  | nil => simp [insertInto]
  | cons head rest ih =>
    unfold insertInto
    split
    · -- The date goes in front.
      simp
    · split
      · -- The date goes in behind the first one, so the two change places.
        rw [List.mem_cons, ih, List.mem_cons]
        constructor
        · rintro (h | h | h)
          · exact Or.inr (Or.inl h)
          · exact Or.inl h
          · exact Or.inr (Or.inr h)
        · rintro (h | h | h)
          · exact Or.inr (Or.inl h)
          · exact Or.inl h
          · exact Or.inr (Or.inr h)
      · -- The date is the first one, which is there already.
        rename_i hbelow habove
        have heq := eq_of_not_lt hbelow habove
        subst heq
        simp

theorem pairwise_insertInto {date : Date} {dates : List Date} (h : dates.Pairwise (· < ·)) :
    (date.insertInto dates).Pairwise (· < ·) := by
  induction dates with
  | nil => simp [insertInto]
  | cons head rest ih =>
    rw [List.pairwise_cons] at h
    unfold insertInto
    split
    · -- In front of the first date it is before all others.
      rename_i hbelow
      rw [List.pairwise_cons, List.pairwise_cons]
      refine ⟨?_, h⟩
      intro other hmem
      rcases List.mem_cons.1 hmem with heq | hmem
      · subst heq
        exact hbelow
      · have := h.1 other hmem
        rw [lt_def] at *
        omega
    · split
      · -- Behind the first date it is after it, as all others are.
        rename_i habove
        rw [List.pairwise_cons]
        refine ⟨?_, ih h.2⟩
        intro other hmem
        rcases mem_insertInto.1 hmem with heq | hmem
        · subst heq
          exact habove
        · exact h.1 other hmem
      · -- It is the first date, and nothing changes.
        rw [List.pairwise_cons]
        exact h

end Date

/-! ## §2 Sets -/

/-- A finite set of dates. -/
structure DateSet where
  /-- The dates of the set, earliest first. -/
  toList : List Date
  ascending : toList.Pairwise (· < ·)
deriving DecidableEq

namespace DateSet

instance : Membership Date DateSet := ⟨fun dates date => date ∈ dates.toList⟩

instance (date : Date) (dates : DateSet) : Decidable (date ∈ dates) :=
  inferInstanceAs (Decidable (date ∈ dates.toList))

/-- The set without dates. -/
def empty : DateSet :=
  ⟨[], List.Pairwise.nil⟩

/-- A set with one more date. -/
def insert (date : Date) (dates : DateSet) : DateSet :=
  ⟨date.insertInto dates.toList, Date.pairwise_insertInto dates.ascending⟩

/-- The set of the dates of a list. -/
def ofList (dates : List Date) : DateSet :=
  dates.foldr insert empty

theorem mem_def {date : Date} {dates : DateSet} : date ∈ dates ↔ date ∈ dates.toList :=
  Iff.rfl

theorem mem_insert {date other : Date} {dates : DateSet} :
    other ∈ dates.insert date ↔ other = date ∨ other ∈ dates :=
  Date.mem_insertInto

/-- **A set holds what went in**, whatever its order. -/
theorem mem_ofList {date : Date} {dates : List Date} : date ∈ ofList dates ↔ date ∈ dates := by
  induction dates with
  | nil => exact Iff.rfl
  | cons head rest ih =>
    show date ∈ insert head (ofList rest) ↔ _
    rw [mem_insert, ih, List.mem_cons]

/-- **An ascending list is known by its members.** -/
theorem eq_of_ascending {a b : List Date} (ha : a.Pairwise (· < ·))
    (hb : b.Pairwise (· < ·)) (hsame : ∀ date, date ∈ a ↔ date ∈ b) : a = b := by
  induction a generalizing b with
  | nil =>
    cases b with
    | nil => rfl
    | cons head rest => exact absurd ((hsame head).2 List.mem_cons_self) List.not_mem_nil
  | cons x xs ih =>
    cases b with
    | nil => exact absurd ((hsame x).1 List.mem_cons_self) List.not_mem_nil
    | cons y ys =>
      rw [List.pairwise_cons] at ha hb
      -- Both heads are the least date of the set, hence the same.
      have heq : x = y := by
        rcases List.mem_cons.1 ((hsame x).1 List.mem_cons_self) with h | h
        · exact h
        · rcases List.mem_cons.1 ((hsame y).2 List.mem_cons_self) with h' | h'
          · exact h'.symm
          · have hbelow := hb.1 x h
            have habove := ha.1 y h'
            rw [Date.lt_def] at hbelow habove
            omega
      subst heq
      congr 1
      refine ih ha.2 hb.2 fun date => ?_
      constructor
      · -- A later date of one list is after the head of both, so it is a later date of the other.
        intro hmem
        rcases List.mem_cons.1 ((hsame date).1 (List.mem_cons_of_mem x hmem)) with h | h
        · have := ha.1 date hmem
          rw [h, Date.lt_def] at this
          omega
        · exact h
      · intro hmem
        rcases List.mem_cons.1 ((hsame date).2 (List.mem_cons_of_mem x hmem)) with h | h
        · have := hb.1 date hmem
          rw [h, Date.lt_def] at this
          omega
        · exact h

/-- **A set is known by its dates.** -/
theorem ext {a b : DateSet} (hsame : ∀ date, date ∈ a ↔ date ∈ b) : a = b := by
  have heq := eq_of_ascending a.ascending b.ascending hsame
  cases a
  cases b
  simp only at heq
  subst heq
  rfl

theorem ofList_toList (dates : DateSet) : ofList dates.toList = dates :=
  ext fun _ => mem_ofList

end DateSet

end RecurringDates
