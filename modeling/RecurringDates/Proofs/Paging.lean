import RecurringDates.Proofs.Horizon

/-!
# Paging

A query over a long window may be asked page by page. Every page is a query of its own, with its own
horizon and its own count, and still the pages together answer what the long window answers.

The main statement is `Rule.occurrences_pages`: either every page and the window fail for the same
cause, or the answers of the pages, one after the other and cut to the cap, are the answer of the
window.
-/

namespace RecurringDates

namespace Window

/-! ## §1 Pages -/

/-- Windows that follow each other day by day and together cover one window. -/
inductive Pages : Window → List Window → Prop where
  /-- A window is its own only page. -/
  | single (window : Window) :
      Pages window [window]
  /-- A first page ends the day before the others begin. It may be empty, as may the others
  together, but neither may reach beyond the window. -/
  | cons {first middle next last : Date} {rest : List Window}
      (hnext : next.dayNumber = middle.dayNumber + 1)
      (hfirst : first ≤ next) (hlast : middle ≤ last) :
      Pages ⟨next, last⟩ rest →
      Pages ⟨first, last⟩ (⟨first, middle⟩ :: rest)

variable {anchor : Date} {dates : List Date}

/-- Step: what lies in a window lies in its first page or in the window of the others. -/
theorem clip_append {first middle next last : Date} (hasc : dates.Pairwise (· < ·))
    (hnext : next.dayNumber = middle.dayNumber + 1) (hfirst : first ≤ next)
    (hlast : middle ≤ last) :
    clip ⟨first, middle⟩ anchor dates ++ clip ⟨next, last⟩ anchor dates
      = clip ⟨first, last⟩ anchor dates := by
  rw [Date.le_def] at hfirst hlast
  -- Ascending lists with the same members are equal.
  apply DateSet.eq_of_ascending
  · refine List.pairwise_append.mpr ⟨hasc.filter _, hasc.filter _, ?_⟩
    -- The first page ends before the other one begins, so it stands in front.
    intro date hdate other hother
    have hbefore := (mem_clip_iff.mp hdate).2.2
    have hafter := (mem_clip_iff.mp hother).2.1
    simp only [Date.lt_def, Date.le_def, Date.dayNumber_max] at *
    omega
  · exact hasc.filter _
  · -- A date is in one of the pages exactly if it is within the window.
    intro date
    rw [List.mem_append, mem_clip_iff, mem_clip_iff, mem_clip_iff, ← and_or_left]
    apply and_congr_right
    intro _
    simp only [Date.le_def, Date.dayNumber_max]
    omega

/-- A cap on the front of a list changes nothing under the same cap on the whole. -/
private theorem take_take_append (cap : Nat) (front rest : List Date) :
    (front.take cap ++ rest).take cap = (front ++ rest).take cap := by
  rw [List.take_append, List.take_append, List.take_take, List.length_take, Nat.min_self]
  congr 2
  omega

/-- A cap on the rest of a list changes nothing under the same cap on the whole. -/
private theorem take_append_take (cap : Nat) (front rest : List Date) :
    (front ++ rest.take cap).take cap = (front ++ rest).take cap := by
  rw [List.take_append, List.take_append, List.take_take]
  congr 2
  omega

/-- Run: the capped answers of all pages, capped once more, are the capped answer of the window. -/
theorem Pages.take_flatten {window : Window} {windows : List Window}
    (hpages : window.Pages windows) (hasc : dates.Pairwise (· < ·)) (cap : Nat) :
    ((windows.map fun page => (page.clip anchor dates).take cap).flatten).take cap
      = (window.clip anchor dates).take cap := by
  induction hpages with
  | single window => simp [List.take_take]
  | @cons first middle next last rest hnext hfirst hlast _ ih =>
    -- The cap is taken off the first page and put on the others, where the hypothesis applies.
    rw [List.map_cons, List.flatten_cons, take_take_append, ← take_append_take, ih,
      take_append_take, clip_append hasc hnext hfirst hlast]

end Window

/-! ## §2 Queries page by page -/

/-- **Paging loses nothing and adds nothing.** Either every page and the window as a whole fail for
the same cause, or every page has an answer, and the answers one after the other, cut to the cap,
are the answer of the window. -/
theorem Rule.occurrences_pages {options : Options} {rule : Rule} {anchor : Option Date}
    {window : Window} {windows : List Window} (hpages : window.Pages windows) :
    (∃ cause, ∀ page ∈ window :: windows,
        rule.occurrences options anchor page = .error cause) ∨
      ∃ answers : List (List Date),
        windows.map (rule.occurrences options anchor) = answers.map .ok ∧
          rule.occurrences options anchor window
            = .ok (answers.flatten.take options.maxOccurrences.toNat) := by
  cases anchor with
  | none =>
    -- Without an anchor no page has a date.
    right
    refine ⟨windows.map fun _ => [], ?_, ?_⟩
    · rw [List.map_map]
      exact List.map_congr_left fun page _ => rfl
    · simp [occurrences]
  | some anchor =>
    cases hseries : Series.ofRule rule anchor with
    | error cause =>
      left
      -- A rule without a series fails for every page alike.
      exact ⟨cause, fun page _ => by simp only [occurrences, hseries]⟩
    | ok series =>
      -- All pages are parts of one series, whatever horizon each of them computes.
      right
      refine ⟨windows.map fun page => (page.clip anchor (series.dates Date.last)).take
        options.maxOccurrences.toNat, ?_, ?_⟩
      · rw [List.map_map]
        exact List.map_congr_left fun page _ => occurrences_of_series hseries
      · rw [hpages.take_flatten (series.pairwise_dates Date.last), occurrences_of_series hseries]

/-- Three days in a row, asked for in two pages: the count ends the series inside the second. -/
theorem Rule.occurrences_pages_three_days :
    Window.Pages ⟨.ofParts 2024 1 1, .ofParts 2024 1 9⟩
        [⟨.ofParts 2024 1 1, .ofParts 2024 1 2⟩, ⟨.ofParts 2024 1 3, .ofParts 2024 1 9⟩] ∧
      ∃ answers : List (List Date),
        [⟨.ofParts 2024 1 1, .ofParts 2024 1 2⟩, ⟨.ofParts 2024 1 3, .ofParts 2024 1 9⟩].map
            (occurrences {} { every .daily with count := some 3 } (some (.ofParts 2024 1 1)))
          = answers.map .ok ∧
        occurrences {} { every .daily with count := some 3 } (some (.ofParts 2024 1 1))
            ⟨.ofParts 2024 1 1, .ofParts 2024 1 9⟩
          = .ok (answers.flatten.take 1000) := by
  have hpages : Window.Pages ⟨.ofParts 2024 1 1, .ofParts 2024 1 9⟩
      [⟨.ofParts 2024 1 1, .ofParts 2024 1 2⟩, ⟨.ofParts 2024 1 3, .ofParts 2024 1 9⟩] :=
    .cons (by decide) (by decide) (by decide) (.single _)
  have hanswer : occurrences {} { every .daily with count := some 3 } (some (.ofParts 2024 1 1))
      ⟨.ofParts 2024 1 1, .ofParts 2024 1 9⟩
        = .ok [.ofParts 2024 1 1, .ofParts 2024 1 2, .ofParts 2024 1 3] := rfl
  refine ⟨hpages, (occurrences_pages hpages).resolve_left ?_⟩
  rintro ⟨cause, hfail⟩
  have hwindow := hfail _ List.mem_cons_self
  rw [hanswer] at hwindow
  cases hwindow

end RecurringDates
