import RecurringDates.Series.Limits
import RecurringDates.Series.Pattern

/-!
# Series and windows

A series is a checked rule bound to its anchor: the dates of its pattern from the anchor on,
within its limits. A query asks for those of its dates that lie in a window, at most a number of
them. The count of a series is spent from the anchor on, so that dates before the window use it up
too.
-/

namespace RecurringDates

/-- The days from a first to a last, both included; none if the last is before the first. -/
structure Window where
  first : Date
  last : Date
deriving DecidableEq

/-- A checked rule bound to its anchor. -/
structure Series where
  anchor : Date
  pattern : Pattern
  limits : Limits

namespace Series

/-! ## §1 Series of a rule -/

/-- The limits that a rule sets. -/
def limitsOf (rule : Rule) : Except ExpansionError Limits :=
  match rule.count with
  | none => .ok ⟨none, rule.untilDate⟩
  | some count =>
    if 0 < count.toInt then .ok ⟨some count.toInt.toNat, rule.untilDate⟩
    else .error (.invalidCount count)

/-- The series of a rule from an anchor. -/
def ofRule (rule : Rule) (anchor : Date) : Except ExpansionError Series :=
  match limitsOf rule with
  | .error cause => .error cause
  | .ok limits =>
    match Pattern.ofRule rule with
    | .error cause => .error cause
    | .ok pattern => .ok { anchor, pattern, limits }

/-! ## §2 Dates -/

/-- The periods of a series up to a horizon, with their dates from the anchor on. -/
def cycle (series : Series) (horizon : Date) : Cycle :=
  (series.pattern.cycle series.anchor horizon).filter fun date => series.anchor ≤ date

/-- The dates of a series up to a horizon, without its limits. -/
def candidates (series : Series) (horizon : Date) : List Date :=
  (series.cycle horizon).dates

/-- All dates of a series up to a horizon. -/
def dates (series : Series) (horizon : Date) : List Date :=
  series.limits.cut (series.candidates horizon)

/-! ## §3 Queries -/

/-- The last day that a query has to look at: the end of the window or of the series. -/
def horizon (series : Series) (window : Window) : Date :=
  match series.limits.untilDate with
  | none => window.last
  | some untilDate => min untilDate window.last

/-- The first day that a query has to look at: the start of the window or the anchor. -/
def lower (series : Series) (window : Window) : Date :=
  max series.anchor window.first

/-- The dates of a series in a window, at most a number of them. As the dates ascend from the
anchor, no more of them can be before the window than there are days. -/
def inWindow (series : Series) (window : Window) (cap : Nat) : List Date :=
  let cycle := series.cycle (series.horizon window)
  Source.inWindow (Limits.next cycle.pull) (series.lower window) window.last
    (series.anchor.daysTo (series.lower window)).toNat cap (series.limits, cycle.start)

end Series

end RecurringDates
