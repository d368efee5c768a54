import RecurringDates.Calendar.Date
import RecurringDates.Calendar.Date.Text
import RecurringDates.Calendar.DateSet
import RecurringDates.Calendar.Month
import RecurringDates.Calendar.TimeOfDay
import RecurringDates.Calendar.Weekday
import RecurringDates.Calendar.Year
import RecurringDates.Description.Localizer
import RecurringDates.Description.Phrase
import RecurringDates.Description.Sentence
import RecurringDates.Event.Basic
import RecurringDates.Event.Occurrence
import RecurringDates.Json.Field
import RecurringDates.Json.Stored
import RecurringDates.Json.Value
import RecurringDates.Occurrences
import RecurringDates.Rule.Basic
import RecurringDates.Rule.Error
import RecurringDates.Rule.Frequency
import RecurringDates.Rule.Key
import RecurringDates.Rule.OrdinalWeekday
import RecurringDates.Rule.Part
import RecurringDates.Rule.RepeatPattern
import RecurringDates.Rule.Text
import RecurringDates.Series.Ascending
import RecurringDates.Series.Cycle
import RecurringDates.Series.Daily
import RecurringDates.Series.Interval
import RecurringDates.Series.Limits
import RecurringDates.Series.MonthDays
import RecurringDates.Series.Monthly
import RecurringDates.Series.Pattern
import RecurringDates.Series.Positions
import RecurringDates.Series.Source
import RecurringDates.Series.Weekly
import RecurringDates.Series.Window
import RecurringDates.Series.Yearly
import RecurringDates.Text.Blank
import RecurringDates.Text.Decimal
import RecurringDates.Text.Quoted
import RecurringDates.Text.Unprintable
import RecurringDates.Word
import RecurringDates.Proofs.Listing
import RecurringDates.Proofs.Horizon
import RecurringDates.Proofs.Answers
import RecurringDates.Proofs.Walk
import RecurringDates.Proofs.Paging
import RecurringDates.Proofs.Endless
import RecurringDates.Proofs.WeeklyDates
import RecurringDates.Proofs.MonthDays
import RecurringDates.Proofs.MonthlyDates
import RecurringDates.Proofs.SolidText
import RecurringDates.Proofs.PartText
import RecurringDates.Proofs.RuleText
import RecurringDates.Proofs.Continuation
import RecurringDates.Proofs.Units
import RecurringDates.Proofs.Counting
import RecurringDates.Proofs.Faults
import RecurringDates.Proofs.Reading
import RecurringDates.Proofs.WeekdayTokens
import RecurringDates.Proofs.SettingValues
import RecurringDates.Proofs.Rewording
import RecurringDates.Proofs.Masters
import RecurringDates.Proofs.OccurrenceNames
import RecurringDates.Proofs.SameSets
import RecurringDates.Proofs.OpeningDates
import RecurringDates.Proofs.Sentences
import RecurringDates.Proofs.MonthlySentences
import RecurringDates.Proofs.FaithfulSentences
import RecurringDates.Proofs.StoredObjects
import RecurringDates.Proofs.CalendarMonths
import RecurringDates.Proofs.DailyDates
import RecurringDates.Proofs.YearlyDates
import RecurringDates.Proofs.MonthWeekdays
import RecurringDates.Proofs.LimitedSources
import RecurringDates.Proofs.MonthSteps
import RecurringDates.Proofs.BoundedNumbers
import RecurringDates.Proofs.BoundedWalks
import RecurringDates.Proofs.BoundedQueries
