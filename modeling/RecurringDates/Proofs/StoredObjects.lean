import RecurringDates.Json.Stored

/-!
# Stored objects read back

Nothing is lost in storage. What is written of a value is never null, so that it is not taken for an
absent one, and reads as the value again: numbers of every size, dates of the whole calendar, leap
seconds with all their fractions, and texts of any kind. So do the objects that are put together
from such values. An object that was written by hand, with fields left out or in excess, with
exceptions in any order and with dates in any spelling, reads as an event whose own object reads as
no other.

The main statement is `ofJson?_toJson_eq`, assembled from one instance of `Json.ReadsBack` for each
kind of value and one statement for each kind of field.
-/

namespace RecurringDates

namespace Json

variable {α : Type} {read? : Json → Option α} {write : α → Json}

/-! ## §1 Values -/

/-- What is written of a value reads as the value, and is not null. -/
class ReadsBack (read? : Json → Option α) (write : outParam (α → Json)) : Prop where
  read_write : ∀ value, read? (write value) = some value
  write_ne_null : ∀ value, write value ≠ .null

instance : ReadsBack string? Json.string where
  read_write _ := rfl
  write_ne_null _ := Json.noConfusion

instance : ReadsBack bool? Json.bool where
  read_write _ := rfl
  write_ne_null _ := Json.noConfusion

instance : ReadsBack int8? ofInt8 where
  read_write n := by rw [int8?, ofInt8, integer?, Option.bind_some, Word.toInt8?_eq_some_iff]
  write_ne_null _ := Json.noConfusion

instance : ReadsBack int32? ofInt32 where
  read_write n := by rw [int32?, ofInt32, integer?, Option.bind_some, Word.toInt32?_eq_some_iff]
  write_ne_null _ := Json.noConfusion

instance : ReadsBack int64? ofInt64 where
  read_write n := by rw [int64?, ofInt64, integer?, Option.bind_some, Word.toInt64?_eq_some_iff]
  write_ne_null _ := Json.noConfusion

instance : ReadsBack date? ofDate where
  read_write date := by rw [date?, ofDate, string?, Option.bind_some, date.read?_write]
  write_ne_null _ := Json.noConfusion

instance : ReadsBack time? ofTime where
  read_write time := by rw [time?, ofTime, string?, Option.bind_some, time.read?_write]
  write_ne_null _ := Json.noConfusion

instance : ReadsBack weekday? ofWeekday where
  read_write weekday := Weekday.ofName?_shortName weekday
  write_ne_null _ := Json.noConfusion

instance : ReadsBack frequency? ofFrequency where
  read_write frequency := Frequency.ofName?_name frequency
  write_ne_null _ := Json.noConfusion

/-- A list reads back if its members do. -/
theorem listOf?_ofList [ReadsBack read? write] (values : List α) :
    listOf? read? (ofList write values) = some values := by
  show (values.map write).mapM read? = some values
  induction values with
  | nil => rfl
  | cons value values ih => simp [List.mapM_cons, ReadsBack.read_write value, ih]

instance [ReadsBack read? write] : ReadsBack (listOf? read?) (ofList write) where
  read_write := listOf?_ofList
  write_ne_null _ := Json.noConfusion

/-- A set of dates reads back from its dates in order. -/
instance : ReadsBack dateSet? fun dates => ofList ofDate dates.toList where
  read_write dates := by rw [dateSet?, listOf?_ofList, Option.map_some, dates.ofList_toList]
  write_ne_null _ := Json.noConfusion

/-! ## §2 Fields -/

variable {name : String} {fields : List (String × Json)}

theorem required?_of_find? [ReadsBack read? write] {value : α}
    (hfound : find? name fields = some (write value)) :
    required? read? name fields = some value := by
  rw [required?, hfound, Option.bind_some]
  exact ReadsBack.read_write value

theorem defaulted?_of_find? [ReadsBack read? write] {default value : α}
    (hfound : find? name fields = some (write value)) :
    defaulted? read? default name fields = some value := by
  unfold defaulted?
  rw [hfound]
  exact ReadsBack.read_write value

/-- **What is absent stays absent, and what is there is read.** -/
theorem optional?_of_find? [ReadsBack read? write] {value : Option α}
    (hfound : find? name fields = some (ofOption write value)) :
    optional? read? name fields = some value := by
  unfold optional?
  rw [hfound]
  cases value with
  | none => rfl
  | some value =>
    have hread : read? (write value) = some value := ReadsBack.read_write value
    have hnull : write value ≠ .null := ReadsBack.write_ne_null read? value
    -- The value could be taken for an absent one only if it were written as null.
    simp only [ofOption]
    rw [hread, Option.map_some]

/-- An object is read field by field. -/
theorem bind_eq_some_of_field {β : Type} {field : Option α} {value : α} {rest : α → Option β}
    {object : β} (hfield : field = some value) (hrest : rest value = some object) :
    (field >>= rest) = some object := by
  rw [hfield]
  exact hrest

end Json

open Json

/-! ## §3 Objects -/

/-- **Every ordinal weekday reads back from its object.** -/
theorem OrdinalWeekday.ofJson?_toJson (day : OrdinalWeekday) : ofJson? day.toJson = some day := by
  refine bind_eq_some_of_field (fields?_object rfl (by decide)) ?_
  -- Each field is found under its name and reads back from what is written there.
  refine bind_eq_some_of_field (optional?_of_find? rfl) ?_
  exact bind_eq_some_of_field (required?_of_find? rfl) rfl

/-- **Every rule reads back from its object**, valid or not. -/
theorem Rule.ofJson?_toJson (rule : Rule) : ofJson? rule.toJson = some rule := by
  refine bind_eq_some_of_field (fields?_object rfl (by decide)) ?_
  refine bind_eq_some_of_field (required?_of_find? rfl) ?_
  refine bind_eq_some_of_field (required?_of_find? rfl) ?_
  refine bind_eq_some_of_field (optional?_of_find? rfl) ?_
  refine bind_eq_some_of_field (optional?_of_find? rfl) ?_
  refine bind_eq_some_of_field (required?_of_find? rfl) ?_
  refine bind_eq_some_of_field (required?_of_find? rfl) ?_
  refine bind_eq_some_of_field (required?_of_find? rfl) ?_
  refine bind_eq_some_of_field (required?_of_find? rfl) ?_
  refine bind_eq_some_of_field (required?_of_find? rfl) ?_
  refine bind_eq_some_of_field (required?_of_find? rfl) ?_
  exact bind_eq_some_of_field (required?_of_find? rfl) rfl

/-- **Every event reads back from its object.** -/
theorem Event.ofJson?_toJson (event : Event) : ofJson? event.toJson = some event := by
  refine bind_eq_some_of_field (fields?_object rfl (by decide)) ?_
  refine bind_eq_some_of_field (optional?_of_find? rfl) ?_
  refine bind_eq_some_of_field (required?_of_find? rfl) ?_
  refine bind_eq_some_of_field (optional?_of_find? rfl) ?_
  refine bind_eq_some_of_field (optional?_of_find? rfl) ?_
  refine bind_eq_some_of_field (optional?_of_find? rfl) ?_
  refine bind_eq_some_of_field (required?_of_find? rfl) ?_
  refine bind_eq_some_of_field (optional?_of_find? rfl) ?_
  refine bind_eq_some_of_field (optional?_of_find? rfl) ?_
  refine bind_eq_some_of_field (optional?_of_find? rfl) ?_
  refine bind_eq_some_of_field (defaulted?_of_find? rfl) ?_
  refine bind_eq_some_of_field (defaulted?_of_find? rfl) ?_
  refine bind_eq_some_of_field (optional?_of_find? rfl) ?_
  refine bind_eq_some_of_field (optional?_of_find? rfl) ?_
  refine bind_eq_some_of_field (optional?_of_find? rfl) ?_
  exact bind_eq_some_of_field (defaulted?_of_find? rfl) rfl

/-- **Nothing is lost in storage.** Every event and every rule reads back from its object. Whatever
reads as an event, in whatever form it was written, the event's own object reads as the same event,
and writing it once more changes nothing. -/
theorem ofJson?_toJson_eq :
    (∀ event : Event, Event.ofJson? event.toJson = some event) ∧
    (∀ rule : Rule, Rule.ofJson? rule.toJson = some rule) ∧
    ∀ (value : Json) (event : Event), Event.ofJson? value = some event →
      Event.ofJson? event.toJson = Event.ofJson? value ∧
        ∀ again, Event.ofJson? event.toJson = some again → again.toJson = event.toJson := by
  refine ⟨Event.ofJson?_toJson, Rule.ofJson?_toJson, fun value event hread => ⟨?_, ?_⟩⟩
  · rw [hread, event.ofJson?_toJson]
  · intro again hagain
    rw [event.ofJson?_toJson, Option.some.injEq] at hagain
    rw [hagain]

/-- An event written by hand: most fields are missing, one is null and one is unknown, a month has
one digit, a leap second has a fraction of one digit, and the exceptions are out of order and
repeated. -/
def handwritten : Json :=
  .object [
    ("colour", .otherNumber),
    ("exceptionDates", .list [.string "2024-04-01", .string "2024-3-4", .string "2024-4-1"]),
    ("title", .string "Review"),
    ("description", .null),
    ("startDate", .string "-0044-3-15"),
    ("startTime", .string "23:59:60.5"),
    ("isRecurring", .bool true)]

/-- What the object written by hand stands for. -/
def handwrittenEvent : Event where
  title := "Review"
  startDate := .ofParts (-44) 3 15
  startTime := some ⟨23, 59, 60, 500000000, by decide, by decide, by decide, by decide⟩
  isRecurring := true
  exceptionDates := DateSet.ofList [.ofParts 2024 3 4, .ofParts 2024 4 1]

/-- The event reads back from its own object, where every field has one spelling. -/
theorem ofJson?_toJson_eq_handwritten :
    Event.ofJson? handwritten = some handwrittenEvent ∧
      Event.ofJson? handwrittenEvent.toJson = Event.ofJson? handwritten ∧
      handwrittenEvent.startDate.write = "-0044-03-15" ∧
      handwrittenEvent.startTime.map TimeOfDay.write = some "23:59:60.500" ∧
      Rule.ofJson? (Rule.every .yearly).toJson = some (Rule.every .yearly) := by
  obtain ⟨_, hrules, hevents⟩ := ofJson?_toJson_eq
  have hread : Event.ofJson? handwritten = some handwrittenEvent := rfl
  exact ⟨hread, (hevents _ _ hread).1, rfl, rfl, hrules _⟩

end RecurringDates
