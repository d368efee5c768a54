import Mathlib.Data.List.Basic
import RecurringDates.Proofs.PartText

/-!
# What a rule text says

Reading goes through the parts of a text one after the other, sets a field at each and stops at the
first that is malformed. What it comes to can be told without that walk: the error is the first of
the malformed values, and a rule holds in each field the last value given for it.

The main statements are `Part.readAll_eq` (what the walk collects), `Rule.get_foldl_apply` (the last
value wins) and `Rule.IsBody.read_eq` (what a text comes to).
-/

namespace RecurringDates

open RecurringDates.Text

/-! ## §1 Settings -/

/-- A known key and the value that a part of a text gives for it. -/
structure Setting where
  key : Key
  value : List Char
deriving DecidableEq

namespace Setting

/-- The setting that a name and a value make, none if no key has the name. -/
def ofPair? (pair : List Char × List Char) : Option Setting :=
  (Key.read? pair.1).map fun key => { key, value := pair.2 }

/-- The setting in a segment of text, none if the segment has no `=` or an unknown key. -/
def read? (segment : List Char) : Option Setting :=
  (Part.keyAndValue? segment).bind ofPair?

/-- The key stands before the first `=`, in capital or small letters, and the value behind it, with
or without blanks around them. -/
theorem read?_eq_some_iff {segment : List Char} {setting : Setting} :
    read? segment = some setting ↔ ∃ front back, segment = front ++ '=' :: back ∧ '=' ∉ front ∧
      (trim front).map Char.toUpper = setting.key.name.toList ∧ trim back = setting.value := by
  rw [read?, Option.bind_eq_some_iff]
  constructor
  · rintro ⟨⟨name, value⟩, hsplit, hsetting⟩
    obtain ⟨front, back, rfl, hfront, rfl, rfl⟩ := Part.keyAndValue?_eq_some_iff.mp hsplit
    obtain ⟨key, hkey, rfl⟩ := Option.map_eq_some_iff.mp hsetting
    exact ⟨front, back, rfl, hfront, Key.read?_eq_some_iff.mp hkey, rfl⟩
  · rintro ⟨front, back, rfl, hfront, hname, hvalue⟩
    refine ⟨(trim front, trim back), Part.keyAndValue?_append_equals hfront back, ?_⟩
    exact Option.map_eq_some_iff.mpr ⟨setting.key, Key.read?_eq_some_iff.mpr hname, by rw [hvalue]⟩

/-- Blanks and capitals in a name, and blanks around a value, do not matter. -/
theorem read?_append_equals_congr {front back front' back' : List Char} (hfront : '=' ∉ front)
    (hfront' : '=' ∉ front')
    (hname : (trim front).map Char.toUpper = (trim front').map Char.toUpper)
    (hvalue : trim back = trim back') :
    read? (front ++ '=' :: back) = read? (front' ++ '=' :: back') := by
  unfold read?
  rw [Part.keyAndValue?_append_equals hfront, Part.keyAndValue?_append_equals hfront', hvalue]
  simp only [Option.bind_some, ofPair?, Key.read?, hname]

/-- The number that a value stands for. -/
def int64? (value : List Char) : Option Int64 :=
  (readInteger? value).bind Word.toInt64?

/-- The last date that a value stands for: the one of the eight digits before a `T`. -/
def lastDate? (value : List Char) : Option Date :=
  Date.readCompact? (value.takeWhile fun c => c != 'T' && c != 't')

/-- The numbers among the entries of a list. -/
def int32s (value : List Char) : List Int32 :=
  (value.splitOn ',').filterMap fun entry => (readInteger? (trim entry)).bind Word.toInt32?

theorem readInt32s_eq (value : List Char) : Part.readInt32s value = int32s value := by
  unfold Part.readInt32s Part.entries int32s
  rw [List.filterMap_filter, List.filterMap_map]
  refine List.filterMap_congr fun entry _ => ?_
  rw [Function.comp_apply]
  -- An entry of blanks alone, left out of a list, is no number either.
  cases trim entry <;> rfl

/-- A cause, if nothing was understood. -/
def causeUnless {α : Type} (understood : Option α) (cause : ReadError) : Option ReadError :=
  match understood with
  | some _ => none
  | none => some cause

theorem causeUnless_eq_none_iff {α : Type} {understood : Option α} {cause : ReadError} :
    causeUnless understood cause = none ↔ understood.isSome := by
  cases understood <;> simp [causeUnless]

/-- What is wrong with a setting. Only a frequency, a number and a last date can be malformed. -/
def fault? (setting : Setting) : Option ReadError :=
  match setting.key with
  | .frequency =>
    causeUnless (Frequency.read? setting.value) (.invalidFrequency (String.ofList setting.value))
  | .interval | .count =>
    causeUnless (int64? setting.value) (.invalidInteger setting.key (String.ofList setting.value))
  | .untilDate =>
    causeUnless (lastDate? setting.value) (.invalidUntil (String.ofList setting.value))
  | _ => none

/-- The part that a setting without fault is. -/
def part? (setting : Setting) : Option Part :=
  match setting.key with
  | .frequency => (Frequency.read? setting.value).map .frequency
  | .interval => (int64? setting.value).map .interval
  | .count => (int64? setting.value).map .count
  | .untilDate => (lastDate? setting.value).map .untilDate
  | .byDay => some (.byDay (Part.readTokens setting.value))
  | .byMonthDay => some (.byMonthDay (int32s setting.value))
  | .byYearDay => some (.byYearDay (int32s setting.value))
  | .byWeekNo => some (.byWeekNo (int32s setting.value))
  | .byMonth => some (.byMonth (int32s setting.value))
  | .bySetPos => some (.bySetPos (int32s setting.value))
  | .weekStart => (Weekday.ofCode? setting.value).map .weekStart

theorem key_of_part? {setting : Setting} {part : Part} (hpart : setting.part? = some part) :
    part.key = setting.key := by
  obtain ⟨key, value⟩ := setting
  cases key with
  | byDay | byMonthDay | byYearDay | byWeekNo | byMonth | bySetPos =>
    cases hpart
    rfl
  | _ =>
    obtain ⟨_, _, rfl⟩ := Option.map_eq_some_iff.mp hpart
    rfl

theorem ofKey_eq (setting : Setting) :
    Part.ofKey setting.key setting.value = match setting.fault? with
      | some cause => .error cause
      | none => .ok setting.part? := by
  obtain ⟨key, value⟩ := setting
  -- The first four keys ask for a value that can be read; no other value is a fault.
  cases key with
  | frequency =>
    simp only [Part.ofKey, fault?, part?]
    cases Frequency.read? value <;> rfl
  | interval | count =>
    simp only [Part.ofKey, Part.readInt64, fault?, part?, int64?]
    cases (readInteger? value).bind Word.toInt64? <;> rfl
  | untilDate =>
    simp only [Part.ofKey, Part.readUntil, fault?, part?, lastDate?]
    cases Date.readCompact? (value.takeWhile fun c => c != 'T' && c != 't') <;> rfl
  | byDay => rfl
  | byMonthDay | byYearDay | byWeekNo | byMonth | bySetPos =>
    simp only [Part.ofKey, fault?, part?, readInt32s_eq]
  | weekStart => rfl

end Setting

/-! ## §2 The walk -/

namespace Part

theorem read_eq (segment : List Char) :
    read segment = match Setting.read? segment with
      | some setting => ofKey setting.key setting.value
      | none => .ok none := by
  unfold read Setting.read?
  cases keyAndValue? segment with
  | none => rfl
  | some pair =>
    simp only [Option.bind_some, Setting.ofPair?]
    cases Key.read? pair.1 <;> rfl

theorem isFrequency_iff {part : Part} : part.isFrequency = true ↔ part.key = .frequency := by
  cases part <;> simp [isFrequency, key]

/-- **What the walk collects**: it ends with the first fault, or it has all parts. -/
theorem readAll_eq (segments : List (List Char)) :
    readAll segments = match (segments.filterMap Setting.read?).findSome? Setting.fault? with
      | some cause => .error cause
      | none => .ok ((segments.filterMap Setting.read?).filterMap Setting.part?) := by
  induction segments with
  | nil => rfl
  | cons segment rest ih =>
    rw [readAll, read_eq, ih]
    -- A segment that is no setting changes nothing; a setting has a fault, or it may have a part.
    cases hsetting : Setting.read? segment with
    | none =>
      simp only [List.filterMap_cons_none hsetting]
      cases (rest.filterMap Setting.read?).findSome? Setting.fault? <;> rfl
    | some setting =>
      simp only [List.filterMap_cons_some hsetting, List.findSome?_cons, setting.ofKey_eq]
      cases setting.fault? with
      | some cause => rfl
      | none =>
        cases (rest.filterMap Setting.read?).findSome? Setting.fault? with
        | some cause => rfl
        | none => cases hpart : setting.part? <;> simp [hpart]

end Part

/-! ## §3 Last values -/

namespace Rule

variable {given : List Setting}

/-- A rule with one more setting. -/
def apply (rule : Rule) (setting : Setting) : Rule :=
  match setting.key with
  | .frequency =>
    { rule with frequency := (Frequency.read? setting.value).getD rule.frequency }
  | .interval => { rule with interval := (Setting.int64? setting.value).getD rule.interval }
  | .count => { rule with count := ((Setting.int64? setting.value).map some).getD rule.count }
  | .untilDate =>
    { rule with untilDate := ((Setting.lastDate? setting.value).map some).getD rule.untilDate }
  | .byDay => { rule with byDay := Part.readTokens setting.value }
  | .byMonthDay => { rule with byMonthDay := Setting.int32s setting.value }
  | .byYearDay => { rule with byYearDay := Setting.int32s setting.value }
  | .byWeekNo => { rule with byWeekNo := Setting.int32s setting.value }
  | .byMonth => { rule with byMonth := Setting.int32s setting.value }
  | .bySetPos => { rule with bySetPos := Setting.int32s setting.value }
  | .weekStart => { rule with weekStart := (Weekday.ofCode? setting.value).getD rule.weekStart }

theorem apply_eq (rule : Rule) (setting : Setting) :
    rule.apply setting = setting.part?.toList.foldl Part.set rule := by
  obtain ⟨key, value⟩ := setting
  cases key with
  | frequency =>
    simp only [apply, Setting.part?]
    cases Frequency.read? value <;> rfl
  | interval | count =>
    simp only [apply, Setting.part?]
    cases Setting.int64? value <;> rfl
  | untilDate =>
    simp only [apply, Setting.part?]
    cases Setting.lastDate? value <;> rfl
  | byDay | byMonthDay | byYearDay | byWeekNo | byMonth | bySetPos => rfl
  | weekStart =>
    simp only [apply, Setting.part?]
    cases Weekday.ofCode? value <;> rfl

theorem foldl_set_filterMap_part? (given : List Setting) (rule : Rule) :
    (given.filterMap Setting.part?).foldl Part.set rule = given.foldl apply rule := by
  induction given generalizing rule with
  | nil => rfl
  | cons setting rest ih =>
    -- A setting sets what its part does, and nothing if it has none.
    rw [List.foldl_cons, apply_eq, ← ih, ← List.foldl_append]
    congr 1
    cases hpart : setting.part? <;> simp [hpart]

/-- The values given for a key, in order. -/
def valuesOf (key : Key) (given : List Setting) : List (List Char) :=
  (given.filter fun setting => setting.key = key).map Setting.value

/-- The last value given for a key. -/
def lastValue? (key : Key) (given : List Setting) : Option (List Char) :=
  (valuesOf key given).getLast?

/-- **The last value wins.** A field that one key sets, where a value says what to set, holds at the
end what the last such value says. -/
theorem get_foldl_apply {α : Type} (get : Rule → α) (key : Key) (tells? : List Char → Option α)
    (hget : ∀ (rule : Rule) (other : Key) (value : List Char), get (rule.apply ⟨other, value⟩)
      = if other = key then (tells? value).getD (get rule) else get rule)
    (given : List Setting) (rule : Rule) :
    get (given.foldl apply rule)
      = (((valuesOf key given).filterMap tells?).getLast?).getD (get rule) := by
  -- The field holds the last value so far; whether the first setting counts depends on its key.
  induction given generalizing rule with
  | nil => rfl
  | cons setting rest ih =>
    obtain ⟨other, value⟩ := setting
    rw [List.foldl_cons, ih, hget]
    unfold valuesOf
    by_cases hkey : other = key
    · rw [if_pos hkey, List.filter_cons_of_pos (by simpa using hkey), List.map_cons]
      cases htells : tells? value with
      | none => rw [List.filterMap_cons_none htells, Option.getD_none]
      | some x =>
        rw [List.filterMap_cons_some htells, List.getLast?_cons, Option.getD_some, Option.getD_some]
    · -- Another key leaves the field alone.
      rw [if_neg hkey, List.filter_cons_of_neg (by simpa using hkey)]

/-- Where every value says something, the last one is the last to say something. -/
theorem getLast?_filterMap_of_isSome {α β : Type} {tells? : α → Option β} {values : List α}
    (hall : ∀ value ∈ values, (tells? value).isSome) :
    (values.filterMap tells?).getLast? = values.getLast?.bind tells? := by
  rw [List.getLast?_filterMap, ← List.head?_reverse]
  cases hreverse : values.reverse with
  | nil => rfl
  | cons last others =>
    -- The last value is among those that say something.
    have hlast : last ∈ values := by
      rw [← List.mem_reverse, hreverse]
      exact List.mem_cons_self
    obtain ⟨x, hx⟩ := Option.isSome_iff_exists.mp (hall last hlast)
    rw [List.findSome?_cons, hx, List.head?_cons, Option.bind_some, hx]

/-- Without faults a field holds at the end what the last value of all says. -/
theorem get_foldl_apply_of_faultless {α : Type} (get : Rule → α) (key : Key)
    (tells? : List Char → Option α)
    (hget : ∀ (rule : Rule) (other : Key) (value : List Char), get (rule.apply ⟨other, value⟩)
      = if other = key then (tells? value).getD (get rule) else get rule)
    (htells : ∀ value, Setting.fault? ⟨key, value⟩ = none → (tells? value).isSome)
    (hgiven : ∀ setting ∈ given, setting.fault? = none) (rule : Rule) :
    get (given.foldl apply rule) = ((lastValue? key given).bind tells?).getD (get rule) := by
  have hall : ∀ value ∈ valuesOf key given, (tells? value).isSome := by
    intro value hmem
    obtain ⟨setting, hfound, rfl⟩ := List.mem_map.mp hmem
    obtain ⟨hsetting, hkey⟩ := List.mem_filter.mp hfound
    have hfault := hgiven setting hsetting
    rw [← of_decide_eq_true hkey] at htells
    exact htells setting.value hfault
  rw [get_foldl_apply get key tells? hget, getLast?_filterMap_of_isSome hall, lastValue?]

/-- A list field holds at the end what the last value of all says: no list is malformed. -/
theorem get_foldl_apply_list {α : Type} (get : Rule → List α) (key : Key)
    (entries : List Char → List α)
    (hget : ∀ (rule : Rule) (other : Key) (value : List Char), get (rule.apply ⟨other, value⟩)
      = if other = key then entries value else get rule)
    (given : List Setting) (rule : Rule) :
    get (given.foldl apply rule) = ((lastValue? key given).map entries).getD (get rule) := by
  rw [get_foldl_apply get key (fun value => some (entries value)) hget,
    getLast?_filterMap_of_isSome fun _ _ => rfl, Option.map_eq_bind]
  rfl

/-- The rule in which each field holds what the last value for it says, and its default if there is
none. Of the week starts those that are no weekday do not count. -/
def ofLastValues (given : List Setting) : Rule where
  frequency := ((lastValue? .frequency given).bind Frequency.read?).getD .daily
  interval := ((lastValue? .interval given).bind Setting.int64?).getD 1
  count := (lastValue? .count given).bind Setting.int64?
  untilDate := (lastValue? .untilDate given).bind Setting.lastDate?
  byDay := ((lastValue? .byDay given).map Part.readTokens).getD []
  byMonthDay := ((lastValue? .byMonthDay given).map Setting.int32s).getD []
  byYearDay := ((lastValue? .byYearDay given).map Setting.int32s).getD []
  byWeekNo := ((lastValue? .byWeekNo given).map Setting.int32s).getD []
  byMonth := ((lastValue? .byMonth given).map Setting.int32s).getD []
  bySetPos := ((lastValue? .bySetPos given).map Setting.int32s).getD []
  weekStart := (((valuesOf .weekStart given).filterMap Weekday.ofCode?).getLast?).getD .monday

theorem getD_bind_map_some {α β : Type} (value : Option α) (tells? : α → Option β) :
    (value.bind fun x => (tells? x).map some).getD none = value.bind tells? := by
  cases value with
  | none => rfl
  | some x => cases hx : tells? x <;> simp [hx]

attribute [ext] Rule

/-- **Faultless settings make the rule of their last values.** -/
theorem foldl_apply_eq_ofLastValues (hgiven : ∀ setting ∈ given, setting.fault? = none) :
    given.foldl apply (every .daily) = ofLastValues given := by
  -- Each field is set by the settings of its key, and kept by those of any other.
  apply Rule.ext
  case frequency =>
    exact get_foldl_apply_of_faultless Rule.frequency .frequency Frequency.read?
      (fun _ other _ => by cases other <;> rfl)
      (fun _ hfault => Setting.causeUnless_eq_none_iff.mp hfault) hgiven _
  case interval =>
    exact get_foldl_apply_of_faultless Rule.interval .interval Setting.int64?
      (fun _ other _ => by cases other <;> rfl)
      (fun _ hfault => Setting.causeUnless_eq_none_iff.mp hfault) hgiven _
  case count =>
    refine Eq.trans ?_ (getD_bind_map_some _ Setting.int64?)
    exact get_foldl_apply_of_faultless Rule.count .count
      (fun value => (Setting.int64? value).map some)
      (fun _ other _ => by cases other <;> rfl)
      (fun _ hfault => by simpa using Setting.causeUnless_eq_none_iff.mp hfault) hgiven _
  case untilDate =>
    refine Eq.trans ?_ (getD_bind_map_some _ Setting.lastDate?)
    exact get_foldl_apply_of_faultless Rule.untilDate .untilDate
      (fun value => (Setting.lastDate? value).map some)
      (fun _ other _ => by cases other <;> rfl)
      (fun _ hfault => by simpa using Setting.causeUnless_eq_none_iff.mp hfault) hgiven _
  case byDay =>
    exact get_foldl_apply_list Rule.byDay .byDay Part.readTokens
      (fun _ other _ => by cases other <;> rfl) given _
  case byMonthDay =>
    exact get_foldl_apply_list Rule.byMonthDay .byMonthDay Setting.int32s
      (fun _ other _ => by cases other <;> rfl) given _
  case byYearDay =>
    exact get_foldl_apply_list Rule.byYearDay .byYearDay Setting.int32s
      (fun _ other _ => by cases other <;> rfl) given _
  case byWeekNo =>
    exact get_foldl_apply_list Rule.byWeekNo .byWeekNo Setting.int32s
      (fun _ other _ => by cases other <;> rfl) given _
  case byMonth =>
    exact get_foldl_apply_list Rule.byMonth .byMonth Setting.int32s
      (fun _ other _ => by cases other <;> rfl) given _
  case bySetPos =>
    exact get_foldl_apply_list Rule.bySetPos .bySetPos Setting.int32s
      (fun _ other _ => by cases other <;> rfl) given _
  case weekStart =>
    exact get_foldl_apply Rule.weekStart .weekStart Weekday.ofCode?
      (fun _ other _ => by cases other <;> rfl) given _

theorem valuesOf_eq_nil_iff {key : Key} :
    valuesOf key given = [] ↔ ∀ setting ∈ given, setting.key ≠ key := by
  simp [valuesOf]

/-- Among the parts of faultless settings is a frequency if a value is given for it. -/
theorem any_isFrequency_iff (hgiven : ∀ setting ∈ given, setting.fault? = none) :
    (given.filterMap Setting.part?).any Part.isFrequency = true ↔
      valuesOf .frequency given ≠ [] := by
  rw [List.any_eq_true, Ne, valuesOf_eq_nil_iff]
  constructor
  · -- A part that is a frequency comes from a setting with that key.
    rintro ⟨part, hpart, hfrequency⟩ hnone
    obtain ⟨setting, hsetting, hpart⟩ := List.mem_filterMap.mp hpart
    rw [Part.isFrequency_iff, Setting.key_of_part? hpart] at hfrequency
    exact hnone setting hsetting hfrequency
  · -- A value for the frequency is no fault, so it names a unit.
    intro hsome
    push Not at hsome
    obtain ⟨⟨_, value⟩, hsetting, rfl⟩ := hsome
    obtain ⟨unit, hunit⟩ := Option.isSome_iff_exists.mp
      (Setting.causeUnless_eq_none_iff.mp (hgiven _ hsetting))
    have hpart : Setting.part? ⟨.frequency, value⟩ = some (.frequency unit) := by
      simp only [Setting.part?, hunit, Option.map_some]
    exact ⟨_, List.mem_filterMap.mpr ⟨_, hsetting, hpart⟩, rfl⟩

/-! ## §4 The reading -/

/-- What settings come to: the first fault if there is one, and otherwise the rule of their last
values if a frequency is among them. -/
def ofSettings (given : List Setting) : Except ReadError Rule :=
  match given.findSome? Setting.fault? with
  | some cause => .error cause
  | none =>
    if valuesOf .frequency given = [] then .error .missingFrequency else .ok (ofLastValues given)

/-- The settings in a text, in order. -/
def settings (body : List Char) : List Setting :=
  (body.splitOn ';').filterMap Setting.read?

/-- What a text without a label comes to. -/
def reading (body : List Char) : Except ReadError Rule :=
  if body = [] then .error .empty else ofSettings (settings body)

/-- What is left of a text once the blanks at its ends and a label in front are gone. -/
def IsBody (text body : List Char) : Prop :=
  (∃ front, trim text = front ++ body ∧ front.map Char.toUpper = label) ∨
    (trim text = body ∧ ∀ front back, trim text = front ++ back → front.map Char.toUpper ≠ label)

theorem isBody_dropLabel (text : List Char) : IsBody text (dropLabel (trim text)) := by
  unfold dropLabel
  split
  · rename_i hlabel
    exact Or.inl ⟨_, (List.take_append_drop label.length (trim text)).symm, hlabel⟩
  · -- Whatever is spelled like the label is as long as it, and so would have been dropped.
    rename_i hother
    refine Or.inr ⟨rfl, fun front back hsplit hlabel => hother ?_⟩
    have hlength : front.length = label.length := by
      rw [← hlabel, List.length_map]
    rw [hsplit, List.take_left' hlength, hlabel]

theorem readBody_eq_reading (body : List Char) : readBody body = reading body := by
  unfold readBody reading ofSettings
  split
  · rfl
  · rw [Part.readAll_eq, ← settings]
    cases hfault : (settings body).findSome? Setting.fault? with
    | some cause => rfl
    | none =>
      -- Without faults the parts make the rule of the last values.
      have hgiven := List.findSome?_eq_none_iff.mp hfault
      simp only
      unfold ofParts?
      rw [foldl_set_filterMap_part?, foldl_apply_eq_ofLastValues hgiven]
      by_cases hfrequency : valuesOf .frequency (settings body) = []
      · rw [if_pos hfrequency, if_neg fun hany => (any_isFrequency_iff hgiven).mp hany hfrequency]
      · rw [if_neg hfrequency, if_pos ((any_isFrequency_iff hgiven).mpr hfrequency)]

/-- No other text is left. -/
theorem IsBody.eq_dropLabel {text body : List Char} (h : IsBody text body) :
    body = dropLabel (trim text) := by
  rcases h with ⟨front, hsplit, hlabel⟩ | ⟨rfl, hother⟩
  · -- What is spelled like the label has its length.
    have hlength : front.length = label.length := by
      rw [← hlabel, List.length_map]
    rw [dropLabel, hsplit, List.take_left' hlength, List.drop_left' hlength, if_pos hlabel]
  · rw [dropLabel, if_neg (hother _ _ (List.take_append_drop label.length (trim text)).symm)]

/-- **What a text comes to**: it is read as its body is. -/
theorem IsBody.read_eq {text : String} {body : List Char} (h : IsBody text.toList body) :
    read text = reading body := by
  rw [read, ← h.eq_dropLabel, readBody_eq_reading]

end Rule

end RecurringDates
