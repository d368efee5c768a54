import Mathlib.Data.List.Nodup
import Mathlib.Data.List.Perm.Basic
import RecurringDates.Proofs.SettingValues

/-!
# Other wordings of a rule text

What a text says lies in the keys and values of its parts. Blanks, the case of keys, parts that say
nothing and, where no key comes twice, the order of the parts are a matter of wording.

The main statements are `Rule.read_ofSegments_of_respelled` and `Rule.read_ofSegments_of_perm`, and
`Rule.read_eq_reading`, which says what a text comes to under every wording, with values that stand
for what their grammars say.
-/

namespace RecurringDates

open RecurringDates.Text

/-! ## §1 Names and values in a text -/

namespace Part

variable {text : List Char}

/-- The names and values of the parts of a text, known or not. -/
def pairs (text : List Char) : List (List Char × List Char) :=
  (text.splitOn ';').filterMap keyAndValue?

theorem keyAndValue?_cons_of_isBlank {c : Char} (hblank : isBlank c = true) (segment : List Char) :
    keyAndValue? (c :: segment) = keyAndValue? segment := by
  have hequals : '=' ≠ c := (ne_of_isBlank hblank (by decide)).symm
  by_cases hmem : '=' ∈ segment
  · obtain ⟨front, back, rfl, hfront⟩ := List.eq_append_cons_of_mem hmem
    rw [keyAndValue?_append_equals hfront, ← List.cons_append,
      keyAndValue?_append_equals (List.not_mem_cons_of_ne_of_not_mem hequals hfront),
      trim_cons_of_isBlank hblank]
  · rw [keyAndValue?_of_equals_not_mem hmem,
      keyAndValue?_of_equals_not_mem (List.not_mem_cons_of_ne_of_not_mem hequals hmem)]

theorem keyAndValue?_concat_of_isBlank {c : Char} (hblank : isBlank c = true)
    (segment : List Char) : keyAndValue? (segment ++ [c]) = keyAndValue? segment := by
  have hequals : '=' ≠ c := (ne_of_isBlank hblank (by decide)).symm
  by_cases hmem : '=' ∈ segment
  · -- The blank stands at the end of the value, which is trimmed.
    obtain ⟨front, back, rfl, hfront⟩ := List.eq_append_cons_of_mem hmem
    rw [keyAndValue?_append_equals hfront, List.append_assoc, List.cons_append,
      keyAndValue?_append_equals hfront, trim_concat_of_isBlank hblank]
  · -- Without `=` there is no value, with the blank or without it.
    have hconcat : '=' ∉ segment ++ [c] := by
      rw [List.mem_append, List.mem_singleton]
      exact not_or.mpr ⟨hmem, hequals⟩
    rw [keyAndValue?_of_equals_not_mem hmem, keyAndValue?_of_equals_not_mem hconcat]

theorem pairs_cons_of_isBlank {c : Char} (hblank : isBlank c = true) (text : List Char) :
    pairs (c :: text) = pairs text := by
  have hsemicolon : ';' ∉ [c] := by
    rw [List.mem_singleton]
    exact (ne_of_isBlank hblank (by decide)).symm
  -- The blank belongs to the first segment.
  obtain ⟨first, others, hsplit⟩ := List.exists_cons_of_ne_nil (List.splitOn_ne_nil ';' text)
  rw [pairs, ← List.singleton_append, splitOn_append_of_not_mem hsemicolon, hsplit, pairs, hsplit,
    List.modifyHead_cons, List.filterMap_cons, List.filterMap_cons, List.singleton_append,
    keyAndValue?_cons_of_isBlank hblank]

theorem pairs_concat_of_isBlank {c : Char} (hblank : isBlank c = true) (text : List Char) :
    pairs (text ++ [c]) = pairs text := by
  -- The blank belongs to the last segment.
  obtain ⟨others, last, hsplit, hconcat⟩ :=
    splitOn_concat_of_ne (ne_of_isBlank (d := ';') hblank (by decide)) text
  rw [pairs, hconcat, pairs, hsplit, List.filterMap_append, List.filterMap_append,
    List.filterMap_cons, List.filterMap_cons, keyAndValue?_concat_of_isBlank hblank]

/-- **Blanks at the ends of a text are those of its first and last part.** -/
theorem pairs_trim (text : List Char) : pairs (trim text) = pairs text := by
  -- Blank by blank, first from the front and then, in the reversed text, from the back.
  have hfront : ∀ text, pairs (trimFront text) = pairs text := by
    intro text
    induction text with
    | nil => rfl
    | cons c rest ih =>
      cases hfirst : isBlank c with
      | true => rw [trimFront_cons_of_isBlank hfirst, ih, pairs_cons_of_isBlank hfirst]
      | false => rw [trimFront_of_head hfirst]
  have hback : ∀ text, pairs (trimFront text).reverse = pairs text.reverse := by
    intro text
    induction text with
    | nil => rfl
    | cons c rest ih =>
      cases hfirst : isBlank c with
      | true =>
        rw [trimFront_cons_of_isBlank hfirst, ih, List.reverse_cons,
          pairs_concat_of_isBlank hfirst]
      | false => rw [trimFront_of_head hfirst]
  rw [trim, hback, List.reverse_reverse, hfront]

section Label

variable {front : List Char} (hlabel : front.map Char.toUpper = Rule.label)

include hlabel

/-- No character of a label separates anything or is a blank. -/
theorem of_mem_label {c : Char} (hmem : c ∈ front) : c ≠ ';' ∧ c ≠ '=' ∧ isBlank c = false := by
  have hupper : c.toUpper ∈ Rule.label := by
    rw [← hlabel]
    exact List.mem_map_of_mem hmem
  refine ⟨?_, ?_, ?_⟩
  · rintro rfl
    exact absurd hupper (by decide)
  · rintro rfl
    exact absurd hupper (by decide)
  · -- A blank is its own capital, and the label has no blanks.
    rw [← Bool.not_eq_true]
    intro hblank
    rw [toUpper_of_isBlank hblank] at hupper
    have hsolid : Rule.label.all (fun d => !isBlank d) = true := by decide
    have hletter := List.all_eq_true.mp hsolid c hupper
    rw [hblank] at hletter
    cases hletter

/-- A label in front of a segment makes no difference unless it gets into a name. -/
theorem keyAndValue?_label_append {segment : List Char}
    (hname : ∀ pair, keyAndValue? (front ++ segment) = some pair →
      ¬Rule.label <+: pair.1.map Char.toUpper) :
    keyAndValue? (front ++ segment) = keyAndValue? segment := by
  have hequals : '=' ∉ front := fun hmem => (of_mem_label hlabel hmem).2.1 rfl
  -- With a value behind it, the label would be the beginning of its name.
  have hsilent : '=' ∉ segment := by
    intro hmem
    obtain ⟨name, value, rfl, hfirst⟩ := List.eq_append_cons_of_mem hmem
    have hsplit : keyAndValue? (front ++ (name ++ '=' :: value))
        = some (trim (front ++ name), trim value) := by
      rw [← List.append_assoc, keyAndValue?_append_equals (by simp [hequals, hfirst])]
    have hprefix : front <+: trim (front ++ name) :=
      prefix_trim_append (by rintro rfl; cases hlabel)
        (fun c hc => (of_mem_label hlabel hc).2.2) name
    refine hname _ hsplit ?_
    rw [← hlabel]
    exact hprefix.map Char.toUpper
  rw [keyAndValue?_of_equals_not_mem hsilent,
    keyAndValue?_of_equals_not_mem (by simp [hequals, hsilent])]

end Label

/-- **No label is dropped but in front of a name that begins with it.** -/
theorem pairs_dropLabel
    (hnames : ∀ pair ∈ pairs text, ¬Rule.label <+: pair.1.map Char.toUpper) :
    pairs (Rule.dropLabel text) = pairs text := by
  unfold Rule.dropLabel
  split
  · rename_i hlabel
    have hsemicolon : ';' ∉ text.take Rule.label.length := fun hmem =>
      (of_mem_label hlabel hmem).1 rfl
    -- The label stands at the front of the first segment.
    obtain ⟨first, others, hsplit⟩ :=
      List.exists_cons_of_ne_nil (List.splitOn_ne_nil ';' (text.drop Rule.label.length))
    have hpairs : pairs text
        = ((text.take Rule.label.length ++ first) :: others).filterMap keyAndValue? := by
      conv_lhs => rw [← List.take_append_drop Rule.label.length text]
      rw [pairs, splitOn_append_of_not_mem hsemicolon, hsplit, List.modifyHead_cons]
    have hfirst : keyAndValue? (text.take Rule.label.length ++ first) = keyAndValue? first := by
      refine keyAndValue?_label_append hlabel fun pair hpair => hnames pair ?_
      rw [hpairs]
      exact List.mem_filterMap.mpr ⟨_, List.mem_cons_self, hpair⟩
    rw [hpairs, pairs, hsplit, List.filterMap_cons, List.filterMap_cons, hfirst]
  · rfl

theorem pairs_intercalate {segments : List (List Char)}
    (hall : ∀ segment ∈ segments, ';' ∉ segment) :
    pairs ([';'].intercalate segments) = segments.filterMap keyAndValue? := by
  by_cases hne : segments = []
  · rw [hne]
    rfl
  · rw [pairs, List.splitOn_intercalate ';' hall hne]

/-- A segment of text that may stand anywhere among others: it holds no separator, and no name that
begins with the label. -/
structure IsSegment (segment : List Char) : Prop where
  semicolon_not_mem : ';' ∉ segment
  name_not_labelled : ∀ front back, segment = front ++ '=' :: back → '=' ∉ front →
    ¬Rule.label <+: (trim front).map Char.toUpper

theorem IsSegment.not_labelled {segment : List Char} (hsegment : IsSegment segment)
    {pair : List Char × List Char} (hpair : keyAndValue? segment = some pair) :
    ¬Rule.label <+: pair.1.map Char.toUpper := by
  obtain ⟨front, back, hsplit, hfront, hname, _⟩ := keyAndValue?_eq_some_iff.mp hpair
  rw [← hname]
  exact hsegment.name_not_labelled front back hsplit hfront

/-- A look at the name of a segment tells whether it may stand anywhere. -/
theorem isSegment_iff {segment : List Char} :
    IsSegment segment ↔ ';' ∉ segment ∧ (keyAndValue? segment).all fun pair =>
      !Rule.label.isPrefixOf (pair.1.map Char.toUpper) := by
  have hlook : ∀ name : List Char, (!Rule.label.isPrefixOf name) = true ↔ ¬Rule.label <+: name := by
    intro name
    rw [Bool.not_eq_true', ← Bool.not_eq_true, List.isPrefixOf_iff_prefix]
  constructor
  · intro h
    refine ⟨h.semicolon_not_mem, (Option.all_eq_true _ _).mpr fun pair hpair => ?_⟩
    exact (hlook _).mpr (h.not_labelled hpair)
  · rintro ⟨hsemicolon, hname⟩
    refine ⟨hsemicolon, fun front back hsegment hfront => (hlook _).mp ?_⟩
    rw [hsegment, keyAndValue?_append_equals hfront] at hname
    exact hname

instance (segment : List Char) : Decidable (IsSegment segment) :=
  decidable_of_iff _ isSegment_iff.symm

end Part

/-! ## §2 Texts of segments -/

namespace Rule

variable {segments parts others : List (List Char)} {given given' : List Setting} {rule : Rule}

theorem filterMap_read?_eq (segments : List (List Char)) :
    segments.filterMap Setting.read?
      = (segments.filterMap Part.keyAndValue?).filterMap Setting.ofPair? := by
  rw [List.filterMap_filterMap]
  rfl

/-- The text in which segments stand between semicolons. -/
def ofSegments (segments : List (List Char)) : String :=
  String.ofList ([';'].intercalate segments)

/-- The text of segments has their names and values. -/
theorem exists_read_ofSegments (hsegments : ∀ segment ∈ segments, Part.IsSegment segment) :
    ∃ body, read (ofSegments segments) = reading body ∧
      Part.pairs body = segments.filterMap Part.keyAndValue? := by
  have hpairs : Part.pairs (trim ([';'].intercalate segments))
      = segments.filterMap Part.keyAndValue? := by
    rw [Part.pairs_trim, Part.pairs_intercalate fun segment hmem =>
      (hsegments segment hmem).semicolon_not_mem]
  refine ⟨dropLabel (trim ([';'].intercalate segments)), ?_, ?_⟩
  · rw [read, ofSegments, String.toList_ofList, readBody_eq_reading]
  · -- No name of a segment begins with the label.
    rw [← hpairs]
    apply Part.pairs_dropLabel
    intro pair hpair
    rw [hpairs] at hpair
    obtain ⟨segment, hmem, hpair⟩ := List.mem_filterMap.mp hpair
    exact (hsegments segment hmem).not_labelled hpair

/-- **What the text of segments comes to**, if one of them has a value. -/
theorem read_ofSegments (hsegments : ∀ segment ∈ segments, Part.IsSegment segment)
    (hequals : ∃ segment ∈ segments, '=' ∈ segment) :
    read (ofSegments segments) = ofSettings (segments.filterMap Setting.read?) := by
  obtain ⟨body, hread, hpairs⟩ := exists_read_ofSegments hsegments
  obtain ⟨segment, hmem, hequals⟩ := hequals
  obtain ⟨front, back, rfl, hfront⟩ := List.eq_append_cons_of_mem hequals
  have hpair : (trim front, trim back) ∈ Part.pairs body := by
    rw [hpairs]
    exact List.mem_filterMap.mpr ⟨_, hmem, Part.keyAndValue?_append_equals hfront back⟩
  -- So what is left is not empty, and its settings decide.
  have hbody : body ≠ [] := by
    rintro rfl
    cases hpair
  rw [hread, reading, if_neg hbody, settings, filterMap_read?_eq, ← Part.pairs, hpairs,
    ← filterMap_read?_eq]

/-! ## §3 Wordings -/

/-- Segments in other words, in the same order: a name with other blanks around it or in other
capitals, a value with other blanks around it, and further segments that say nothing. -/
inductive Respelled : List (List Char) → List (List Char) → Prop where
  | nil : Respelled [] []
  | keep (segment : List Char) {parts others : List (List Char)} :
      Respelled parts others → Respelled (segment :: parts) (segment :: others)
  | respell {front back front' back' : List Char} {parts others : List (List Char)}
      (hfront : '=' ∉ front) (hfront' : '=' ∉ front')
      (hname : (trim front).map Char.toUpper = (trim front').map Char.toUpper)
      (hvalue : trim back = trim back') :
      Respelled parts others →
      Respelled ((front ++ '=' :: back) :: parts) ((front' ++ '=' :: back') :: others)
  | insert {segment : List Char} {parts others : List (List Char)}
      (hsilent : Setting.read? segment = none) :
      Respelled parts others → Respelled parts (segment :: others)

/-- Segments with the same name, but for capitals, and the same value are other words for one
another. -/
theorem Respelled.of_keyAndValue? {segment segment' name name' value : List Char}
    (hsplit : Part.keyAndValue? segment = some (name, value))
    (hsplit' : Part.keyAndValue? segment' = some (name', value))
    (hname : name.map Char.toUpper = name'.map Char.toUpper) (h : Respelled parts others) :
    Respelled (segment :: parts) (segment' :: others) := by
  obtain ⟨front, back, rfl, hfront, rfl, hvalue⟩ := Part.keyAndValue?_eq_some_iff.mp hsplit
  obtain ⟨front', back', rfl, hfront', rfl, hvalue'⟩ := Part.keyAndValue?_eq_some_iff.mp hsplit'
  exact .respell hfront hfront' hname (hvalue.trans hvalue'.symm) h

theorem Respelled.filterMap_read?_eq (h : Respelled parts others) :
    others.filterMap Setting.read? = parts.filterMap Setting.read? := by
  induction h with
  | nil => rfl
  | keep segment _ ih => rw [List.filterMap_cons, List.filterMap_cons, ih]
  | respell hfront hfront' hname hvalue _ ih =>
    -- The same key and the same value are the same setting.
    have hread : Setting.read? _ = Setting.read? _ :=
      Setting.read?_append_equals_congr hfront hfront' hname hvalue
    rw [List.filterMap_cons, List.filterMap_cons, ih, hread]
  | insert hsilent _ ih => rw [List.filterMap_cons_none hsilent, ih]

theorem Respelled.exists_equals (h : Respelled parts others)
    (hequals : ∃ segment ∈ parts, '=' ∈ segment) : ∃ segment ∈ others, '=' ∈ segment := by
  induction h with
  | nil => exact hequals
  | keep segment _ ih =>
    simp only [List.exists_mem_cons_iff] at hequals ⊢
    exact hequals.imp_right ih
  | respell =>
    simp only [List.exists_mem_cons_iff]
    exact Or.inl (by simp)
  | insert _ _ ih =>
    simp only [List.exists_mem_cons_iff]
    exact Or.inr (ih hequals)

/-- **Other words change nothing.** -/
theorem read_ofSegments_of_respelled (hparts : ∀ segment ∈ parts, Part.IsSegment segment)
    (hothers : ∀ segment ∈ others, Part.IsSegment segment)
    (hequals : ∃ segment ∈ parts, '=' ∈ segment) (h : Respelled parts others) :
    read (ofSegments others) = read (ofSegments parts) := by
  rw [read_ofSegments hothers (h.exists_equals hequals), read_ofSegments hparts hequals,
    h.filterMap_read?_eq]

theorem eq_of_perm_of_length_le_one {α : Type} {xs ys : List α} (hperm : xs.Perm ys)
    (hlength : xs.length ≤ 1) : xs = ys := by
  match xs, hlength with
  | [], _ => exact (List.nil_perm.mp hperm).symm
  | [x], _ => exact (List.singleton_perm.mp hperm)

/-- Where no key comes twice, each has the same values in any order. -/
theorem valuesOf_eq_of_perm (hkeys : (given.map Setting.key).Nodup) (hperm : given.Perm given')
    (key : Key) : valuesOf key given = valuesOf key given' := by
  have hlength : (valuesOf key given).length = (given.map Setting.key).count key := by
    rw [valuesOf, List.length_map, ← List.countP_eq_length_filter, List.count, List.countP_map]
    rfl
  -- A key that comes once has one value, and one value has only one order.
  apply eq_of_perm_of_length_le_one ((hperm.filter _).map _)
  rw [← valuesOf, hlength]
  exact List.nodup_iff_count_le_one.mp hkeys key

theorem ofSettings_congr (hfault : given.findSome? Setting.fault? = given'.findSome? Setting.fault?)
    (hvalues : ∀ key, valuesOf key given = valuesOf key given') :
    ofSettings given = ofSettings given' := by
  have hrule : ofLastValues given = ofLastValues given' := by
    unfold ofLastValues lastValue?
    simp only [hvalues]
  rw [ofSettings, ofSettings, hfault, hvalues, hrule]

/-- In any order the same rule comes out, or none. -/
theorem ofSettings_eq_ok_iff_of_perm (hkeys : (given.map Setting.key).Nodup)
    (hperm : given.Perm given') : ofSettings given' = .ok rule ↔ ofSettings given = .ok rule := by
  -- Whether there is a fault at all is no matter of order.
  have hnone : given.findSome? Setting.fault? = none ↔ given'.findSome? Setting.fault? = none := by
    simp only [List.findSome?_eq_none_iff, hperm.mem_iff]
  cases hfault : given.findSome? Setting.fault? with
  | none =>
    have hfault' := hnone.mp hfault
    rw [ofSettings_congr (hfault.trans hfault'.symm) (valuesOf_eq_of_perm hkeys hperm)]
  | some cause =>
    cases hfault' : given'.findSome? Setting.fault? with
    | none =>
      rw [hnone.mpr hfault'] at hfault
      cases hfault
    | some cause' =>
      -- The causes may differ, but neither is a rule.
      simp only [ofSettings, hfault, hfault', reduceCtorEq]

/-- In any order the same comes out, if no two faults compete for the first place. -/
theorem ofSettings_eq_of_perm (hkeys : (given.map Setting.key).Nodup) (hperm : given.Perm given')
    (hfaults : (given.filterMap Setting.fault?).length ≤ 1) :
    ofSettings given' = ofSettings given := by
  -- A single fault is the first one in any order.
  have hfault : given.findSome? Setting.fault? = given'.findSome? Setting.fault? := by
    rw [← List.head?_filterMap, ← List.head?_filterMap,
      eq_of_perm_of_length_le_one (hperm.filterMap _) hfaults]
  exact (ofSettings_congr hfault (valuesOf_eq_of_perm hkeys hperm)).symm

/-- **The order changes nothing where no key comes twice**, but that of several faults it decides
which one is named. -/
theorem read_ofSegments_of_perm (hparts : ∀ segment ∈ parts, Part.IsSegment segment)
    (hequals : ∃ segment ∈ parts, '=' ∈ segment) (hperm : parts.Perm others)
    (hkeys : ((parts.filterMap Setting.read?).map Setting.key).Nodup) :
    (∀ rule, read (ofSegments others) = .ok rule ↔ read (ofSegments parts) = .ok rule) ∧
      (((parts.filterMap Setting.read?).filterMap Setting.fault?).length ≤ 1 →
        read (ofSegments others) = read (ofSegments parts)) := by
  have hothers : ∀ segment ∈ others, Part.IsSegment segment := fun segment hmem =>
    hparts segment (hperm.mem_iff.mpr hmem)
  have hequals' : ∃ segment ∈ others, '=' ∈ segment := by
    simpa only [hperm.mem_iff] using hequals
  have hsettings := hperm.filterMap Setting.read?
  rw [read_ofSegments hparts hequals, read_ofSegments hothers hequals']
  exact ⟨fun rule => ofSettings_eq_ok_iff_of_perm hkeys hsettings,
    ofSettings_eq_of_perm hkeys hsettings⟩

/-! ## §4 The reading of every text -/

/-- **What a text comes to, in any wording.** Every text has one body, which is read as told:
settings stand in its segments, the first fault decides the error, and otherwise the last values
make the rule. Segments may be spelled in other words and, where no key comes twice, in another
order. What a value stands for is a matter of its own grammar. -/
theorem read_eq_reading :
    (∀ text : String, (∃ body, IsBody text.toList body) ∧
      ∀ body, IsBody text.toList body → read text = reading body) ∧
    (∀ segment setting, Setting.read? segment = some setting ↔ ∃ front back,
      segment = front ++ '=' :: back ∧ '=' ∉ front ∧
        (trim front).map Char.toUpper = setting.key.name.toList ∧ trim back = setting.value) ∧
    (∀ parts others, (∀ segment ∈ parts, Part.IsSegment segment) →
      (∀ segment ∈ others, Part.IsSegment segment) → (∃ segment ∈ parts, '=' ∈ segment) →
      (Respelled parts others → read (ofSegments others) = read (ofSegments parts)) ∧
      (parts.Perm others → ((parts.filterMap Setting.read?).map Setting.key).Nodup →
        (∀ rule, read (ofSegments others) = .ok rule ↔ read (ofSegments parts) = .ok rule) ∧
        (((parts.filterMap Setting.read?).filterMap Setting.fault?).length ≤ 1 →
          read (ofSegments others) = read (ofSegments parts)))) ∧
    ∀ value : List Char,
      (∀ unit, Frequency.read? value = some unit ↔ Frequency.IsNamedBy value unit) ∧
      (∀ n, Setting.int64? value = some n ↔ IsIntegerOf value n.toInt) ∧
      (∀ date, Setting.lastDate? value = some date ↔ Date.IsLastDateOf value date) ∧
      (∀ numbers, Setting.int32s value = numbers ↔ IsListOf TellsNumber value numbers) ∧
      (∀ tokens, Part.readTokens value = tokens ↔ IsListOf TellsToken value tokens) ∧
      ∀ weekday, Weekday.ofCode? value = some weekday ↔ Weekday.IsCodeOf value weekday := by
  refine ⟨fun text => ⟨⟨_, isBody_dropLabel text.toList⟩, fun body hbody => hbody.read_eq⟩,
    fun segment setting => Setting.read?_eq_some_iff, fun parts others hparts hothers hequals => ?_,
    fun value => ?_⟩
  · exact ⟨read_ofSegments_of_respelled hparts hothers hequals,
      read_ofSegments_of_perm hparts hequals⟩
  · exact ⟨fun _ => Frequency.read?_eq_some_iff, fun _ => Setting.int64?_eq_some_iff,
      fun _ => Setting.lastDate?_eq_some_iff, fun _ => Setting.int32s_eq_iff,
      fun _ => Part.readTokens_eq_iff, fun _ => Weekday.ofCode?_eq_some_iff⟩

/-- Every other Monday. -/
def everyOtherMonday : Rule :=
  { every .weekly with
    interval := 2
    byDay := ["MO"] }

/-- The first of two counts is no number, and the later one does not make up for it. Every other
Monday is told in another order, and then with blanks, small letters and parts that say nothing. -/
theorem read_eq_reading_everyOtherMonday :
    read " rrule:COUNT=x;FREQ=DAILY;COUNT=3;UNTIL=1 " = .error (.invalidInteger .count "x") ∧
      read (ofSegments ["BYDAY=MO".toList, "FREQ=WEEKLY".toList, "INTERVAL=2".toList])
        = .ok everyOtherMonday ∧
      read (ofSegments [" byday = MO ".toList, [], " Freq=WEEKLY".toList, "X-NOTE=a=b".toList,
        "interval= 2 ".toList]) = .ok everyOtherMonday := by
  obtain ⟨htexts, -, hwordings, -⟩ := read_eq_reading
  refine ⟨?_, ?_⟩
  · have hbody : IsBody " rrule:COUNT=x;FREQ=DAILY;COUNT=3;UNTIL=1 ".toList
        "COUNT=x;FREQ=DAILY;COUNT=3;UNTIL=1".toList := Or.inl ⟨"rrule:".toList, rfl, rfl⟩
    exact (htexts _).2 _ hbody
  · -- The first text is read as it stands, and the other two are compared with it.
    have hplain : read (ofSegments ["FREQ=WEEKLY".toList, "INTERVAL=2".toList, "BYDAY=MO".toList])
        = .ok everyOtherMonday := rfl
    have hreordered := hwordings ["FREQ=WEEKLY".toList, "INTERVAL=2".toList, "BYDAY=MO".toList]
      ["BYDAY=MO".toList, "FREQ=WEEKLY".toList, "INTERVAL=2".toList]
      (by decide) (by decide) (by decide)
    have hrespelled := hwordings ["BYDAY=MO".toList, "FREQ=WEEKLY".toList, "INTERVAL=2".toList]
      [" byday = MO ".toList, [], " Freq=WEEKLY".toList, "X-NOTE=a=b".toList,
        "interval= 2 ".toList] (by decide) (by decide) (by decide)
    have hspelling : Respelled ["BYDAY=MO".toList, "FREQ=WEEKLY".toList, "INTERVAL=2".toList]
        [" byday = MO ".toList, [], " Freq=WEEKLY".toList, "X-NOTE=a=b".toList,
          "interval= 2 ".toList] := by
      refine .of_keyAndValue? rfl rfl rfl (.insert rfl ?_)
      refine .of_keyAndValue? rfl rfl rfl (.insert rfl ?_)
      exact .of_keyAndValue? rfl rfl rfl .nil
    have hagain := ((hreordered.2 (by decide) (by decide)).1 everyOtherMonday).mpr hplain
    exact ⟨hagain, (hrespelled.1 hspelling).trans hagain⟩

end Rule

end RecurringDates
