/-!
# JSON values

Stored data as a tree: what a JSON text stands for, with the numbers that are whole apart from all
others, since only whole numbers fit a field here.
-/

namespace RecurringDates

/-- A JSON value. -/
inductive Json where
  | null
  | bool (value : Bool)
  | integer (value : Int)
  /-- A number that is not written as a whole number. -/
  | otherNumber
  | string (value : String)
  | list (values : List Json)
  /-- The fields of an object with their names, in the order of writing. -/
  | object (fields : List (String × Json))

namespace Json

/-- The fields of an object with known names, none of which it may give twice; fields of other
names are no matter. The values alone, in the order of the names, stand for the object too; values
at the end may be left out of such a list. -/
def fields? (names : List String) : Json → Option (List (String × Json))
  | .object fields =>
    if ((fields.map Prod.fst).filter (· ∈ names)).Nodup then some fields else none
  | .list values => if values.length ≤ names.length then some (names.zip values) else none
  | _ => none

/-- An object with exactly the known names gives its fields. -/
theorem fields?_object {names : List String} {fields : List (String × Json)}
    (hnames : fields.map Prod.fst = names) (hnodup : names.Nodup) :
    fields? names (.object fields) = some fields := by
  rw [fields?, hnames, if_pos (hnodup.sublist List.filter_sublist)]

/-- The value of the field with a name. Among several of one name it is the first, but a known name
is not given twice. -/
def find? (name : String) : List (String × Json) → Option Json
  | [] => none
  | (other, value) :: rest => if other = name then some value else find? name rest

end Json

end RecurringDates
