import ApiTypes.Reading

/-!
Records whose fields are known. Fields are read in the order of the text, so the first mistake of
the text is the one that is reported; what is missing is reported at the end of the record.
-/

namespace ApiTypes

/-- What the absence of a field means. -/
inductive Presence where
  /-- The field has to be there. -/
  | required
  /-- The field may be left out of a record, but has a place in a list of fields. -/
  | optional
  /-- The field may be left out everywhere. -/
  | defaulted
deriving DecidableEq

/-- The fields of a record type in their order, under the name that messages give the type. -/
structure RecordForm where
  name : String
  fields : List (String × Presence)

namespace RecordForm

/-- The name of the type in messages. -/
def expected (form : RecordForm) : String := "struct " ++ form.name

/-- The name of the type in messages about a list that is too short for its fields. -/
def expectedLength (form : RecordForm) : String :=
  let count := form.fields.length
  form.expected ++ " with " ++ toString count ++ (if count = 1 then " element" else " elements")

/-- The field that a key names, if it is one of the type's. -/
def fieldOf (form : RecordForm) (stance : Stance) (key : Source) : Reading (Option String) := do
  match ← key.readIdentifier stance "field identifier" with
  | .name name => return if form.fields.any fun field => field.1 == name then some name else none
  | .position index => return form.fields[index]?.map Prod.fst

/-- Checks that every required field has been seen, in the order of the fields. -/
def checkRequired (form : RecordForm) (seen : List String) : Reading Unit :=
  match form.fields.find? fun field => field.2 = .required && !seen.contains field.1 with
  | some (name, _) => .error (.missingField name)
  | none => .ok ()

/--
Reads members in order. Unknown ones are passed over, and no known one may be repeated. The values
may carry more than their text, which `text` gives.
-/
def readMembers {α ν : Type} (form : RecordForm) (stance : Stance) (text : ν → Source)
    (set : String → ν → α → Reading α) : List (Source × ν) → List String → α → Reading α
  | [], seen, value => do
    form.checkRequired seen
    return value
  | (key, part) :: rest, seen, value => do
    match ← form.fieldOf stance key with
    | none =>
      (text part).skip
      form.readMembers stance text set rest seen value
    | some name =>
      if seen.contains name then throw (.duplicateField name)
      let extended ← set name part value
      form.readMembers stance text set rest (name :: seen) extended

/-- Reads the fields from a list, which holds them in their order. -/
def readItems {α ν : Type} (form : RecordForm) (text : ν → Source)
    (set : String → ν → α → Reading α) :
    List (String × Presence) → List ν → Nat → α → Reading α
  | [], [], _, value => .ok value
  | [], extra :: _, _, _ =>
    .error (.text (text extra).endFault)
  | (name, _) :: fields, part :: rest, count, value => do
    form.readItems text set fields rest (count + 1) (← set name part value)
  | (_, presence) :: fields, [], count, value =>
    if presence = .defaulted then form.readItems text set fields [] (count + 1) value
    else .error (.wrongLength count form.expectedLength)

/-- Reads a record, starting from the value in which no field is set. -/
def read {α : Type} (form : RecordForm) (stance : Stance) (unset : α)
    (set : String → Source → α → Reading α) (source : Source) : Reading α :=
  match source.opened with
  | .record members => form.readMembers stance id set members [] unset
  | .list items => form.readItems id set form.fields items 0 unset
  | _ =>
    if source.isEmptyWord stance then form.readMembers stance id set [] [] unset
    else .error (source.mismatch form.expected)

end RecordForm

end ApiTypes
