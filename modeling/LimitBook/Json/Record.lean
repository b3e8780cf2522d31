import LimitBook.Json.Codec

/-!
Records: objects with known fields, each under one of its names. A record may also be written as an array of its
fields in order. A field given twice is refused at its second key, and missing fields are noticed at the end.
-/

namespace LimitBook.Json

/-- A field of a record: its names, its codec, and what stands in for it when it is not given. -/
structure FieldFormat (α : Type) where
  /-- The name under which the field is written. -/
  name : String
  /-- Other names under which it is read. -/
  aliases : List String
  codec : Codec α
  /-- What the field is if an object does not give it. -/
  absent : Option α
  /-- What the field is if an array ends before it. -/
  short : Option α
  /-- The field is left out when it has this value. -/
  isLeftOut : α → Bool

namespace FieldFormat

/-- A field that must be given. -/
def required {α : Type} (name : String) (codec : Codec α) : FieldFormat α :=
  ⟨name, [], codec, none, none, fun _ => false⟩

/-- A field that is something else when it is not given. -/
def withDefault {α : Type} (name : String) (codec : Codec α) (default : α) : FieldFormat α :=
  ⟨name, [], codec, some default, some default, fun _ => false⟩

/-- A field that may be absent from an object, though not from an array. -/
def nullable {α : Type} (name : String) (codec : Codec α) : FieldFormat (Option α) :=
  ⟨name, [], codec.option, some none, none, fun _ => false⟩

/-- A field that may be absent. -/
def optional {α : Type} (name : String) (codec : Codec α) : FieldFormat (Option α) :=
  withDefault name codec.option none

/-- The field with further names. -/
def alsoNamed {α : Type} (field : FieldFormat α) (aliases : List String) : FieldFormat α :=
  { field with aliases }

/-- A key names this field. -/
def isNamed {α : Type} (field : FieldFormat α) (key : String) : Bool :=
  key == field.name || field.aliases.contains key

end FieldFormat

/-- The fields of a record in order. -/
inductive Fields : List Type → Type 1 where
  | nil : Fields []
  | cons {α : Type} {αs : List Type} (field : FieldFormat α) (fields : Fields αs) : Fields (α :: αs)

/-- A value for every field. -/
abbrev Row : List Type → Type
  | [] => Unit
  | α :: αs => α × Row αs

/-- For every field the value that was given for it, if one was. -/
abbrev Slots : List Type → Type
  | [] => Unit
  | α :: αs => Option α × Slots αs

/-- No field has been given yet. -/
def Slots.empty : (αs : List Type) → Slots αs
  | [] => ()
  | _ :: αs => (none, Slots.empty αs)

namespace Fields

/-- The members of an object that holds a row. -/
def write {αs : List Type} : Fields αs → Row αs → List (String × Value)
  | nil, _ => []
  | cons field fields, (a, row) =>
    if field.isLeftOut a then fields.write row else (field.name, field.codec.write a) :: fields.write row

/-- A member goes into the slot of the field it names, unless it names none. -/
def assign? {αs : List Type} (source : Source) (key : String) (value : Draft) :
    Fields αs → Slots αs → Option (Except ReadError (Slots αs))
  | nil, _ => none
  | cons field fields, (slot, slots) =>
    -- Names of different fields differ, so the first field that is named is the only one.
    if field.isNamed key then
      match slot with
      | some _ => some (.error (.duplicateField field.name))
      | none => some ((field.codec.read source value).map fun a => (some a, slots))
    else (fields.assign? source key value slots).map (·.map fun slots => (slot, slots))

/-- The members of an object go into their slots; what names no field only has to be well formed. -/
def readMembers {αs : List Type} (source : Source) (fields : Fields αs) :
    List (Draft × Draft) → Slots αs → Except ReadError (Slots αs)
  | [], slots => .ok slots
  | (.str key, value) :: members, slots =>
    match fields.assign? source key value slots with
    | some (.ok slots) => fields.readMembers source members slots
    | some (.error error) => .error error
    | none => if value.isWhole then fields.readMembers source members slots else .error .notJson
  | _ :: _, _ => .error .notJson

/-- The row of all slots, the first missing field being refused. -/
def fill {αs : List Type} : Fields αs → Slots αs → Except ReadError (Row αs)
  | nil, _ => .ok ()
  | cons field fields, (slot, slots) =>
    -- Fields are asked in order, so of several missing ones the first is named.
    match slot.or field.absent with
    | some a => (fields.fill slots).map fun row => (a, row)
    | none => .error (.missingField field.name)

/-- What an array of the wrong length should have been. -/
def shape (name : String) (fields : Nat) : String :=
  "struct " ++ name ++ " with " ++ fields.repr ++ (if fields = 1 then " element" else " elements")

/-- The row of an array's items and the items left over; `position` counts the fields before. -/
def readItems {αs : List Type} (source : Source) (closed : Bool) (shape : String) :
    Fields αs → Nat → List Draft → Except ReadError (Row αs × List Draft)
  | nil, _, items => .ok ((), items)
  | cons field fields, position, item :: items => do
    let a ← field.codec.read source item
    let (row, items) ← fields.readItems source closed shape (position + 1) items
    return ((a, row), items)
  | cons field fields, position, [] =>
    -- Only an array that ends here is short; one that breaks here is no array.
    if closed then
      match field.short with
      | some a => do
        let (row, items) ← fields.readItems source closed shape (position + 1) []
        return ((a, row), items)
      | none => .error (.invalidLength position shape)
    else .error .notJson

/-- The row that an object's members hold. -/
def ofMembers {αs : List Type} (fields : Fields αs) (source : Source) (members : List (Draft × Draft))
    (closed : Bool) : Except ReadError (Row αs) := do
  let slots ← fields.readMembers source members (Slots.empty αs)
  -- A break among the members comes before any field can be called missing.
  if closed then fields.fill slots else throw .notJson

/-- The row that an array's items hold. -/
def ofItems {αs : List Type} (fields : Fields αs) (source : Source) (name : String) (items : List Draft)
    (closed : Bool) : Except ReadError (Row αs) := do
  let (row, others) ← fields.readItems source closed (shape name αs.length) 0 items
  match source, others with
  | .tree, _ :: _ => throw (.invalidLength items.length "fewer elements in array")
  | .text, _ :: _ => throw .notJson
  | _, [] => if closed then return row else throw .notJson

end Fields

/-- A record under the name that messages give it, read and written through the rows of its fields. -/
def Codec.record {α : Type} {αs : List Type} (name : String) (fields : Fields αs) (toRow : α → Row αs)
    (ofRow : Row αs → α) : Codec α where
  write a := .obj (fields.write (toRow a))
  read source draft :=
    match draft with
    | .obj members closed => (fields.ofMembers source members closed).map ofRow
    | .arr items closed => (fields.ofItems source name items closed).map ofRow
    | draft => .error (draft.mismatch ("struct " ++ name))

end LimitBook.Json
