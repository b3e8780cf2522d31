import LimitBook.Text

/-! Why a JSON text does not hold the record that was asked for, and how that is said. -/

namespace LimitBook.Json

/-- What stands where something else was expected. -/
inductive Found where
  | null
  | bool (value : Bool)
  | int (value : Int)
  | fraction
  | str (value : String)
  | sequence
  | map
  deriving DecidableEq, Repr

namespace Found

/-- An integer in decimal, with a minus if it is negative. -/
def intText (n : Int) : String := if n < 0 then "-" ++ n.natAbs.repr else n.natAbs.repr

/-- The found thing as messages name it. -/
def label : Found → String
  | null => "null"
  | bool value => "boolean `" ++ (if value then "true" else "false") ++ "`"
  | int value => "integer `" ++ intText value ++ "`"
  | fraction => "floating point"
  | str value => "string " ++ Text.quoted value
  | sequence => "sequence"
  | map => "map"

end Found

/-- The reasons for which reading a record fails. -/
inductive ReadError where
  /-- The text is not JSON up to the point that was needed; nothing more is said about it. -/
  | notJson
  /-- Something of another kind stands in the place. -/
  | invalidType (found : Found) (expected : String)
  /-- Something of the right kind but out of range stands in the place. -/
  | invalidValue (found : Found) (expected : String)
  /-- An array has too few or too many items. -/
  | invalidLength (length : Nat) (expected : String)
  /-- A field without a default is not given. -/
  | missingField (name : String)
  /-- A field is given twice, possibly under two of its names. -/
  | duplicateField (name : String)
  /-- A name is none of the alternatives. -/
  | unknownVariant (name : String) (alternatives : List String)
  deriving DecidableEq, Repr

namespace ReadError

/-- A name between backticks. -/
def ticked (name : String) : String := "`" ++ name ++ "`"

/-- A choice of names, as messages list it. -/
def choice : List String → String
  | [name] => ticked name
  | [first, second] => ticked first ++ " or " ++ ticked second
  | names => "one of " ++ ", ".intercalate (names.map ticked)

/-- The text of a reason; a text that is not JSON has none. -/
def message? : ReadError → Option String
  | notJson => none
  | invalidType found expected => some ("invalid type: " ++ found.label ++ ", expected " ++ expected)
  | invalidValue found expected => some ("invalid value: " ++ found.label ++ ", expected " ++ expected)
  | invalidLength length expected => some ("invalid length " ++ length.repr ++ ", expected " ++ expected)
  | missingField name => some ("missing field " ++ ticked name)
  | duplicateField name => some ("duplicate field " ++ ticked name)
  | unknownVariant name alternatives =>
    some ("unknown variant " ++ ticked name ++ ", expected " ++ choice alternatives)

end ReadError

end LimitBook.Json
