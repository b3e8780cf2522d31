import LimitBook.Json.Token

/-! JSON values and their compact text. -/

namespace LimitBook.Json

/-- A JSON value. Objects keep their members in the order of the text, equal keys included. -/
inductive Value where
  | null
  | bool (value : Bool)
  | int (value : Int)
  /-- A number with a fraction or beyond 64 bits: a significand times a power of ten. -/
  | decimal (significand exponent : Int)
  | str (value : String)
  | arr (items : List Value)
  | obj (members : List (String × Value))
  deriving Repr, Inhabited

namespace Value

mutual

/-- The tokens of a value. -/
def tokens : Value → List Token
  | null => [.null]
  | bool value => [.bool value]
  | int value => [.int (value < 0) value.natAbs]
  | decimal significand exponent => [.decimal significand exponent]
  | str value => [.str value]
  | arr items => .openArray :: itemsTokens items ++ [.closeArray]
  | obj members => .openObject :: membersTokens members ++ [.closeObject]

/-- The tokens of items with commas between them. -/
def itemsTokens : List Value → List Token
  | [] => []
  | [item] => item.tokens
  | item :: items => item.tokens ++ .comma :: itemsTokens items

/-- The tokens of members with commas between them. -/
def membersTokens : List (String × Value) → List Token
  | [] => []
  | [(key, value)] => .str key :: .colon :: value.tokens
  | (key, value) :: members => .str key :: .colon :: value.tokens ++ .comma :: membersTokens members

end

/-- The compact text of a value: its tokens with nothing between them. -/
def chars (value : Value) : List Char := value.tokens.flatMap Token.chars

/-- The compact text of a value. -/
def text (value : Value) : String := String.ofList value.chars

/-- A member put in its place by key; of equal keys the later one stays. -/
def insertMember (key : String) (value : Value) : List (String × Value) → List (String × Value)
  | [] => [(key, value)]
  | (key', value') :: members =>
    -- The list so far is sorted, so the key's place is before the first greater one.
    if key = key' then (key, value) :: members
    else if key < key' then (key, value) :: (key', value') :: members
    else (key', value') :: insertMember key value members

/-- Members by rising key, of equal keys the last. -/
def sortMembers (members : List (String × Value)) : List (String × Value) :=
  members.foldl (fun sorted (key, value) => insertMember key value sorted) []

/-- The value of a key, if the value is an object that has the key; of equal keys the first. -/
def get? (value : Value) (key : String) : Option Value :=
  match value with
  | obj members => members.lookup key
  | _ => none

end Value

end LimitBook.Json
