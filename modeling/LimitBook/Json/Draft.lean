import LimitBook.Json.Lexer
import LimitBook.Json.ReadError
import LimitBook.Json.Value

/-!
JSON texts as they are found: a value as far as the text goes. A record is read off a draft in the order of the
text, so what is wrong with a value is noticed before a break that comes after it.
-/

namespace LimitBook.Json

/-- What stands at a place of a text. -/
inductive Draft where
  /-- No value starts here. -/
  | broken
  /-- A well-formed string or number that stands for no value. -/
  | unreadable
  | null
  | bool (value : Bool)
  | int (negative : Bool) (magnitude : Nat)
  | decimal (significand exponent : Int)
  | str (value : String)
  /-- The items up to the closing bracket, or up to the break of an array that is not closed. -/
  | arr (items : List Draft) (closed : Bool)
  /-- The members up to the closing brace, or up to the break of an object that is not closed. -/
  | obj (members : List (Draft × Draft)) (closed : Bool)
  deriving Repr, Inhabited

/-- A container that is being read, newest parts first. -/
inductive Frame where
  | arr (items : List Draft)
  | obj (members : List (Draft × Draft))
  /-- The value of a key is under way. -/
  | member (members : List (Draft × Draft)) (key : Draft)
  deriving Repr

/-- What may come next. -/
inductive Phase where
  | value
  /-- The first part of a container, or its end. -/
  | first
  | key
  | colon
  /-- A comma, or the end of the container. -/
  | next
  deriving DecidableEq, Repr

/-- How far a text has been read: inside some containers, innermost first, or through with its value. -/
inductive Progress where
  | reading (stack : List Frame) (phase : Phase)
  /-- The value, and whether the text holds it whole and nothing else. -/
  | done (root : Draft) (clean : Bool)
  deriving Repr

namespace Progress

/-- The text breaks here: what stands at this place is the last thing in every open container. -/
def abandon (last : Draft) : List Frame → Draft
  | [] => last
  -- Every container that is still open ends here unclosed, the inner one as the last part of the outer one.
  | .arr items :: stack => abandon (.arr (last :: items).reverse false) stack
  | .obj members :: stack => abandon (.obj ((last, .broken) :: members).reverse false) stack
  | .member members key :: stack => abandon (.obj ((key, last) :: members).reverse false) stack

/-- The text breaks here, with something in the place. -/
def failWith (last : Draft) (stack : List Frame) : Progress := .done (abandon last stack) false

/-- The text breaks here, with nothing in the place. -/
def fail (stack : List Frame) : Progress := failWith .broken stack

/-- A value is complete and takes its place in the container around it. -/
def place (value : Draft) : List Frame → Progress
  | [] => .done value true
  | .arr items :: stack => .reading (.arr (value :: items) :: stack) .next
  | .member members key :: stack => .reading (.obj ((key, value) :: members) :: stack) .next
  -- An object waits for a key, and a value without one has no place there.
  | stack => fail stack

/-- The value that a single token stands for. -/
def scalar? : Token → Option Draft
  | .null => some .null
  | .bool value => some (.bool value)
  | .int negative magnitude => some (.int negative magnitude)
  | .decimal significand exponent => some (.decimal significand exponent)
  | .tooLarge => some .unreadable
  | .str (some content) => some (.str content)
  | .str none => some .unreadable
  -- Brackets, braces and marks stand for no value alone.
  | _ => none

/-- A value starts. -/
def startValue (stack : List Frame) : Token → Progress
  -- A container opens; any other value is complete with its token.
  | .openArray => .reading (.arr [] :: stack) .first
  | .openObject => .reading (.obj [] :: stack) .first
  | token =>
    match scalar? token with
    | some value => place value stack
    | none => fail stack

/-- A key starts; a value of another kind in its place is a break that is kept. -/
def startKey (members : List (Draft × Draft)) (stack : List Frame) : Token → Progress
  | .str (some key) => .reading (.member members (.str key) :: stack) .colon
  | .str none => .reading (.member members .unreadable :: stack) .colon
  | .openArray => failWith (.arr [] false) (.obj members :: stack)
  | .openObject => failWith (.obj [] false) (.obj members :: stack)
  | token => failWith ((scalar? token).getD .broken) (.obj members :: stack)

/-- One more token is read. -/
def step : Progress → Token → Progress
  -- Nothing may follow the value of the text.
  | .done root _, _ => .done root false
  -- A container may end right away or behind a part, but not behind a comma.
  | .reading (.arr items :: stack) .first, .closeArray => place (.arr items.reverse true) stack
  | .reading (.arr items :: stack) .next, .closeArray => place (.arr items.reverse true) stack
  | .reading (.obj members :: stack) .first, .closeObject => place (.obj members.reverse true) stack
  | .reading (.obj members :: stack) .next, .closeObject => place (.obj members.reverse true) stack
  | .reading (.arr items :: stack) .next, .comma => .reading (.arr items :: stack) .value
  | .reading (.obj members :: stack) .next, .comma => .reading (.obj members :: stack) .key
  -- Otherwise a key or a value is due, or a mark between parts is missing.
  | .reading (.obj members :: stack) .first, token => startKey members stack token
  | .reading (.obj members :: stack) .key, token => startKey members stack token
  | .reading (.member members key :: stack) .colon, .colon => .reading (.member members key :: stack) .value
  | .reading stack .first, token => startValue stack token
  | .reading stack .value, token => startValue stack token
  | .reading stack _, _ => fail stack

/-- The text is at its end; a value under way breaks off. -/
def finish : Progress → Draft × Bool
  | .done root clean => (root, clean)
  | .reading stack _ => (abandon .broken stack, false)

end Progress

namespace Draft

/-- The value of a text, and whether the text holds it whole and nothing else. -/
def ofTokens (tokens : List Token) : Draft × Bool :=
  (tokens.foldl Progress.step (.reading [] .value)).finish

/-- The value of a text, and whether the text holds it whole and nothing else. -/
def ofText (text : String) : Draft × Bool := ofTokens (Json.tokens text.toList)

/-- The value ends before any break of the text; what it stands for does not matter. -/
def isWhole : Draft → Bool
  | broken => false
  | arr _ closed => closed
  | obj _ closed => closed
  | _ => true

/-- What messages say stands in this place, if it can be told. -/
def found? : Draft → Option Found
  | broken => none
  | unreadable => none
  | null => some .null
  | bool value => some (.bool value)
  | int negative magnitude =>
    match integer64? negative magnitude with
    | some n => some (.int n)
    -- An integer that is too long is told like a fraction.
    | none => some .fraction
  | decimal .. => some .fraction
  | str value => some (.str value)
  | arr .. => some .sequence
  | obj .. => some .map

/-- Something else was expected in this place. -/
def mismatch (value : Draft) (expected : String) : ReadError :=
  match value.found? with
  | some found => .invalidType found expected
  | none => .notJson

mutual

/--
The value of a draft without breaks that nests less deep than the given limit. Integers beyond 64 bits are
kept as decimals.
-/
def toValue? (limit : Nat) : Draft → Option Value
  | broken => none
  | unreadable => none
  | null => some .null
  | bool value => some (.bool value)
  | int negative magnitude =>
    match integer64? negative magnitude with
    | some n => some (.int n)
    | none => some (.decimal (signed negative magnitude) 0)
  | decimal significand exponent => some (.decimal significand exponent)
  | str value => some (.str value)
  -- Containers cost one level each, and the innermost must not use up the last.
  | arr items closed => if closed && 1 < limit then (itemsToValues? (limit - 1) items).map .arr else none
  | obj members closed => if closed && 1 < limit then (membersToValues? (limit - 1) members).map .obj else none

/-- The values of all items. -/
def itemsToValues? (limit : Nat) : List Draft → Option (List Value)
  | [] => some []
  | item :: items => do
    let item ← item.toValue? limit
    let items ← itemsToValues? limit items
    return item :: items

/-- The values of all members. -/
def membersToValues? (limit : Nat) : List (Draft × Draft) → Option (List (String × Value))
  | [] => some []
  | (.str key, value) :: members => do
    let value ← value.toValue? limit
    let members ← membersToValues? limit members
    return (key, value) :: members
  | _ :: _ => none

end

mutual

/-- A value as it would be found in a text. -/
def ofValue : Value → Draft
  | .null => null
  | .bool value => bool value
  | .int value => int (value < 0) value.natAbs
  | .decimal significand exponent => decimal significand exponent
  | .str value => str value
  | .arr items => arr (ofItems items) true
  | .obj members => obj (ofMembers members) true

/-- Items as they would be found in a text. -/
def ofItems : List Value → List Draft
  | [] => []
  | item :: items => ofValue item :: ofItems items

/-- Members as they would be found in a text. -/
def ofMembers : List (String × Value) → List (Draft × Draft)
  | [] => []
  | (key, value) :: members => (str key, ofValue value) :: ofMembers members

end

end Draft

/-- Values nest less deep than this. -/
def depthLimit : Nat := 128

/-- The value of a text that holds one and nothing else. -/
def Value.parse? (text : String) : Option Value :=
  match Draft.ofText text with
  | (root, true) => root.toValue? depthLimit
  | _ => none

end LimitBook.Json
