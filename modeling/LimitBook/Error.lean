import LimitBook.Json.ReadError
import LimitBook.Order

/-! Why an operation is refused. Every refusal is decided before anything has changed. -/

namespace LimitBook

/-- Why an announcement is not an event. -/
inductive MalformedEvent where
  /-- The kind is given, but not as a text. -/
  | kindNotText
  /-- A field that the kind of event needs is absent. -/
  | missing (field : String)
  /-- The side is neither a buying nor a selling one. -/
  | unknownSide (side : String)
  /-- The price is no number of ticks. -/
  | priceOutOfRange (price : Int)
  /-- The fields do not have the shape of an announcement. -/
  | unreadable (reason : Json.ReadError)
  deriving DecidableEq, Repr

/-- The reason as messages give it. -/
def MalformedEvent.message : MalformedEvent → String
  | kindNotText => "`type` must be a string"
  | missing field => "missing `" ++ field ++ "`"
  | unknownSide side => "unknown side `" ++ side ++ "`"
  | priceOutOfRange price => "price " ++ Json.Found.intText price ++ " out of range"
  | unreadable reason => reason.message?.getD ""

/-- The largest number of ladder rows that a tracker shows. -/
def maxDepthLevels : Nat := 1000

/-- What is wrong with a configuration. -/
inductive ConfigFault where
  /-- The text does not hold a configuration. -/
  | unreadable (reason : Json.ReadError)
  /-- There is nothing to track. -/
  | noMarkets
  /-- A market is listed again. -/
  | repeatedMarket (market : MarketId)
  /-- The number of ladder rows is zero or too large. -/
  | depthOutOfRange (levels : UInt64)
  /-- A lane without room could not take anything in. -/
  | noLaneCapacity
  deriving DecidableEq, Repr

/-- The fault as messages give it; a text that is not JSON has none. -/
def ConfigFault.message? : ConfigFault → Option String
  | unreadable reason => reason.message?
  | noMarkets => some "at least one market must be configured"
  | repeatedMarket market => some (market.label ++ " is configured more than once")
  | depthOutOfRange levels =>
    some ("depth_levels must be between 1 and " ++ maxDepthLevels.repr ++ ", got " ++ decimal levels)
  | noLaneCapacity => some "lane capacities must be positive"

/-- Why a log cannot be read to its end. -/
inductive LogFault where
  /-- A line is not text. -/
  | notText
  /-- What was opened is a directory. -/
  | directory
  deriving DecidableEq, Repr

/-- The fault as messages give it. -/
def LogFault.message : LogFault → String
  | notText => "stream did not contain valid UTF-8"
  | directory => "Is a directory (os error 21)"

/-- Why an operation is refused. -/
inductive BookError where
  /-- An event does not carry the next number. -/
  | sequence (expected actual : Sequence)
  /-- An event is for another market. -/
  | marketMismatch (expected actual : MarketId)
  /-- An announcement is of a kind that books do not follow. -/
  | unknownKind (kind : String)
  /-- An announcement is not an event. -/
  | malformed (reason : MalformedEvent)
  /-- No such order rests in the book. -/
  | orderNotFound (order : OrderId)
  /-- An order asks for nothing. -/
  | invalidSize (order : OrderId)
  /-- An order of that number rests in the book already. -/
  | duplicateOrder (order : OrderId)
  /-- The total at the order's price would exceed a word. -/
  | levelOverflow (order : OrderId) (price : Price)
  /-- No book is registered for the market. -/
  | bookNotFound (market : MarketId)
  /-- A book is registered for the market already. -/
  | duplicateBook (market : MarketId)
  /-- The lane of the market has stopped. -/
  | laneClosed (market : MarketId)
  /--
  A line is not read as JSON. What the reader says of it and where it stopped follow from the line, which stands for
  them here: messages leave them out.
  -/
  | notJson {line : String}
  /-- A configuration is at fault. -/
  | configuration (fault : ConfigFault)
  /-- A log cannot be read to its end. -/
  | unreadableLog (fault : LogFault)
  deriving DecidableEq, Repr

namespace BookError

/-- The number under which a refusal is filed: streams 1xx, orders 2xx, registry and lanes 3xx, the rest 9xx. -/
def code : BookError → Nat
  | sequence .. => 100
  | marketMismatch .. => 101
  | unknownKind .. => 102
  | malformed .. => 103
  | orderNotFound .. => 200
  | invalidSize .. => 201
  | duplicateOrder .. => 202
  | levelOverflow .. => 203
  | bookNotFound .. => 300
  | duplicateBook .. => 301
  | laneClosed .. => 302
  | notJson => 901
  | configuration .. => 902
  | unreadableLog .. => 903

/-- The code as it starts a message. -/
def codeText (error : BookError) : String := "BT_ERR_" ++ error.code.repr

/-- What a refusal says after its code. -/
def detail : BookError → String
  | sequence expected actual =>
    "Sequence error: expected " ++ decimal expected ++ ", got " ++ decimal actual
  | marketMismatch expected actual =>
    "Market mismatch: book tracks " ++ expected.label ++ ", event is for " ++ actual.label
  | unknownKind kind => "Unknown event kind: " ++ kind
  | malformed reason => "Malformed event: " ++ reason.message
  | orderNotFound order => "Order not found: " ++ order.label
  | invalidSize order => "Invalid size for " ++ order.label ++ ": size must be positive"
  | duplicateOrder order => "Order already exists: " ++ order.label
  | levelOverflow order price =>
    "Level overflow: adding " ++ order.label ++ " at " ++ price.label ++ " exceeds the level size limit"
  | bookNotFound market => "Book not found for " ++ market.label
  | duplicateBook market => "Book already registered for " ++ market.label
  | laneClosed market => "Lane closed for " ++ market.label
  -- Where the reader stopped is left out.
  | notJson => "Serialization error"
  | configuration fault =>
    match fault.message? with
    | some text => "Configuration error: " ++ text
    | none => "Configuration error"
  | unreadableLog fault => "I/O error: " ++ fault.message

/-- The text of a refusal. -/
def message (error : BookError) : String := error.codeText ++ ": " ++ error.detail

/-- Only an event out of sequence calls for a new snapshot of the stream. -/
def requiresResync : BookError → Bool
  | sequence .. => true
  | _ => false

end BookError

end LimitBook
