import LimitBook.Error
import LimitBook.Format.Event

/-!
Announcements: events as feeds write them, loosely. Fields go by several names, most may be absent, and the side
is a word or a truth value. What is not a well-formed event is refused here and goes no further.
-/

namespace LimitBook

/-- A signed integer of 128 bits, wide enough to tell what is wrong with an announced size or price. -/
abbrev WideInt := BitVec 128

/-- An event as it is announced. -/
structure Announcement where
  kind : String
  market : MarketId
  sequence : Sequence
  id : Option OrderId
  owner : Option OwnerId
  timestamp : Option Timestamp
  side : Option String
  isBuy : Option Bool
  size : Option WideInt
  price : Option WideInt
  deriving DecidableEq, Repr

namespace Announcement

open Json

/-- Announced sizes and prices. -/
def wideInt : Codec WideInt :=
  .wideInteger "i128" (-0x80000000000000000000000000000000) 0x7FFFFFFFFFFFFFFFFFFFFFFFFFFFFFFF
    (BitVec.ofInt 128) BitVec.toInt

/-- Older feeds say whether an order buys; the field is not written when it is absent. -/
def isBuyField : FieldFormat (Option Bool) :=
  { FieldFormat.optional "is_buy" Codec.bool with isLeftOut := Option.isNone }

/-- The fields of an announcement. -/
def fields : Fields [String, MarketId, Sequence, Option OrderId, Option OwnerId, Option Timestamp,
    Option String, Option Bool, Option WideInt, Option WideInt] :=
  .cons ((FieldFormat.required "type" .string).alsoNamed ["kind"]) <|
  .cons ((FieldFormat.required "market" MarketId.codec).alsoNamed ["market_id", "book_id", "book"]) <|
  .cons ((FieldFormat.required "sequence" .word).alsoNamed ["tick"]) <|
  .cons ((FieldFormat.optional "id" OrderId.codec).alsoNamed ["order_id", "oid"]) <|
  .cons ((FieldFormat.optional "user_id" OwnerId.codec).alsoNamed ["owner_id", "user"]) <|
  .cons ((FieldFormat.optional "timestamp" .signedWord).alsoNamed ["time"]) <|
  .cons (FieldFormat.optional "side" .string) <|
  .cons isBuyField <|
  .cons ((FieldFormat.optional "size" wideInt).alsoNamed ["quantity"]) <|
  .cons (FieldFormat.optional "price" wideInt) .nil

/-- An announcement by its parts. -/
def codec : Codec Announcement :=
  .record "WireEvent" fields
    (fun a => (a.kind, a.market, a.sequence, a.id, a.owner, a.timestamp, a.side, a.isBuy, a.size, a.price, ()))
    (fun (kind, market, sequence, id, owner, timestamp, side, isBuy, size, price, ()) =>
      ⟨kind, market, sequence, id, owner, timestamp, side, isBuy, size, price⟩)

/-- What must be there is there, or the announcement is malformed. -/
def need {α : Type} (field : String) : Option α → Except BookError α
  | some a => .ok a
  | none => .error (.malformed (.missing field))

/-- The announced side. A word counts more than the truth value, and its letters may be of either case. -/
def readSide (side : Option String) (isBuy : Option Bool) : Except BookError Side :=
  match side, isBuy with
  | some word, _ =>
    if word.toLower = "buy" then .ok .buy
    else if word.toLower = "sell" then .ok .sell
    else .error (.malformed (.unknownSide word))
  | none, some true => .ok .buy
  | none, some false => .ok .sell
  | none, none => .error (.malformed (.missing "side"))

/-- The size of an order is a positive word. -/
def readSize (order : OrderId) (size : WideInt) : Except BookError Quantity :=
  if 0 < size.toInt ∧ size.toInt < 0x10000000000000000 then .ok (UInt64.ofNat size.toInt.toNat)
  else .error (.invalidSize order)

/-- The price of an order is a word. -/
def readPrice (price : WideInt) : Except BookError Price :=
  if 0 ≤ price.toInt ∧ price.toInt < 0x10000000000000000 then .ok ⟨UInt64.ofNat price.toInt.toNat⟩
  else .error (.malformed (.priceOutOfRange price.toInt))

/-- The order that an announcement adds; the first thing wrong with it decides the refusal. -/
def newOrder (a : Announcement) (id : OrderId) : Except BookError NewOrder := do
  -- Fields are demanded in this order, so of two faults the earlier one is named.
  let side ← readSide a.side a.isBuy
  let owner ← need "user_id" a.owner
  let timestamp ← need "timestamp" a.timestamp
  let size ← readSize id (← need "size" a.size)
  let price ← readPrice (← need "price" a.price)
  return ⟨id, owner, timestamp, side, size, price⟩

/-- The event that is announced. -/
def event (a : Announcement) : Except BookError Event := do
  -- Events of every kind are about an order.
  let id ← need "id" a.id
  if a.kind = "add" then return ⟨a.market, a.sequence, .add (← a.newOrder id)⟩
  else if a.kind = "remove" then return ⟨a.market, a.sequence, .remove id⟩
  else throw (.unknownKind a.kind)

/-- Other kinds of announcement are told apart before their fields are looked at. -/
def checkKind (value : Value) : Except BookError Unit :=
  -- Absence is left to the fields, which know all that is missing.
  match (value.get? "type").or (value.get? "kind") with
  | some (.str kind) => if kind = "add" ∨ kind = "remove" then .ok () else .error (.unknownKind kind)
  | some _ => .error (.malformed .kindNotText)
  | none => .ok ()

/-- An object with its members by rising key, of equal keys the last; other values as they are. -/
def sorted : Value → Value
  | .obj members => .obj (Value.sortMembers members)
  | value => value

/-- The event that a value announces. Members are looked at by rising key, of equal keys only the last. -/
def decodeValue (value : Value) : Except BookError Event := do
  -- The kind decides first, so that feeds may carry kinds whose fields mean nothing here.
  let value := sorted value
  checkKind value
  match codec.ofValue value with
  | .ok a => a.event
  | .error reason => throw (.malformed (.unreadable reason))

/-- The event that a line announces. -/
def decodeLine (line : String) : Except BookError Event :=
  match Value.parse? line with
  | some value => decodeValue value
  -- What the reader finds wrong is a matter of the whole line.
  | none => .error (@BookError.notJson line)

end Announcement

end LimitBook
