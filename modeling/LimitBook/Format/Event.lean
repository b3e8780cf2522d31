import LimitBook.Event
import LimitBook.Format.Report

/-!
Events as JSON: one flat object that says where in which stream the event stands, its kind, and the fields
of its kind.
-/

namespace LimitBook

open Json

/-- The fields of an added order. -/
def NewOrder.fields : Fields [OrderId, OwnerId, Timestamp, Side, Quantity, Price] :=
  .cons (.required "order_id" OrderId.codec) <| .cons (.required "owner" OwnerId.codec) <|
  .cons (.required "timestamp" .signedWord) <| .cons (.required "side" Side.codec) <|
  .cons (.required "size" .word) <| .cons (.required "price" Price.codec) .nil

/-- An added order by its parts. -/
def NewOrder.codec : Codec NewOrder :=
  .record "AddOrder" fields
    (fun new => (new.id, new.owner, new.timestamp, new.side, new.size, new.price, ()))
    (fun (id, owner, timestamp, side, size, price, ()) => ⟨id, owner, timestamp, side, size, price⟩)

/-- The number of a removed order, as the only field of its action. -/
def OrderId.removedCodec : Codec OrderId :=
  .record "Remove" (.cons (.required "order_id" OrderId.codec) .nil)
    (fun id => (id, ())) (fun (id, ()) => id)

namespace Event

/-- The kinds of action by name, in the order in which they are numbered. -/
def kinds : List (String × Kind) := [("add", .add), ("remove", .remove)]

/-- A kind may be given by name or by number. -/
def readKind (kind : Value) : Except ReadError Kind :=
  match kind with
  | .str name => Codec.alternative kinds name
  | .int n =>
    if n < 0 then .error (.invalidType (.int n) "variant identifier")
    else
      match kinds[n.toNat]? with
      | some (_, kind) => .ok kind
      | none => .error (.invalidValue (.int n) "variant index 0 <= i < 2")
  | kind => .error ((Draft.ofValue kind).mismatch "variant identifier")

/-- The kind among some members, and the other members; the kind is checked where it stands. -/
def splitKind (kind : Option Kind) :
    List (String × Value) → Except ReadError (Option Kind × List (String × Value))
  | [] => .ok (kind, [])
  | (key, value) :: members =>
    -- The other members keep their order, in which they will be read.
    if key = "kind" then
      match kind with
      | some _ => .error (.duplicateField "kind")
      | none => do splitKind (some (← readKind value)) members
    else do
      let (kind, others) ← splitKind kind members
      return (kind, (key, value) :: others)

/-- The action that some members describe; a member of another kind's does no harm. -/
def readAction (members : List (String × Value)) : Except ReadError Action := do
  match ← splitKind none members with
  | (none, _) => throw (.missingField "kind")
  | (some .add, others) => return .add (← NewOrder.codec.ofValue (.obj others))
  | (some .remove, others) => return .remove (← OrderId.removedCodec.ofValue (.obj others))

/-- The members of an event as far as they have been read. -/
structure Seen where
  market : Option MarketId
  sequence : Option Sequence
  others : List (String × Value)

/-- One more member of an event; what is not about its place in a stream is put by as a value. -/
def readMember (source : Source) (seen : Seen) (key : String) (value : Draft) : Except ReadError Seen :=
  if key = "market" then
    match seen.market with
    | some _ => .error (.duplicateField key)
    | none => (MarketId.codec.read source value).map fun market => { seen with market := some market }
  else if key = "sequence" then
    match seen.sequence with
    | some _ => .error (.duplicateField key)
    | none => (Codec.word.read source value).map fun sequence => { seen with sequence := some sequence }
  else
    -- The event itself is one level of nesting.
    match value.toValue? (depthLimit - 1) with
    | some value => .ok { seen with others := seen.others ++ [(key, value)] }
    | none => .error .notJson

/-- All members of an event. -/
def readMembers (source : Source) (seen : Seen) : List (Draft × Draft) → Except ReadError Seen
  | [] => .ok seen
  | (.str key, value) :: members => do readMembers source (← readMember source seen key value) members
  | _ :: _ => .error .notJson

/-- The members of an event. -/
def members (event : Event) : List (String × Value) :=
  let action :=
    match event.action with
    | .add new => NewOrder.fields.write (new.id, new.owner, new.timestamp, new.side, new.size, new.price, ())
    | .remove id => [("order_id", OrderId.codec.write id)]
  [("market", MarketId.codec.write event.market), ("sequence", Codec.word.write event.sequence),
    ("kind", .str event.action.kind.name)] ++ action

/-- An event as one flat object: its place in the stream, its kind, and the fields of its kind. -/
def codec : Codec Event where
  write event := .obj event.members
  read source draft :=
    match draft with
    | .obj members closed => do
      let seen ← readMembers source ⟨none, none, []⟩ members
      -- A break comes before anything missing, and the place in the stream before the action.
      if !closed then throw .notJson
      let some market := seen.market | throw (.missingField "market")
      let some sequence := seen.sequence | throw (.missingField "sequence")
      return ⟨market, sequence, ← readAction seen.others⟩
    | draft => .error (draft.mismatch "struct BookEvent")

end Event

end LimitBook
