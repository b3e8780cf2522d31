import LimitBook.Order

/-! Events of a market's stream: an order is added, or an order is removed. -/

namespace LimitBook

/-- What an event that adds an order says about it. -/
structure NewOrder where
  id : OrderId
  owner : OwnerId
  timestamp : Timestamp
  side : Side
  size : Quantity
  price : Price
  deriving DecidableEq, Repr

/-- An event adds an order or removes one. -/
inductive Action where
  | add (order : NewOrder)
  | remove (order : OrderId)
  deriving DecidableEq, Repr

/-- The kinds of action. -/
inductive Kind where
  | add
  | remove
  deriving DecidableEq, Repr

/-- The kind as feeds name it. -/
def Kind.name : Kind → String
  | add => "add"
  | remove => "remove"

/-- One numbered event of one market. -/
structure Event where
  market : MarketId
  sequence : Sequence
  action : Action
  deriving DecidableEq, Repr

namespace Action

/-- The kind of an action. -/
def kind : Action → Kind
  | add _ => .add
  | remove _ => .remove

/-- The order an action is about. -/
def order : Action → OrderId
  | add new => new.id
  | remove id => id

/-- What an action says about its order besides the number, as it is written in messages. -/
def terms : Action → String
  -- A removal says nothing but the number.
  | add new => " " ++ new.side.label ++ " " ++ decimal new.size ++ " @ " ++ new.price.label
  | remove _ => ""

/-- The action as it is written in messages. -/
def label (action : Action) : String := action.kind.name ++ " " ++ action.order.label ++ action.terms

end Action

namespace Event

/-- The event as it is written in messages. -/
def label (event : Event) : String :=
  "#" ++ decimal event.sequence ++ " " ++ event.market.label ++ " " ++ event.action.label

end Event

end LimitBook
