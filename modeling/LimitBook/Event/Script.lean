import LimitBook.Event

/-! Building a market's stream of events with consecutive numbers and a ticking clock. -/

namespace LimitBook

/-- A stream under construction: the next number to give out and the time of the last added order. -/
structure Script where
  market : MarketId
  next : Sequence
  clock : Timestamp
  deriving DecidableEq, Repr

namespace Script

/-- A script whose first event carries the given number. -/
def startingAt (market : MarketId) (sequence : Sequence) : Script := ⟨market, sequence, 0⟩

/-- The owner of orders that a script makes up itself. -/
def defaultOwner : OwnerId := ⟨1⟩

/-- The next event carries an action and takes up one number. -/
def push (script : Script) (action : Action) : Event × Script :=
  (⟨script.market, script.next, action⟩, { script with next := script.next + 1 })

/-- Adding an order moves the clock on and stamps the order with it. -/
def add (script : Script) (order : NewOrder) : Event × Script :=
  -- The clock starts at zero, so the first added order is stamped with one.
  let clock := script.clock + 1
  { script with clock }.push (.add { order with timestamp := clock })

/-- Adding an order of the default owner. -/
def place (script : Script) (side : Side) (id : OrderId) (size : Quantity) (price : Price) : Event × Script :=
  script.add ⟨id, defaultOwner, 0, side, size, price⟩

/-- Removing an order leaves the clock alone. -/
def remove (script : Script) (id : OrderId) : Event × Script := script.push (.remove id)

end Script

end LimitBook
