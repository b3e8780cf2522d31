import LimitBook.Identity

/-!
Prices in whole ticks, so that comparing and grouping them never rounds; the two sides of a book and what a better
price means on each; orders as they rest in a book.
-/

namespace LimitBook

/-- A price is a number of ticks. -/
structure Price where
  ticks : UInt64
  deriving DecidableEq, Repr

namespace Price

/-- Prices compare by their ticks. -/
instance : LE Price := ⟨fun p q => p.ticks ≤ q.ticks⟩

/-- Prices compare strictly by their ticks. -/
instance : LT Price := ⟨fun p q => p.ticks < q.ticks⟩

/-- Whether one price is at most another is settled by comparing words. -/
instance (p q : Price) : Decidable (p ≤ q) := inferInstanceAs (Decidable (p.ticks ≤ q.ticks))

/-- Whether one price is below another is settled by comparing words. -/
instance (p q : Price) : Decidable (p < q) := inferInstanceAs (Decidable (p.ticks < q.ticks))

/-- The price some ticks higher, if it is still a price. -/
def up? (price : Price) (n : Nat) : Option Price :=
  -- The sum is exact, so that a step past the highest price is seen.
  let ticks := price.ticks.toNat + n
  if ticks < UInt64.size then some ⟨UInt64.ofNat ticks⟩ else none

/-- The price some ticks lower, if it is still a price. -/
def down? (price : Price) (n : Nat) : Option Price :=
  -- Steps beyond zero ticks are refused before anything is taken off.
  let ticks := price.ticks.toNat
  if n ≤ ticks then some ⟨UInt64.ofNat (ticks - n)⟩ else none

/-- The price as it is written in messages. -/
def label (price : Price) : String := decimal price.ticks

end Price

/-- An order buys or sells. -/
inductive Side where
  | buy
  | sell
  deriving DecidableEq, Repr

namespace Side

/-- The side an order trades against. -/
def opposite : Side → Side
  | buy => sell
  | sell => buy

/-- The side as it is named in messages. -/
def label : Side → String
  | buy => "BUY"
  | sell => "SELL"

/-- On the buying side the higher price is served first, on the selling side the lower. -/
def Better : Side → Price → Price → Prop
  | buy, p, q => q < p
  | sell, p, q => p < q

/-- An order with this limit may trade at this price: buyers pay at most, sellers take at least, their limit. -/
def Crosses : Side → Price → Price → Prop
  | buy, limit, price => price ≤ limit
  | sell, limit, price => limit ≤ price

/-- Whether one price is better is settled by comparing ticks. -/
instance (side : Side) (p q : Price) : Decidable (side.Better p q) :=
  match side with
  | buy => inferInstanceAs (Decidable (q < p))
  | sell => inferInstanceAs (Decidable (p < q))

/-- Whether a limit crosses a price is settled by comparing ticks. -/
instance (side : Side) (limit price : Price) : Decidable (side.Crosses limit price) :=
  match side with
  | buy => inferInstanceAs (Decidable (price ≤ limit))
  | sell => inferInstanceAs (Decidable (limit ≤ price))

/-- Facing the other side twice is facing one's own. -/
@[simp] theorem opposite_opposite (side : Side) : side.opposite.opposite = side := by
  cases side <;> rfl

end Side

/-- A size in units, or a total of sizes. -/
abbrev Quantity := UInt64

/-- A position in a market's stream of events. -/
abbrev Sequence := UInt64

/-- A time as the venue stamps it. -/
abbrev Timestamp := Int64

/-- A resting order: its limit, how much was asked for, how much is left, and when it arrived. -/
structure Order where
  id : OrderId
  market : MarketId
  owner : OwnerId
  side : Side
  price : Price
  quantity : Quantity
  remaining : Quantity
  timestamp : Timestamp
  arrival : Sequence
  deriving DecidableEq, Repr

namespace Order

/-- Nothing is left to trade. -/
def isFilled (order : Order) : Bool := order.remaining == 0

/-- How much has traded so far. -/
def filledQuantity (order : Order) : Quantity := order.quantity - order.remaining

/-- The order's limit lets it trade at this price. -/
def Crosses (order : Order) (price : Price) : Prop := order.side.Crosses order.price price

/-- Whether the limit crosses a price is settled by comparing ticks. -/
instance (order : Order) (price : Price) : Decidable (order.Crosses price) :=
  inferInstanceAs (Decidable (order.side.Crosses order.price price))

end Order

end LimitBook
