import Std.Data.ExtTreeMap
import LimitBook.BookSide
import LimitBook.Depth
import LimitBook.Error
import LimitBook.Report

/-! The resting orders of one market: two sides, and an index from an order to its place. -/

namespace LimitBook

/-- Both sides of a market, and for every resting order its side and price. -/
structure OrderBook where
  market : MarketId
  bids : BookSide
  asks : BookSide
  index : Std.ExtTreeMap OrderId (Side × Price)

namespace OrderBook

/-- A book in which nothing rests. -/
def empty (market : MarketId) : OrderBook := ⟨market, [], [], ∅⟩

/-- The levels of a side. -/
def levels (book : OrderBook) : Side → BookSide
  | .buy => book.bids
  | .sell => book.asks

/-- The book with other levels on one side. -/
def setLevels (book : OrderBook) (side : Side) (levels : BookSide) : OrderBook :=
  match side with
  | .buy => { book with bids := levels }
  | .sell => { book with asks := levels }

/-- The resting orders of a side in the order in which they are served. -/
def orders (book : OrderBook) (side : Side) : List Order := (book.levels side).orders

/-- An order comes to rest, unless its number is taken or its level would overflow. -/
def insert (book : OrderBook) (order : Order) : Except BookError OrderBook :=
  -- Both tests come first, so that a refused order leaves the book as it was.
  let levels := book.levels order.side
  if book.index.contains order.id then .error (.duplicateOrder order.id)
  else if levels.canAccept order.price order.remaining then
    let index := book.index.insert order.id (order.side, order.price)
    .ok { book.setLevels order.side (levels.push order.side order) with index }
  else .error (.levelOverflow order.id order.price)

/-- An order is taken out, wherever it stands. -/
def cancel (book : OrderBook) (id : OrderId) : Except BookError (Order × OrderBook) :=
  -- The index says where to look, and the level gives the order up.
  match book.index[id]? with
  | none => .error (.orderNotFound id)
  | some (side, price) =>
    match (book.levels side).remove? price id with
    | none => .error (.orderNotFound id)
    | some (order, levels) =>
      .ok (order, { book.setLevels side levels with index := book.index.erase id })

/-- The order of a side that is served next. -/
def bestOrder? (book : OrderBook) (side : Side) : Option Order := (book.levels side).front?

/-- The next order of a side trades, and is forgotten if nothing is left of it. -/
def fillBest? (book : OrderBook) (side : Side) (quantity : Quantity) : Option (Quantity × OrderBook) :=
  -- The order's number is noted before its level changes, since the order may be gone afterwards.
  match book.bestOrder? side, (book.levels side).fillBest? quantity with
  | some front, some (left, levels) =>
    let index := if left = 0 then book.index.erase front.id else book.index
    some (left, { book.setLevels side levels with index })
  | _, _ => none

/-- The highest price somebody bids. -/
def bestBid? (book : OrderBook) : Option Price := book.bids.bestPrice?

/-- The lowest price somebody asks. -/
def bestAsk? (book : OrderBook) : Option Price := book.asks.bestPrice?

/-- The distance between the best prices; a crossed or one-sided book has none. -/
def spread? (book : OrderBook) : Option UInt64 :=
  match book.bestBid?, book.bestAsk? with
  -- The difference of a crossed book would be negative, so it is not given.
  | some bid, some ask => if bid ≤ ask then some (ask.ticks - bid.ticks) else none
  | _, _ => none

/-- The best prices and the sizes at them. -/
def top (book : OrderBook) : Top :=
  { bestBid := book.bestBid?
    bidSize := book.bids.bestSize
    bestAsk := book.bestAsk?
    askSize := book.asks.bestSize }

/-- A level in one line. -/
def aggregate (level : Level) : DepthLevel := ⟨level.price, level.total, level.size⟩

/-- So many best levels of each side. -/
def depth (book : OrderBook) (levels : Nat) : Depth :=
  { bids := (book.bids.take levels).map aggregate
    asks := (book.asks.take levels).map aggregate }

/-- How many orders rest. -/
def orderCount (book : OrderBook) : Nat := book.index.size

/-- Nothing rests. -/
def isEmpty (book : OrderBook) : Bool := book.index.isEmpty

/-- An order of this number rests. -/
def contains (book : OrderBook) (id : OrderId) : Bool := book.index.contains id

/-- The resting order of a given number. -/
def find? (book : OrderBook) (id : OrderId) : Option Order := do
  let (side, price) ← book.index[id]?
  let level ← (book.levels side).level? price
  level.find? id

/-- The exact size resting on both sides. -/
def restingQuantity (book : OrderBook) : Nat :=
  (book.bids ++ book.asks).foldr (fun level n => level.total.toNat + n) 0

/-- Changing one side changes just that side. -/
@[simp] theorem levels_setLevels (book : OrderBook) (side : Side) (levels : BookSide) :
    (book.setLevels side levels).levels side = levels := by
  cases side <;> rfl

/-- Changing one side leaves the other alone. -/
@[simp] theorem levels_opposite_setLevels (book : OrderBook) (side : Side) (levels : BookSide) :
    (book.setLevels side levels).levels side.opposite = book.levels side.opposite := by
  cases side <;> rfl

/-- Changing one side leaves the other alone, seen from the other. -/
@[simp] theorem levels_setLevels_opposite (book : OrderBook) (side : Side) (levels : BookSide) :
    (book.setLevels side.opposite levels).levels side = book.levels side := by
  cases side <;> rfl

end OrderBook

end LimitBook
