import LimitBook.Order

/-! Fills, the best prices that a book shows, what it reports of an event, and the running totals that it keeps. -/

namespace LimitBook

/-- One trade, at the resting order's price, and whether it used up either order. -/
structure Fill where
  maker : OrderId
  makerOwner : OwnerId
  taker : OrderId
  takerOwner : OwnerId
  takerSide : Side
  price : Price
  quantity : Quantity
  makerFilled : Bool
  takerFilled : Bool
  deriving DecidableEq, Repr

namespace Fill

/-- The traded amount times its price. -/
def notional (fill : Fill) : Nat := fill.price.ticks.toNat * fill.quantity.toNat

/-- The buying and the selling order, in this order. -/
def buyAndSell (fill : Fill) : OrderId × OrderId :=
  -- The maker stands on the other side.
  match fill.takerSide with
  | .buy => (fill.taker, fill.maker)
  | .sell => (fill.maker, fill.taker)

/-- The fill as it is written in messages. -/
def label (fill : Fill) : String :=
  "Fill[" ++ fill.taker.label ++ " x " ++ fill.maker.label ++ "] " ++ fill.takerSide.label ++ " "
    ++ decimal fill.quantity ++ " @ " ++ fill.price.label

end Fill

/-- How much a list of fills traded in all. -/
def executedQuantity (fills : List Fill) : Nat := fills.foldr (fun fill n => fill.quantity.toNat + n) 0

/-- The best price of each side with the size resting there. -/
structure Top where
  bestBid : Option Price
  bidSize : Quantity
  bestAsk : Option Price
  askSize : Quantity
  deriving DecidableEq, Repr

namespace Top

/-- The top of a book in which nothing rests. -/
def empty : Top := ⟨none, 0, none, 0⟩

/-- Somebody bids at least what somebody asks. -/
def isCrossed (top : Top) : Bool :=
  -- Equal prices would trade, so they count as crossed.
  match top.bestBid, top.bestAsk with
  | some bid, some ask => decide (ask ≤ bid)
  | _, _ => false

end Top

/-- The effect of one accepted event: the fills, what rests of an added order, the order taken out. -/
structure Report where
  sequence : Sequence
  fills : List Fill
  resting : Option Order
  removed : Option Order
  top : Top
  deriving DecidableEq, Repr

/-- How much an event traded. -/
def Report.executedQuantity (report : Report) : Nat := LimitBook.executedQuantity report.fills

/--
Totals over the life of a book, as exact numbers. Words that hold them turn over: two words for sizes and for the
volume, one for counts. What such words hold follows from the exact numbers, however often they have turned over.
-/
structure Stats where
  addedQuantity : Nat
  removedQuantity : Nat
  executedQuantity : Nat
  fillCount : Nat
  volume : Nat
  lastTradePrice : Option Price
  eventsApplied : Nat
  deriving DecidableEq, Repr

namespace Stats

/-- The totals of a book that has seen no event. -/
def empty : Stats := ⟨0, 0, 0, 0, 0, none, 0⟩

/-- An order of this size was accepted. -/
def recordAdded (stats : Stats) (size : Quantity) : Stats :=
  { stats with addedQuantity := stats.addedQuantity + size.toNat }

/-- An order was taken out with this much left. -/
def recordRemoved (stats : Stats) (remaining : Quantity) : Stats :=
  { stats with removedQuantity := stats.removedQuantity + remaining.toNat }

/-- A trade took place. -/
def recordFill (stats : Stats) (fill : Fill) : Stats :=
  -- Both parties traded this size, and it is counted once.
  { stats with
    executedQuantity := stats.executedQuantity + fill.quantity.toNat
    fillCount := stats.fillCount + 1
    volume := stats.volume + fill.notional
    lastTradePrice := some fill.price }

/-- Several trades took place, in this order. -/
def recordFills (stats : Stats) (fills : List Fill) : Stats := fills.foldl recordFill stats

/-- One more event was accepted. -/
def recordEvent (stats : Stats) : Stats := { stats with eventsApplied := stats.eventsApplied + 1 }

end Stats

end LimitBook
