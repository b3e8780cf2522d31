import LimitBook.Depth
import LimitBook.Proofs.Book.Run
import LimitBook.Proofs.Redrawing.OrderBook

/-!
Orders without their identity: the numbers of orders are replaced by others, and nothing is said about who owns an order
and when it was stamped. A book of masked orders shows the same market as the book itself.
-/

namespace LimitBook

/-- The order under another number, without its owner and its time. -/
def Order.masked (rename : OrderId → OrderId) (order : Order) : Order :=
  { order with id := rename order.id, owner := ⟨0⟩, timestamp := 0 }

/-- The new order under another number, without its owner and its time. -/
def NewOrder.masked (rename : OrderId → OrderId) (new : NewOrder) : NewOrder :=
  { new with id := rename new.id, owner := ⟨0⟩, timestamp := 0 }

/-- The action with its order masked. -/
def Action.masked (rename : OrderId → OrderId) : Action → Action
  | add new => add (new.masked rename)
  | remove id => remove (rename id)

/-- The event with its action masked. -/
def Event.masked (rename : OrderId → OrderId) (event : Event) : Event :=
  { event with action := event.action.masked rename }

/-- The call with its event masked, if it has one. -/
def Book.Call.masked (rename : OrderId → OrderId) : Book.Call → Book.Call
  | apply event => apply (event.masked rename)
  | resync next => resync next

/-- The fill with its orders under other numbers, without their owners. -/
def Fill.masked (rename : OrderId → OrderId) (fill : Fill) : Fill :=
  { fill with maker := rename fill.maker, makerOwner := ⟨0⟩, taker := rename fill.taker, takerOwner := ⟨0⟩ }

/-- The report with all its orders masked. -/
def Report.masked (rename : OrderId → OrderId) (report : Report) : Report :=
  { report with
    fills := report.fills.map (Fill.masked rename)
    resting := report.resting.map (Order.masked rename)
    removed := report.removed.map (Order.masked rename) }

/-- The refusal with the order that it names under another number. -/
def BookError.renamed (rename : OrderId → OrderId) : BookError → BookError
  | orderNotFound id => orderNotFound (rename id)
  | invalidSize id => invalidSize (rename id)
  | duplicateOrder id => duplicateOrder (rename id)
  | levelOverflow id price => levelOverflow (rename id) price
  | error => error

/-- The outcome of an event with its report or its refusal masked. -/
def maskOutcome (rename : OrderId → OrderId) : Except BookError Report → Except BookError Report
  | .ok report => .ok (report.masked rename)
  | .error error => .error (error.renamed rename)

/-- Masking is a way to redraw orders if different numbers stay different. -/
def masking (rename : OrderId → OrderId) (injective : Function.Injective rename) : Redrawing where
  order := Order.masked rename
  number := rename
  side := id
  price := id
  fill := Fill.masked rename
  number_injective := injective
  opposite _ := rfl
  better _ _ _ := Iff.rfl
  order_id _ := rfl
  order_side _ := rfl
  order_price _ := rfl
  order_remaining _ := rfl
  order_left _ _ := rfl
  fill_fillOf _ _ _ := rfl

variable {rename : OrderId → OrderId} {injective : Function.Injective rename} {book image : OrderBook}

/-- Masking redraws a refusal by renaming its order. -/
theorem refusal_masking (error : BookError) : (masking rename injective).refusal error = error.renamed rename := by
  cases error <;> rfl

/-- Masked fills count as much as the fills themselves. -/
theorem Stats.recordFills_masked (stats : Stats) (fills : List Fill) :
    stats.recordFills (fills.map (Fill.masked rename)) = stats.recordFills fills := by
  -- Totals are made of sizes and prices, which are not masked.
  unfold Stats.recordFills
  rw [List.foldl_map]
  rfl

section Shown

/-- A masked book has the same best prices. -/
theorem bestPrice?_masking (redraws : (masking rename injective).Redraws book image) (side : Side) :
    (image.levels side).bestPrice? = (book.levels side).bestPrice? :=
  (redraws.bestPrice? side).trans Option.map_id_apply

/-- A masked book has the same top. -/
theorem top_masking (redraws : (masking rename injective).Redraws book image) : image.top = book.top := by
  -- Both sides show the same best price with the same size.
  have bid : image.bestBid? = book.bestBid? := bestPrice?_masking redraws .buy
  have ask : image.bestAsk? = book.bestAsk? := bestPrice?_masking redraws .sell
  have bidSize : image.bids.bestSize = book.bids.bestSize := redraws.bestSize .buy
  have askSize : image.asks.bestSize = book.asks.bestSize := redraws.bestSize .sell
  simp only [OrderBook.top, bid, ask, bidSize, askSize]

/-- A masked book has the same spread. -/
theorem spread?_masking (redraws : (masking rename injective).Redraws book image) : image.spread? = book.spread? := by
  -- The spread is read off the two best prices.
  have bid : image.bestBid? = book.bestBid? := bestPrice?_masking redraws .buy
  have ask : image.bestAsk? = book.bestAsk? := bestPrice?_masking redraws .sell
  unfold OrderBook.spread?
  rw [bid, ask]

/-- A masked book has the same view of so many levels. -/
theorem depth_masking (redraws : (masking rename injective).Redraws book image) (levels : Nat) :
    image.depth levels = book.depth levels := by
  -- Redrawing gives each line its redrawn price, and the masking leaves prices alone.
  have bids := (redraws.lines .buy levels).trans (List.map_id _)
  have asks := (redraws.lines .sell levels).trans (List.map_id _)
  exact congrArg₂ Depth.mk bids asks

end Shown

end LimitBook
