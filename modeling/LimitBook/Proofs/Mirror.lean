import LimitBook.Depth
import LimitBook.Proofs.Book.Run

/-!
The mirror image of a market: buyers and sellers change places, and every price lies as far below the highest one as
it lay above zero. What is better on one side is better on the other in the image.
-/

namespace LimitBook

namespace Price

-- The definition stays closed, so that no proof computes with the highest price.
/-- The price as far below the highest one as this one is above zero. -/
@[irreducible] def mirror (price : Price) : Price := ⟨0xFFFFFFFFFFFFFFFF - price.ticks⟩

variable {p q : Price}

/-- The ticks of a price and of its image make up the highest price. -/
theorem toNat_ticks_mirror (price : Price) : price.mirror.ticks.toNat = 0xFFFFFFFFFFFFFFFF - price.ticks.toNat := by
  -- The difference is taken from the highest price, and no price is above that.
  have highest : price.ticks ≤ 0xFFFFFFFFFFFFFFFF := by
    have bound := price.ticks.toNat_lt
    rw [UInt64.le_iff_toNat_le]
    show price.ticks.toNat ≤ 0xFFFFFFFFFFFFFFFF
    omega
  unfold mirror
  exact UInt64.toNat_sub_of_le _ _ highest

/-- The image of the image is the price itself. -/
@[simp] theorem mirror_mirror (price : Price) : price.mirror.mirror = price := by
  -- Taking the distance to the highest price twice leads back.
  have bound := price.ticks.toNat_lt
  apply eq_of_toNat_eq
  rw [toNat_ticks_mirror, toNat_ticks_mirror]
  omega

/-- Different prices have different images. -/
@[simp] theorem mirror_inj : p.mirror = q.mirror ↔ p = q := by
  constructor
  · -- A price is told by its image, of which it is the image.
    intro same
    rw [← mirror_mirror p, same, mirror_mirror]
  · exact congrArg mirror

/-- Images are ordered the other way round. -/
@[simp] theorem mirror_lt_mirror : p.mirror < q.mirror ↔ q < p := by
  -- Both comparisons are about the distance to the highest price.
  have first := p.ticks.toNat_lt
  have second := q.ticks.toNat_lt
  rw [lt_iff_toNat_lt, lt_iff_toNat_lt, toNat_ticks_mirror, toNat_ticks_mirror]
  omega

/-- Images are ordered the other way round. -/
@[simp] theorem mirror_le_mirror : p.mirror ≤ q.mirror ↔ q ≤ p := by
  -- As with the strict order, both comparisons are about the distance to the highest price.
  have first := p.ticks.toNat_lt
  have second := q.ticks.toNat_lt
  rw [le_iff_toNat_le, le_iff_toNat_le, toNat_ticks_mirror, toNat_ticks_mirror]
  omega

/-- Images are as far apart. -/
theorem mirror_sub_mirror (ordered : p ≤ q) : p.mirror.ticks - q.mirror.ticks = q.ticks - p.ticks := by
  -- The images are ordered the other way round, so that neither difference falls below zero.
  have bound := q.ticks.toNat_lt
  have image := le_iff_toNat_le.mp (mirror_le_mirror.mpr ordered)
  apply UInt64.toNat_inj.mp
  rw [UInt64.toNat_sub_of_le _ _ ordered, UInt64.toNat_sub_of_le _ _ (UInt64.le_iff_toNat_le.mpr image),
    toNat_ticks_mirror, toNat_ticks_mirror]
  rw [le_iff_toNat_le] at ordered
  omega

/-- Steps up in the image are steps down, and where prices end above in the image they end below at zero. -/
theorem up?_mirror (price : Price) (n : Nat) : price.mirror.up? n = (price.down? n).map mirror := by
  have bound := price.ticks.toNat_lt
  unfold up? down?
  simp only [toNat_ticks_mirror, UInt64.size]
  -- There are as many steps above the image as there are below the price.
  by_cases within : n ≤ price.ticks.toNat
  · rw [if_pos within, if_pos (by omega), Option.map_some, Option.some.injEq]
    apply eq_of_toNat_eq
    rw [toNat_ticks_mirror, UInt64.toNat_ofNat_of_lt' (by simp only [UInt64.size]; omega),
      UInt64.toNat_ofNat_of_lt' (by simp only [UInt64.size]; omega)]
    omega
  · rw [if_neg within, if_neg (by omega)]
    rfl

/-- Steps down in the image are steps up. -/
theorem down?_mirror (price : Price) (n : Nat) : price.mirror.down? n = (price.up? n).map mirror := by
  -- Seen from the image it is the price itself that steps up.
  have steps := up?_mirror price.mirror n
  rw [mirror_mirror] at steps
  rw [steps, Option.map_map]
  cases price.mirror.down? n <;> simp

end Price

namespace Side

variable {side : Side} {p q : Price}

/-- What is better on a side is better on the other in the image. -/
@[simp] theorem better_mirror : side.opposite.Better p.mirror q.mirror ↔ side.Better p q := by
  cases side <;> exact Price.mirror_lt_mirror

end Side

/-- The order on the other side, at the image of its price. -/
def Order.mirror (order : Order) : Order := { order with side := order.side.opposite, price := order.price.mirror }

/-- As much is left of the image as of the order. -/
@[simp] theorem Order.remaining_mirror {order : Order} : order.mirror.remaining = order.remaining := rfl

/-- The new order on the other side, at the image of its price. -/
def NewOrder.mirror (new : NewOrder) : NewOrder := { new with side := new.side.opposite, price := new.price.mirror }

/-- The action with its order mirrored, if it brings one. -/
def Action.mirror : Action → Action
  | add new => add new.mirror
  | remove id => remove id

/-- The event with its action mirrored. -/
def Event.mirror (event : Event) : Event := { event with action := event.action.mirror }

/-- The call with its event mirrored, if it has one. -/
def Book.Call.mirror : Book.Call → Book.Call
  | apply event => apply event.mirror
  | resync next => resync next

/-- The refusal with its price mirrored, if it names one. -/
def BookError.mirror : BookError → BookError
  | levelOverflow order price => levelOverflow order price.mirror
  | error => error

/-- The fill with its sides exchanged, at the image of its price. -/
def Fill.mirror (fill : Fill) : Fill :=
  { fill with takerSide := fill.takerSide.opposite, price := fill.price.mirror }

/-- Bid and ask exchanged, at the images of their prices. -/
def Top.mirror (top : Top) : Top :=
  { bestBid := top.bestAsk.map Price.mirror
    bidSize := top.askSize
    bestAsk := top.bestBid.map Price.mirror
    askSize := top.bidSize }

/-- The report with all its parts mirrored. -/
def Report.mirror (report : Report) : Report :=
  { sequence := report.sequence
    fills := report.fills.map Fill.mirror
    resting := report.resting.map Order.mirror
    removed := report.removed.map Order.mirror
    top := report.top.mirror }

/-- The line of a view at the image of its price. -/
def DepthLevel.mirror (line : DepthLevel) : DepthLevel := { line with price := line.price.mirror }

/-- The view with bids and asks exchanged. -/
def Depth.mirror (depth : Depth) : Depth :=
  { bids := depth.asks.map DepthLevel.mirror
    asks := depth.bids.map DepthLevel.mirror }

/-- The row of a ladder at the image of its price. -/
def LadderRow.mirror (row : LadderRow) : LadderRow := { row with price := row.price.mirror }

/-- The ladder with bids and asks exchanged. -/
def Ladder.mirror (ladder : Ladder) : Ladder :=
  { bids := ladder.asks.map LadderRow.mirror
    asks := ladder.bids.map LadderRow.mirror }

/-- The outcome with its result mirrored, or else its refusal. -/
def mirrorOutcome {α : Type} (mirror : α → α) : Except BookError α → Except BookError α
  | .ok a => .ok (mirror a)
  | .error error => .error error.mirror

/-- Totals of a market and of its image: all but prices agree, and both volumes make up one at the highest price. -/
structure Stats.Reflects (stats image : Stats) : Prop where
  addedQuantity : image.addedQuantity = stats.addedQuantity
  removedQuantity : image.removedQuantity = stats.removedQuantity
  executedQuantity : image.executedQuantity = stats.executedQuantity
  fillCount : image.fillCount = stats.fillCount
  volume : stats.volume + image.volume = 0xFFFFFFFFFFFFFFFF * stats.executedQuantity
  lastTradePrice : image.lastTradePrice = stats.lastTradePrice.map Price.mirror
  eventsApplied : image.eventsApplied = stats.eventsApplied

section Stats

variable {stats image : Stats}

/-- Without any event both totals are empty. -/
theorem Stats.reflects_empty : Stats.empty.Reflects Stats.empty := ⟨rfl, rfl, rfl, rfl, rfl, rfl, rfl⟩

/-- A size that comes in is counted alike. -/
theorem Stats.Reflects.recordAdded (reflects : stats.Reflects image) (size : Quantity) :
    (stats.recordAdded size).Reflects (image.recordAdded size) :=
  { reflects with addedQuantity := congrArg (· + size.toNat) reflects.addedQuantity }

/-- A size that is taken out is counted alike. -/
theorem Stats.Reflects.recordRemoved (reflects : stats.Reflects image) (remaining : Quantity) :
    (stats.recordRemoved remaining).Reflects (image.recordRemoved remaining) :=
  { reflects with removedQuantity := congrArg (· + remaining.toNat) reflects.removedQuantity }

/-- An event that is taken in is counted alike. -/
theorem Stats.Reflects.recordEvent (reflects : stats.Reflects image) : stats.recordEvent.Reflects image.recordEvent :=
  { reflects with eventsApplied := congrArg (· + 1) reflects.eventsApplied }

/-- A trade and its image are counted alike. -/
theorem Stats.Reflects.recordFill (reflects : stats.Reflects image) (fill : Fill) :
    (stats.recordFill fill).Reflects (image.recordFill fill.mirror) where
  addedQuantity := reflects.addedQuantity
  removedQuantity := reflects.removedQuantity
  executedQuantity := congrArg (· + fill.quantity.toNat) reflects.executedQuantity
  fillCount := congrArg (· + 1) reflects.fillCount
  volume := by
    -- The two notionals are the size at two prices that make up the highest one.
    have bound := fill.price.ticks.toNat_lt
    have notionals : fill.notional + fill.mirror.notional = 0xFFFFFFFFFFFFFFFF * fill.quantity.toNat := by
      show fill.price.ticks.toNat * fill.quantity.toNat + fill.price.mirror.ticks.toNat * fill.quantity.toNat = _
      rw [← Nat.add_mul, Price.toNat_ticks_mirror, Nat.add_sub_cancel' (by omega)]
    have volumes := reflects.volume
    simp only [Stats.recordFill, Nat.mul_add]
    omega
  lastTradePrice := rfl
  eventsApplied := reflects.eventsApplied

/-- Trades and their images are counted alike. -/
theorem Stats.Reflects.recordFills (reflects : stats.Reflects image) (fills : List Fill) :
    (stats.recordFills fills).Reflects (image.recordFills (fills.map Fill.mirror)) := by
  -- The totals vary along the fills, and each fill adds the same on both sides but for its price.
  induction fills generalizing stats image with
  | nil => exact reflects
  | cons fill fills ih => exact ih (reflects.recordFill fill)

end Stats

end LimitBook
