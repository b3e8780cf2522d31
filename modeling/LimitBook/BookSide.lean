import LimitBook.Level

/-! One side of a book: its levels, best price first, each with somebody waiting. -/

namespace LimitBook

/--
The levels of one side, best price first. A side maps prices to levels, but the price under which a level is found is
not kept beside it: the level's own price stands for this key.
-/
abbrev BookSide := List Level

namespace BookSide

/-- Everybody waiting on a side, in the order in which they are served. -/
def orders (levels : BookSide) : List Order := levels.flatMap Level.orders

/-- The best price of a side. -/
def bestPrice? (levels : BookSide) : Option Price := levels.head?.map Level.price

/-- The size waiting at the best price, nothing on an empty side. -/
def bestSize (levels : BookSide) : Quantity := (levels.head?.map Level.total).getD 0

/-- The order that is served next. -/
def front? (levels : BookSide) : Option Order := levels.head?.bind Level.front?

/-- The level of a price. -/
def level? (levels : BookSide) (price : Price) : Option Level := levels.find? (·.price = price)

/-- The level of a price has room for so much more; a new level always has. -/
def canAccept (levels : BookSide) (price : Price) (quantity : Quantity) : Bool :=
  match levels.level? price with
  | some level => level.canAccept quantity
  | none => true

/-- An order joins the level of its price, which is opened where it belongs if need be. -/
def push (side : Side) (order : Order) : BookSide → BookSide
  | [] => [(Level.empty order.price).push order]
  | level :: worse =>
    if level.price = order.price then level.push order :: worse
    -- A price between two levels opens a level of its own.
    else if side.Better order.price level.price then (Level.empty order.price).push order :: level :: worse
    else level :: push side order worse

/-- A level is kept only while somebody waits at it. -/
def keep (level : Level) (worse : BookSide) : BookSide := if level.isEmpty then worse else level :: worse

/-- An order leaves the level of its price, and the level closes with its last order. -/
def remove? (price : Price) (id : OrderId) : BookSide → Option (Order × BookSide)
  | [] => none
  | level :: worse =>
    -- Levels at other prices are passed over unchanged.
    if level.price = price then (level.remove? id).map fun (order, level) => (order, keep level worse)
    else (remove? price id worse).map fun (order, worse) => (order, level :: worse)

/-- The front order of the best level trades, and the level closes with its last order. -/
def fillBest? : BookSide → Quantity → Option (Quantity × BookSide)
  | [], _ => none
  | level :: worse, quantity => (level.fillFront? quantity).map fun (left, level) => (left, keep level worse)

/-- Closing an empty level takes nobody out of the queue. -/
theorem orders_keep (level : Level) (worse : BookSide) :
    orders (keep level worse) = level.orders ++ orders worse := by
  -- An empty level contributes no order, and a kept one contributes its own.
  unfold keep
  split
  · next closed => simp [List.isEmpty_iff.mp closed, orders]
  · rfl

/-- A trade touches the front order only: it keeps its place with what is left, or leaves if nothing is. -/
theorem orders_fillBest? {levels : BookSide} {quantity left : Quantity} {filled : BookSide}
    (trade : levels.fillBest? quantity = some (left, filled)) :
    ∃ front waiting, levels.front? = some front ∧ levels.orders = front :: waiting ∧
      left = front.remaining - quantity ∧
      filled.orders = if left = 0 then waiting else { front with remaining := left } :: waiting := by
  -- A trade needs a level, and somebody waiting at it.
  match levels with
  | [] => simp [fillBest?] at trade
  | ⟨price, [], total⟩ :: worse => simp [fillBest?, Level.fillFront?] at trade
  | ⟨price, front :: waiting, total⟩ :: worse =>
    simp only [fillBest?, Level.fillFront?, Option.map_some, Option.some.injEq, Prod.mk.injEq] at trade
    obtain ⟨rfl, rfl⟩ := trade
    refine ⟨front, waiting ++ orders worse, rfl, rfl, rfl, ?_⟩
    -- The level's own queue changes at its front, and the queues behind it do not change.
    rw [orders_keep]
    split <;> rfl

end BookSide

end LimitBook
