import LimitBook.Proofs.Level

/-!
Orders redrawn so that no side of a book can tell: under other numbers, on other sides or at other prices, as long as
numbers stay apart and better prices stay better. Everything that happens to the orders of a level or of a side happens
to the redrawn ones as well.
-/

namespace LimitBook

/-- A way to redraw orders that keeps numbers apart and the order of prices on each side. -/
structure Redrawing where
  order : Order → Order
  number : OrderId → OrderId
  side : Side → Side
  price : Price → Price
  fill : Fill → Fill
  number_injective : Function.Injective number
  opposite : ∀ s, side s.opposite = (side s).opposite
  better : ∀ s p q, (side s).Better (price p) (price q) ↔ s.Better p q
  order_id : ∀ o, (order o).id = number o.id
  order_side : ∀ o, (order o).side = side o.side
  order_price : ∀ o, (order o).price = price o.price
  order_remaining : ∀ o, (order o).remaining = o.remaining
  /-- What is left of an order is redrawn as what is left of the redrawn order. -/
  order_left : ∀ o left, order { o with remaining := left } = { order o with remaining := left }
  /-- The trade of two orders is redrawn as the trade of the redrawn orders. -/
  fill_fillOf : ∀ s a b, OrderBook.fillOf (side s) (order a) (order b) = fill (OrderBook.fillOf s a b)

namespace Redrawing

variable {r : Redrawing}

/-- Numbers that were apart are apart. -/
theorem number_eq_iff (r : Redrawing) {a b : OrderId} : r.number a = r.number b ↔ a = b :=
  ⟨fun same => r.number_injective same, congrArg r.number⟩

/-- Prices that differ have one that is better, so they differ when redrawn. -/
theorem price_eq_iff (r : Redrawing) {p q : Price} : r.price p = r.price q ↔ p = q := by
  -- If one price were better than the other, then it would be better than itself after the redrawing.
  refine ⟨fun same => @Side.eq_of_not_better .buy p q ?_ ?_, congrArg r.price⟩
  all_goals
    rw [← r.better, same]
    exact Side.better_irrefl _ _

/-- A redrawn order crosses a redrawn price if the order crosses the price. -/
theorem crosses_iff (r : Redrawing) (order : Order) (price : Price) :
    (r.order order).Crosses (r.price price) ↔ order.Crosses price := by
  unfold Order.Crosses
  -- Crossing is the order of prices seen across the book.
  rw [r.order_side, r.order_price, Side.crosses_iff_not_better, Side.crosses_iff_not_better, r.better]

/-- What is left of a redrawn order after a trade is what is left of the order, redrawn. -/
theorem reduced?_order (r : Redrawing) (order : Order) (quantity : Quantity) :
    (r.order order).reduced? quantity = (order.reduced? quantity).map r.order := by
  -- The redrawing keeps what is left of an order, so that it is used up in both books or in neither.
  unfold Order.reduced?
  by_cases usedUp : order.remaining - quantity = 0
  · rw [if_pos usedUp, if_pos (by rw [r.order_remaining, usedUp])]
    rfl
  · rw [if_neg usedUp, if_neg (by rwa [r.order_remaining]), Option.map_some, r.order_left order (_ - _),
      r.order_remaining]

/-- A redrawn order has a redrawn number exactly if the order has the number. -/
theorem hasNumber_comp (r : Redrawing) (id : OrderId) :
    (fun order : Order => decide (order.id = r.number id)) ∘ r.order = fun order => decide (order.id = id) := by
  -- The renaming of numbers is injective, and so it keeps apart whatever differs.
  funext order
  rw [Function.comp_apply, r.order_id]
  exact decide_eq_decide.mpr r.number_eq_iff

/-- A level with its orders redrawn. -/
def level (r : Redrawing) (level : Level) : Level :=
  { level with price := r.price level.price, orders := level.orders.map r.order }

section Level

variable {level : Level} {order : Order} {id : OrderId}

/-- The redrawn level stands at the redrawn price. -/
@[simp] theorem level_price : (r.level level).price = r.price level.price := rfl

/-- At the redrawn level the redrawn orders wait. -/
@[simp] theorem level_orders : (r.level level).orders = level.orders.map r.order := rfl

/-- As much rests at the redrawn level. -/
@[simp] theorem level_total : (r.level level).total = level.total := rfl

/-- As many wait at the redrawn level. -/
@[simp] theorem level_size : (r.level level).size = level.size := List.length_map _

/-- A redrawn level that is empty was empty. -/
@[simp] theorem level_isEmpty : (r.level level).isEmpty = level.isEmpty := List.isEmpty_map

/-- A level written out is redrawn part by part. -/
theorem level_mk (price : Price) (orders : List Order) (total : Quantity) :
    r.level ⟨price, orders, total⟩ = ⟨r.price price, orders.map r.order, total⟩ := rfl

/-- A redrawn order is found where the order is found. -/
theorem find?_level : (r.level level).find? (r.number id) = (level.find? id).map r.order := by
  -- The order of the number is found in the redrawn queue where it was found before.
  unfold Level.find?
  rw [level_orders, List.find?_map, r.hasNumber_comp]

/-- At the redrawn level the front order is the redrawn one. -/
theorem front?_level : (r.level level).front? = level.front?.map r.order := List.head?_map

/-- A redrawn order joins the redrawn level as the order joins the level. -/
theorem push_level : (r.level level).push (r.order order) = r.level (level.push order) := by
  simp only [Level.push, Redrawing.level, List.map_append, List.map_cons, List.map_nil, r.order_remaining]

/-- A new level with an order is redrawn as a new level with the redrawn order. -/
theorem push_empty : (Level.empty (r.order order).price).push (r.order order) =
    r.level ((Level.empty order.price).push order) := by
  -- An empty level at the redrawn price is the redrawn empty level.
  rw [← push_level, r.order_price]
  rfl

/-- A trade leaves as much of the redrawn front order. -/
theorem fillFront?_level (quantity : Quantity) :
    (r.level level).fillFront? quantity =
      (level.fillFront? quantity).map fun (left, level) => (left, r.level level) := by
  -- An empty level has no front order to fill; otherwise the two fronts shrink alike.
  cases queue : level.orders with
  | nil =>
    unfold Level.fillFront?
    rw [level_orders, queue]
    rfl
  | cons front waiting =>
    have redrawn : (r.level level).orders = r.order front :: waiting.map r.order := by
      rw [level_orders, queue, List.map_cons]
    have left : ((r.order front).reduced? quantity).toList = (front.reduced? quantity).toList.map r.order := by
      rw [r.reduced?_order, Option.toList_map]
    rw [Level.fillFront?_eq queue, Level.fillFront?_eq redrawn, left, ← List.map_append, Option.map_some]
    simp only [level_mk, level_price, level_total, r.order_remaining]

/-- A redrawn order leaves the redrawn level as the order leaves the level. -/
theorem remove?_level : (r.level level).remove? (r.number id) =
    (level.remove? id).map fun (order, level) => (r.order order, r.level level) := by
  -- The order erased is the first of its number in both.
  have erased :
      (level.orders.map r.order).eraseP (·.id = r.number id) = (level.orders.eraseP (·.id = id)).map r.order := by
    rw [List.eraseP_map, r.hasNumber_comp]
  unfold Level.remove?
  rw [find?_level, Option.map_map, Option.map_map]
  congr 1
  funext order
  simp only [Function.comp_apply, level_mk, level_price, level_orders, level_total, erased, r.order_remaining]

end Level

section BookSide

variable {side : Side} {levels : BookSide} {price : Price} {order : Order} {id : OrderId}

/-- The best price of the redrawn levels is the redrawn best price. -/
theorem bestPrice?_map : BookSide.bestPrice? (levels.map r.level) = (BookSide.bestPrice? levels).map r.price := by
  cases levels <;> rfl

/-- The size at the best price is the same. -/
theorem bestSize_map : BookSide.bestSize (levels.map r.level) = BookSide.bestSize levels := by
  cases levels <;> rfl

/-- The order served next is the redrawn one. -/
theorem front?_map : BookSide.front? (levels.map r.level) = (BookSide.front? levels).map r.order := by
  -- The first level, if there is any, is redrawn into the first level.
  cases levels with
  | nil => rfl
  | cons level worse => exact front?_level

/-- The level of a redrawn price is the redrawn level of the price. -/
theorem level?_map :
    BookSide.level? (levels.map r.level) (r.price price) = (BookSide.level? levels price).map r.level := by
  -- A level is found at the redrawn price if and only if it was found at the price.
  have here : (fun level : Level => decide (level.price = r.price price)) ∘ r.level =
      fun level => decide (level.price = price) := by
    funext level
    rw [Function.comp_apply, level_price]
    exact decide_eq_decide.mpr r.price_eq_iff
  unfold BookSide.level?
  rw [List.find?_map, here]

/-- There is as much room at a redrawn price. -/
theorem canAccept_map (quantity : Quantity) :
    BookSide.canAccept (levels.map r.level) (r.price price) quantity = BookSide.canAccept levels price quantity := by
  -- What a level can take depends on its total, which is not redrawn.
  unfold BookSide.canAccept
  rw [level?_map]
  cases BookSide.level? levels price <;> rfl

/-- A redrawn order joins the redrawn levels as the order joins the levels. -/
theorem push_map :
    BookSide.push (r.side side) (r.order order) (levels.map r.level) =
      (BookSide.push side order levels).map r.level := by
  induction levels with
  | nil => exact congrArg (fun level => [level]) push_empty
  | cons level worse ih =>
    -- The comparisons of prices on the way have the same outcomes.
    have here : (r.level level).price = (r.order order).price ↔ level.price = order.price := by
      rw [r.order_price, level_price, r.price_eq_iff]
    have better : (r.side side).Better (r.order order).price (r.level level).price ↔
        side.Better order.price level.price := by
      rw [r.order_price, level_price, r.better]
    -- At the level of its price the newcomer joins, ahead of a worse one it opens a level, and else it passes on.
    simp only [List.map_cons, BookSide.push, here, better]
    split
    · rw [List.map_cons, push_level]
    · split
      · rw [List.map_cons, List.map_cons, push_empty]
      · rw [List.map_cons, ih]

/-- A redrawn level is kept if the level is kept. -/
theorem keep_map (level : Level) (worse : BookSide) :
    BookSide.keep (r.level level) (worse.map r.level) = (BookSide.keep level worse).map r.level := by
  -- A level is kept unless it is empty, and redrawing does not empty it.
  unfold BookSide.keep
  rw [level_isEmpty]
  split <;> rfl

/-- A redrawn order leaves the redrawn levels as the order leaves the levels. -/
theorem remove?_map : BookSide.remove? (r.price price) (r.number id) (levels.map r.level) =
    (BookSide.remove? price id levels).map fun (order, levels) => (r.order order, levels.map r.level) := by
  -- The induction is on the levels, of which the first is looked at if it has the price.
  induction levels with
  | nil => rfl
  | cons level worse ih =>
    have here : (r.level level).price = r.price price ↔ level.price = price := r.price_eq_iff
    simp only [List.map_cons, BookSide.remove?, here, ih, remove?_level]
    split
    · cases level.remove? id with
      | none => rfl
      | some taken => simp only [Option.map_some, keep_map]
    · cases BookSide.remove? price id worse <;> rfl

/-- A trade at the front of the redrawn levels leaves as much of its order. -/
theorem fillBest?_map (quantity : Quantity) : BookSide.fillBest? (levels.map r.level) quantity =
    (BookSide.fillBest? levels quantity).map fun (left, levels) => (left, levels.map r.level) := by
  -- Only the first level is touched, and it is kept or dropped as the other is.
  cases levels with
  | nil => rfl
  | cons level worse =>
    simp only [List.map_cons, BookSide.fillBest?, fillFront?_level]
    cases level.fillFront? quantity with
    | none => rfl
    | some filled => simp only [Option.map_some, keep_map]

end BookSide

end Redrawing

end LimitBook
