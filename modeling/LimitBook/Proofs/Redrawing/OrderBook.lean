import LimitBook.Proofs.OrderBook.Sweep
import LimitBook.Proofs.Redrawing
import Mathlib.Data.Option.Basic

/-!
Books redrawn. A book and its image are of the same market and hold the same orders, redrawn, and the index of the
image knows the redrawn numbers.
Every operation does to the image what it does to the book, whether or not the parts of the book agree.
-/

namespace LimitBook.Redrawing

/-- The place of a redrawn order. -/
def place (r : Redrawing) (place : Side × Price) : Side × Price := (r.side place.1, r.price place.2)

/-- A refusal with the order and the price that it names redrawn. -/
def refusal (r : Redrawing) : BookError → BookError
  | .orderNotFound id => .orderNotFound (r.number id)
  | .invalidSize id => .invalidSize (r.number id)
  | .duplicateOrder id => .duplicateOrder (r.number id)
  | .levelOverflow id price => .levelOverflow (r.number id) (r.price price)
  | error => error

/-- An image holds the redrawn orders of a book of its market; what it knows of other numbers does not matter. -/
structure Redraws (r : Redrawing) (book image : OrderBook) : Prop where
  market : image.market = book.market
  levels : ∀ side, image.levels (r.side side) = (book.levels side).map r.level
  index : ∀ id, image.index[r.number id]? = book.index[id]?.map r.place

/-- Two outcomes correspond: both are results that do, or the second is the first refusal redrawn. -/
inductive Outcomes {α : Type} (r : Redrawing) (corresponds : α → α → Prop) :
    Except BookError α → Except BookError α → Prop
  | taken {a image : α} (same : corresponds a image) : Outcomes r corresponds (.ok a) (.ok image)
  | refused (error : BookError) : Outcomes r corresponds (.error error) (.error (r.refusal error))

variable {r : Redrawing} {book image : OrderBook} {side : Side}

/-- An empty book is the image of an empty book. -/
theorem redraws_empty (r : Redrawing) (market : MarketId) :
    r.Redraws (OrderBook.empty market) (OrderBook.empty market) := by
  -- An empty book has no levels and no index to redraw.
  have empty : ∀ side, (OrderBook.empty market).levels side = [] := fun side => by cases side <;> rfl
  exact ⟨rfl, fun side => by rw [empty, empty, List.map_nil], fun id => by simp [OrderBook.empty]⟩

/-- Changing a side of the book and the redrawn side of the image leaves an image. -/
theorem Redraws.setLevels (redraws : r.Redraws book image) (side : Side) (levels : BookSide)
    {index index' : Std.ExtTreeMap OrderId (Side × Price)}
    (indexed : ∀ id, index'[r.number id]? = index[id]?.map r.place) :
    r.Redraws { book.setLevels side levels with index }
      { image.setLevels (r.side side) (levels.map r.level) with index := index' } := by
  have market : (image.setLevels (r.side side) (levels.map r.level)).market = (book.setLevels side levels).market := by
    rw [OrderBook.market_setLevels, OrderBook.market_setLevels, redraws.market]
  refine ⟨market, fun other => ?_, indexed⟩
  show (image.setLevels (r.side side) (levels.map r.level)).levels (r.side other) =
    ((book.setLevels side levels).levels other).map r.level
  -- The side itself is changed, and the side that it faces stays as it was.
  rcases Side.eq_or_eq_opposite other side with rfl | rfl
  · rw [OrderBook.levels_setLevels, OrderBook.levels_setLevels]
  · rw [r.opposite, OrderBook.levels_opposite_setLevels, OrderBook.levels_opposite_setLevels, ← r.opposite,
      redraws.levels]

/-- The image knows a redrawn number if the book knows the number. -/
theorem Redraws.contains (redraws : r.Redraws book image) (id : OrderId) :
    image.index.contains (r.number id) = book.index.contains id := by
  -- The index knows the renamed number if it knew the number.
  rw [Std.ExtTreeMap.contains_eq_isSome_getElem?, Std.ExtTreeMap.contains_eq_isSome_getElem?, redraws.index,
    Option.isSome_map]

/-- A new place in the image is the redrawn new place. -/
theorem Redraws.index_insert (redraws : r.Redraws book image) (order : Order) (id : OrderId) :
    (image.index.insert (r.order order).id ((r.order order).side, (r.order order).price))[r.number id]? =
      (book.index.insert order.id (order.side, order.price))[id]?.map r.place := by
  -- The entry under the new number is the new one, and any other entry was redrawn before.
  rw [Std.ExtTreeMap.getElem?_insert, Std.ExtTreeMap.getElem?_insert, redraws.index, r.order_id, r.order_side,
    r.order_price]
  simp only [Std.LawfulEqCmp.compare_eq_iff_eq, r.number_eq_iff]
  split <;> rfl

/-- Forgetting a redrawn number in the image is forgetting the number. -/
theorem Redraws.index_erase (redraws : r.Redraws book image) (gone id : OrderId) :
    (image.index.erase (r.number gone))[r.number id]? = (book.index.erase gone)[id]?.map r.place := by
  -- The entry under the number that has gone is none, and any other entry was redrawn before.
  rw [Std.ExtTreeMap.getElem?_erase, Std.ExtTreeMap.getElem?_erase, redraws.index]
  simp only [Std.LawfulEqCmp.compare_eq_iff_eq, r.number_eq_iff]
  split <;> rfl

/-- A redrawn order comes to rest in the image as the order does in the book. -/
theorem Redraws.insert (redraws : r.Redraws book image) (order : Order) :
    r.Outcomes r.Redraws (book.insert order) (image.insert (r.order order)) := by
  -- Room, place and number are judged alike, and the order joins at the corresponding level.
  have room : (image.levels (r.order order).side).canAccept (r.order order).price (r.order order).remaining =
      (book.levels order.side).canAccept order.price order.remaining := by
    rw [r.order_side, r.order_price, r.order_remaining, redraws.levels, canAccept_map]
  have joined : (image.levels (r.order order).side).push (r.order order).side (r.order order) =
      ((book.levels order.side).push order.side order).map r.level := by
    rw [r.order_side, redraws.levels, push_map]
  have known : image.index.contains (r.order order).id = book.index.contains order.id := by
    rw [r.order_id, redraws.contains]
  simp only [OrderBook.insert, room, joined, known]
  -- Both tests have the same outcome in the image.
  split
  · rw [r.order_id]
    exact .refused (.duplicateOrder order.id)
  · split
    · refine .taken ?_
      have indexed := redraws.index_insert order
      rw [r.order_side] at indexed ⊢
      exact redraws.setLevels order.side _ indexed
    · rw [r.order_id, r.order_price]
      exact .refused (.levelOverflow order.id order.price)

/-- A redrawn order leaves the image as the order leaves the book. -/
theorem Redraws.cancel (redraws : r.Redraws book image) (id : OrderId) :
    r.Outcomes (fun taken taken' => taken'.1 = r.order taken.1 ∧ r.Redraws taken.2 taken'.2) (book.cancel id)
      (image.cancel (r.number id)) := by
  -- Both indexes know the order or neither does; in the first case it is taken from levels that correspond.
  unfold OrderBook.cancel
  rw [redraws.index]
  cases book.index[id]? with
  | none => exact .refused (.orderNotFound id)
  | some place =>
    simp only [Option.map_some, Redrawing.place, redraws.levels, remove?_map]
    cases (book.levels place.1).remove? place.2 id with
    | none => exact .refused (.orderNotFound id)
    | some taken => exact .taken ⟨rfl, redraws.setLevels place.1 taken.2 (redraws.index_erase id)⟩

/-- The best price of the image is the redrawn best price. -/
theorem Redraws.bestPrice? (redraws : r.Redraws book image) (side : Side) :
    (image.levels (r.side side)).bestPrice? = (book.levels side).bestPrice?.map r.price := by
  rw [redraws.levels, bestPrice?_map]

/-- As much rests at the best price of the image. -/
theorem Redraws.bestSize (redraws : r.Redraws book image) (side : Side) :
    (image.levels (r.side side)).bestSize = (book.levels side).bestSize := by
  rw [redraws.levels, bestSize_map]

/-- The lines of a view of the image are the lines of the view at redrawn prices. -/
theorem Redraws.lines (redraws : r.Redraws book image) (side : Side) (levels : Nat) :
    ((image.levels (r.side side)).take levels).map OrderBook.aggregate =
      (((book.levels side).take levels).map OrderBook.aggregate).map fun line =>
        { line with price := r.price line.price } := by
  -- The quantity of a level and the number of its orders are not redrawn.
  have line (level : Level) : OrderBook.aggregate (r.level level) = ⟨r.price level.price, level.total, level.size⟩ := by
    rw [OrderBook.aggregate, level_price, level_total, level_size]
  rw [redraws.levels, ← List.map_take, List.map_map, List.map_map]
  exact List.map_congr_left fun level _ => line level

/-- The order served next in the image is the redrawn order served next. -/
theorem Redraws.bestOrder? (redraws : r.Redraws book image) (side : Side) :
    image.bestOrder? (r.side side) = (book.bestOrder? side).map r.order := by
  -- The first order of the redrawn side is the redrawn first order.
  unfold OrderBook.bestOrder?
  rw [redraws.levels, front?_map]

/-- A trade leaves as much of the order served next in the image. -/
theorem Redraws.fillBest? (redraws : r.Redraws book image) (side : Side) (quantity : Quantity) :
    Option.Rel (fun filled filled' => filled'.1 = filled.1 ∧ r.Redraws filled.2 filled'.2)
      (book.fillBest? side quantity) (image.fillBest? (r.side side) quantity) := by
  unfold OrderBook.fillBest?
  rw [redraws.bestOrder?, redraws.levels, fillBest?_map]
  cases book.bestOrder? side with
  | none => exact .none
  -- Somebody waits in front, and this is whom the redrawn fill shortens.
  | some front =>
    cases (book.levels side).fillBest? quantity with
    | none => exact .none
    | some filled =>
      refine .some ⟨rfl, redraws.setLevels side filled.2 fun id => ?_⟩
      -- The order is forgotten in the image if it is forgotten in the book.
      simp only [r.order_id]
      split
      · exact redraws.index_erase front.id id
      · exact redraws.index id

/-- A redrawn order is found in the image where the order is found. -/
theorem Redraws.find? (redraws : r.Redraws book image) (id : OrderId) :
    image.find? (r.number id) = (book.find? id).map r.order := by
  -- The place of the order corresponds, and so does the level in this place.
  unfold OrderBook.find?
  rw [redraws.index]
  cases book.index[id]? with
  | none => rfl
  | some place =>
    simp only [Option.map_some, Option.bind_eq_bind, Option.bind_some, Redrawing.place, redraws.levels, level?_map]
    cases (book.levels place.1).level? place.2 with
    | none => rfl
    | some level => exact find?_level

/-- The next trade in the image is the redrawn next trade. -/
theorem Redraws.trade? (redraws : r.Redraws book image) (side : Side) (taker : OrderId) :
    Option.Rel (fun traded traded' => traded'.1 = r.fill traded.1 ∧ r.Redraws traded.2 traded'.2)
      (book.trade? side taker) (image.trade? (r.side side) (r.number taker)) := by
  unfold OrderBook.trade?
  rw [← r.opposite, redraws.bestOrder?, redraws.bestOrder?]
  cases book.bestOrder? side with
  | none => exact .none
  | some incoming =>
    cases book.bestOrder? side.opposite with
    | none => exact .none
    | some resting =>
      -- The two parties trade if their images do, and for the same quantity.
      have trades : (r.order incoming).id = r.number taker ∧ (r.order incoming).Crosses (r.order resting).price ↔
          incoming.id = taker ∧ incoming.Crosses resting.price := by
        rw [r.order_id, r.number_eq_iff, r.order_price, r.crosses_iff]
      have quantity : (r.fill (OrderBook.fillOf side incoming resting)).quantity =
          (OrderBook.fillOf side incoming resting).quantity := by
        rw [← r.fill_fillOf]
        simp only [OrderBook.fillOf, r.order_remaining]
      simp only [Option.map_some, trades, r.fill_fillOf, quantity]
      split
      · -- Both halves of the trade are redrawn one after the other.
        have first := redraws.fillBest? side (OrderBook.fillOf side incoming resting).quantity
        revert first
        generalize book.fillBest? side _ = taken
        generalize image.fillBest? (r.side side) _ = taken'
        rintro (@⟨⟨_, middle⟩, ⟨_, middle'⟩, -, between⟩ | _)
        · have second := between.fillBest? side.opposite (OrderBook.fillOf side incoming resting).quantity
          simp only [Option.bind_eq_bind, Option.bind_some]
          revert second
          generalize middle.fillBest? side.opposite _ = given
          generalize middle'.fillBest? (r.side side.opposite) _ = given'
          rintro (@⟨_, _, -, last⟩ | _)
          · exact .some ⟨rfl, last⟩
          · exact .none
        · exact .none
      · exact .none

/-- The trades of a redrawn order in the image are the redrawn trades of the order. -/
theorem Redraws.matchFrom (redraws : r.Redraws book image) (side : Side) (taker : OrderId) :
    (image.matchFrom (r.side side) (r.number taker)).1 = (book.matchFrom side taker).1.map r.fill ∧
      r.Redraws (book.matchFrom side taker).2 (image.matchFrom (r.side side) (r.number taker)).2 := by
  -- Induction on the trades; the image has a next trade whenever the book has one.
  induction book using OrderBook.matchFrom.induct side taker generalizing image with
  -- Without a trade in the book there is none in the image.
  | case1 book none_left =>
    have next := redraws.trade? side taker
    rw [none_left] at next
    cases none_left' : image.trade? (r.side side) (r.number taker) with
    | none =>
      rw [OrderBook.matchFrom_of_none none_left, OrderBook.matchFrom_of_none none_left']
      exact ⟨rfl, redraws⟩
    | some traded => rw [none_left'] at next; nomatch next
  -- A first trade leads on to redrawn books, and the later ones follow from there.
  | case2 book fill next trade fills last rest ih =>
    have step := redraws.trade? side taker
    rw [trade] at step
    cases trade' : image.trade? (r.side side) (r.number taker) with
    | none => rw [trade'] at step; nomatch step
    | some traded =>
      rw [trade'] at step
      obtain ⟨fill', next'⟩ := traded
      obtain ⟨⟨rfl, onward⟩⟩ := step
      obtain ⟨later, left⟩ := ih onward
      rw [OrderBook.matchFrom_of_some trade, OrderBook.matchFrom_of_some trade']
      exact ⟨by rw [List.map_cons, later], left⟩

/-- A redrawn order that rests trades in the image as the order does in the book. -/
theorem Redraws.matchCrossed (redraws : r.Redraws book image) (taker : OrderId) :
    (image.matchCrossed (r.number taker)).1 = (book.matchCrossed taker).1.map r.fill ∧
      r.Redraws (book.matchCrossed taker).2 (image.matchCrossed (r.number taker)).2 := by
  -- The taker stands in both books or in neither, and on corresponding sides.
  unfold OrderBook.matchCrossed
  rw [redraws.find?]
  cases book.find? taker with
  | none => exact ⟨rfl, redraws⟩
  | some order =>
    simp only [Option.map_some, r.order_side]
    exact redraws.matchFrom order.side taker

end LimitBook.Redrawing
