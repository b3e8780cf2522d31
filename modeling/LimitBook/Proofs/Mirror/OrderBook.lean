import LimitBook.Proofs.Mirror
import LimitBook.Proofs.Redrawing.OrderBook

/-!
The mirror image of a book. Mirroring is a way to redraw orders, so every operation of a book does in the mirror image
what it does in the book: an order that joins, leaves or trades on one side does so in the image on the other. This
holds of all books, whether or not their parts agree.
-/

namespace LimitBook

/-- Mirroring is a way to redraw orders: they keep their numbers, and what is better stays better across the book. -/
def mirroring : Redrawing where
  order := Order.mirror
  number := id
  side := Side.opposite
  price := Price.mirror
  fill := Fill.mirror
  number_injective := Function.injective_id
  opposite _ := rfl
  better _ _ _ := Side.better_mirror
  order_id _ := rfl
  order_side _ := rfl
  order_price _ := rfl
  order_remaining _ := rfl
  order_left _ _ := rfl
  fill_fillOf _ _ _ := rfl

/-- The level at the image of its price, with its orders mirrored. -/
def Level.mirror (level : Level) : Level :=
  { level with price := level.price.mirror, orders := level.orders.map Order.mirror }

/-- Mirroring redraws a refusal by mirroring its price. -/
theorem refusal_mirroring (error : BookError) : mirroring.refusal error = error.mirror := by
  cases error <;> rfl

/-- Where the results of outcomes that correspond are mirrored, the outcomes are. -/
theorem eq_mirrorOutcome {α : Type} {mirror : α → α} {corresponds : α → α → Prop}
    {outcome outcome' : Except BookError α}
    (mirrored : ∀ a image, corresponds a image → image = mirror a)
    (outcomes : mirroring.Outcomes corresponds outcome outcome') : outcome' = mirrorOutcome mirror outcome := by
  -- A refusal names no side and no price, so that it is its own image.
  cases outcomes with
  | taken same => exact congrArg Except.ok (mirrored _ _ same)
  | refused error => exact congrArg Except.error (refusal_mirroring error)

namespace OrderBook

/-- The place of the image of an order. -/
def mirrorPlace (place : Side × Price) : Side × Price := (place.1.opposite, place.2.mirror)

/-- The book with its sides exchanged and all its prices mirrored. -/
def mirror (book : OrderBook) : OrderBook where
  market := book.market
  bids := book.asks.map Level.mirror
  asks := book.bids.map Level.mirror
  index := book.index.map fun _ => mirrorPlace

variable {book image : OrderBook}

/-- The mirror image holds the mirrored orders. -/
theorem redraws_mirror (book : OrderBook) : mirroring.Redraws book book.mirror where
  -- Buys and sells change their places, and every place in the index is mirrored.
  market := rfl
  levels side := by cases side <;> rfl
  index _ := Std.ExtTreeMap.getElem?_map

/-- As all numbers are kept, only the mirror image holds the mirrored orders. -/
theorem eq_mirror (redraws : mirroring.Redraws book image) : image = book.mirror := by
  -- The levels and the market are given by the redrawing; indexes with the same entries are the same.
  have index : image.index = book.index.map fun _ => mirrorPlace :=
    Std.ExtTreeMap.ext_getElem? fun id => (redraws.index id).trans ((redraws_mirror book).index id).symm
  exact (OrderBook.mk.injEq ..).mpr ⟨redraws.market, redraws.levels .sell, redraws.levels .buy, index⟩

/-- The image of an empty book is empty. -/
theorem mirror_empty (market : MarketId) : (empty market).mirror = empty market :=
  (eq_mirror (Redrawing.redraws_empty mirroring market)).symm

/-- An order comes to rest in the image as it does in the book, and is refused for the same reason. -/
theorem insert_mirror (book : OrderBook) (order : Order) :
    book.mirror.insert order.mirror = mirrorOutcome mirror (book.insert order) :=
  eq_mirrorOutcome (fun _ _ => eq_mirror) ((redraws_mirror book).insert order)

/-- An order leaves the image as it leaves the book. -/
theorem cancel_mirror (book : OrderBook) (id : OrderId) :
    book.mirror.cancel id = mirrorOutcome (fun (order, book) => (order.mirror, book.mirror)) (book.cancel id) :=
  eq_mirrorOutcome (fun _ _ same => Prod.ext same.1 (eq_mirror same.2)) ((redraws_mirror book).cancel id)

/-- The order of a number is found in the image where it is found. -/
theorem find?_mirror (book : OrderBook) (id : OrderId) : book.mirror.find? id = (book.find? id).map Order.mirror :=
  (redraws_mirror book).find? id

/-- An order that rests trades in the image as it does in the book. -/
theorem matchCrossed_mirror (book : OrderBook) (taker : OrderId) :
    book.mirror.matchCrossed taker =
      ((book.matchCrossed taker).1.map Fill.mirror, (book.matchCrossed taker).2.mirror) := by
  -- What is left is the redrawn book, and there is only one.
  obtain ⟨fills, left⟩ := (redraws_mirror book).matchCrossed taker
  exact Prod.ext fills (eq_mirror left)

/-- Bid and ask change places in the image. -/
theorem top_mirror (book : OrderBook) : book.mirror.top = book.top.mirror := by
  -- Each side of the image shows the image of the other side.
  have bid : book.mirror.bestBid? = book.bestAsk?.map Price.mirror := (redraws_mirror book).bestPrice? .sell
  have ask : book.mirror.bestAsk? = book.bestBid?.map Price.mirror := (redraws_mirror book).bestPrice? .buy
  have bidSize : book.mirror.bids.bestSize = book.asks.bestSize := (redraws_mirror book).bestSize .sell
  have askSize : book.mirror.asks.bestSize = book.bids.bestSize := (redraws_mirror book).bestSize .buy
  simp only [top, Top.mirror, bid, ask, bidSize, askSize]

/-- The best prices are as far apart in the image. -/
theorem spread?_mirror (book : OrderBook) : book.mirror.spread? = book.spread? := by
  -- The best prices change their places, and so do the two ends of the spread.
  have bid : book.mirror.bestBid? = book.bestAsk?.map Price.mirror := (redraws_mirror book).bestPrice? .sell
  have ask : book.mirror.bestAsk? = book.bestBid?.map Price.mirror := (redraws_mirror book).bestPrice? .buy
  unfold spread?
  rw [bid, ask]
  cases book.bestBid? with
  | none => cases book.bestAsk? <;> rfl
  | some bid =>
    cases book.bestAsk? with
    | none => rfl
    -- Both sides have a best price, and the gap between them is the same.
    | some ask =>
      simp only [Option.map_some, Price.mirror_le_mirror]
      split
      · next ordered => rw [Price.mirror_sub_mirror ordered]
      · rfl

/-- The view of the image is the image of the view. -/
theorem depth_mirror (book : OrderBook) (levels : Nat) : book.mirror.depth levels = (book.depth levels).mirror :=
  congrArg₂ Depth.mk ((redraws_mirror book).lines .sell levels) ((redraws_mirror book).lines .buy levels)

end OrderBook

namespace Depth

/-- The view shows as much at the image of a price as at the price. -/
theorem quantityAt_mirror (depth : Depth) (price : Price) :
    depth.mirror.quantityAt price.mirror = depth.quantityAt price := by
  -- A line has the mirrored price in the image if it has the price.
  have here : (fun line : DepthLevel => decide (line.price = price.mirror)) ∘ DepthLevel.mirror =
      fun line => decide (line.price = price) := by
    funext line
    rw [Function.comp_apply]
    exact decide_eq_decide.mpr Price.mirror_inj
  have turned : ((depth.asks ++ depth.bids).filter (·.price = price)).Perm
      ((depth.bids ++ depth.asks).filter (·.price = price)) :=
    List.perm_append_comm.filter _
  have size (line : DepthLevel) : line.mirror.quantity = line.quantity := by rw [DepthLevel.mirror]
  unfold quantityAt mirror
  rw [← List.map_append, List.filter_map, here, List.foldr_map]
  simp only [size]
  -- The sides come the other way round, which does not change the sum.
  refine turned.foldr_eq' (fun first _ second _ n => ?_) 0
  show second.quantity + (first.quantity + n) = first.quantity + (second.quantity + n)
  rw [← UInt64.add_assoc, UInt64.add_comm second.quantity, UInt64.add_assoc]

end Depth

namespace Ladder

/-- Where the steps are mirrored, so are the prices met. -/
theorem outward_mirror {step? image? : Price → Nat → Option Price}
    (mirrored : ∀ price n, image? price.mirror n = (step? price n).map Price.mirror) (best : Price)
    (offset ticks : Nat) :
    outward image? best.mirror offset ticks = (outward step? best offset ticks).map Price.mirror := by
  -- The offset varies along the ticks, and a price is left out by both or by neither.
  induction ticks generalizing offset with
  | zero => rfl
  | succ ticks ih =>
    unfold outward
    rw [mirrored]
    cases step? best offset with
    | none => rfl
    | some price => exact congrArg (price.mirror :: ·) (ih (offset + 1))

/-- Where the steps are mirrored, so are the rows of a side. -/
theorem rows_mirror {step? image? : Price → Nat → Option Price}
    (mirrored : ∀ price n, image? price.mirror n = (step? price n).map Price.mirror) (depth : Depth)
    (levels : List DepthLevel) (ticks : Nat) :
    rows depth.mirror (levels.map DepthLevel.mirror) image? ticks =
      (rows depth levels step? ticks).map LadderRow.mirror := by
  -- The rows start at the best price, and without one there are none.
  unfold rows
  cases levels with
  | nil => rfl
  | cons best worse =>
    have row (price : Price) : (⟨price.mirror, depth.mirror.quantityAt price.mirror⟩ : LadderRow) =
        LadderRow.mirror ⟨price, depth.quantityAt price⟩ := by rw [Depth.quantityAt_mirror]; rfl
    have prices := outward_mirror mirrored best.price 0 ticks
    simp only [List.map_cons, List.head?_cons, DepthLevel.mirror, prices, List.map_map, Function.comp_def, row]

/-- The ladder of the image is the image of the ladder. -/
theorem ofDepth_mirror (depth : Depth) (ticks : Nat) : ofDepth depth.mirror ticks = (ofDepth depth ticks).mirror := by
  -- The rows of a side are the images of the rows of the other.
  have bids := rows_mirror Price.down?_mirror depth depth.asks ticks
  have asks := rows_mirror Price.up?_mirror depth depth.bids ticks
  unfold ofDepth mirror
  exact congrArg₂ Ladder.mk bids asks

end Ladder

end LimitBook
