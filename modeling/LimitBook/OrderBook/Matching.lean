import LimitBook.OrderBook

/-!
Continuous matching by price, then time. An order that was just accepted trades while it stands in front of its
side and its limit crosses the best price opposite, always at the price of the order that was there first.
-/

namespace LimitBook.OrderBook

/-- How many orders stand in the queues of both sides. -/
def queued (book : OrderBook) : Nat := (book.orders .buy).length + (book.orders .sell).length

/-- The trade between an incoming and a resting order: the smaller size, at the resting order's price. -/
def fillOf (side : Side) (incoming resting : Order) : Fill :=
  let quantity := min incoming.remaining resting.remaining
  { maker := resting.id
    makerOwner := resting.owner
    taker := incoming.id
    takerOwner := incoming.owner
    takerSide := side
    price := resting.price
    quantity
    makerFilled := resting.remaining == quantity
    takerFilled := incoming.remaining == quantity }

/-- The next trade of an incoming order, if it is in front of its side and crosses the best price opposite. -/
def trade? (book : OrderBook) (side : Side) (taker : OrderId) : Option (Fill × OrderBook) :=
  match book.bestOrder? side, book.bestOrder? side.opposite with
  | some incoming, some resting =>
    if incoming.id = taker ∧ incoming.Crosses resting.price then do
      -- Both orders lose the traded size, the incoming one first.
      let fill := fillOf side incoming resting
      let (_, book) ← book.fillBest? side fill.quantity
      let (_, book) ← book.fillBest? side.opposite fill.quantity
      return (fill, book)
    else none
  | _, _ => none

/-- Serving the next order of a side touches the front of that side's queue and nothing of the other. -/
theorem orders_fillBest? {book next : OrderBook} {side : Side} {quantity left : Quantity}
    (trade : book.fillBest? side quantity = some (left, next)) :
    next.orders side.opposite = book.orders side.opposite ∧
    ∃ front waiting, book.bestOrder? side = some front ∧ book.orders side = front :: waiting ∧
      left = front.remaining - quantity ∧
      next.orders side = if left = 0 then waiting else { front with remaining := left } :: waiting := by
  unfold fillBest? at trade
  split at trade
  · next front _ served _ served' =>
    simp only [Option.some.injEq, Prod.mk.injEq] at trade
    obtain ⟨rfl, rfl⟩ := trade
    -- The index plays no part in the queues, and the side changes as its levels do.
    obtain ⟨first, waiting, isFront, queue, isLeft, filled⟩ := BookSide.orders_fillBest? served'
    refine ⟨?_, first, waiting, isFront, queue, isLeft, ?_⟩
    · cases side <;> rfl
    · cases side <;> exact filled
  · simp at trade

/-- The two queues counted from either side. -/
theorem queued_eq (book : OrderBook) (side : Side) :
    book.queued = (book.orders side).length + (book.orders side.opposite).length := by
  -- The buyers are counted first, whichever side is asked about.
  cases side
  · rfl
  · exact Nat.add_comm _ _

/-- Every trade uses up at least one of its two orders, so fewer are left to trade. -/
theorem queued_trade? {book next : OrderBook} {side : Side} {taker : OrderId} {fill : Fill}
    (trade : book.trade? side taker = some (fill, next)) : next.queued < book.queued := by
  unfold trade? at trade
  split at trade
  · next incoming resting isIncoming isResting =>
    split at trade
    · -- Name the book between the two halves of the trade.
      simp only [Option.bind_eq_bind, Option.bind_eq_some_iff, Option.pure_def, Option.some.injEq,
        Prod.mk.injEq] at trade
      obtain ⟨⟨leftIn, middle⟩, takes, ⟨leftRest, final⟩, gives, rfl, rfl⟩ := trade
      obtain ⟨otherKept, incoming', behind, isFront, queue, leftInIs, filled⟩ := orders_fillBest? takes
      obtain ⟨ownKept, resting', behind', isFront', queue', leftRestIs, filled'⟩ := orders_fillBest? gives
      rw [isIncoming] at isFront
      rw [Side.opposite_opposite] at ownKept
      have restingFront : middle.bestOrder? side.opposite = some resting := by
        have unchanged : middle.levels side.opposite = book.levels side.opposite := by
          unfold fillBest? at takes
          split at takes
          · simp only [Option.some.injEq, Prod.mk.injEq] at takes
            rw [← takes.2]
            cases side <;> rfl
          · simp at takes
        unfold bestOrder? at isResting ⊢
        rw [unchanged, isResting]
      rw [restingFront] at isFront'
      obtain rfl := Option.some.inj isFront
      obtain rfl := Option.some.inj isFront'
      -- Whichever size is the smaller, nothing is left of that order.
      have usedUp : leftIn = 0 ∨ leftRest = 0 := by
        rw [leftInIs, leftRestIs]
        simp only [fillOf]
        rcases Nat.le_total incoming.remaining.toNat resting.remaining.toNat with smaller | smaller
        · left
          rw [show min incoming.remaining resting.remaining = incoming.remaining from
            if_pos (UInt64.le_iff_toNat_le.mpr smaller), UInt64.sub_self]
        · right
          by_cases same : incoming.remaining ≤ resting.remaining
          · rw [show min incoming.remaining resting.remaining = incoming.remaining from if_pos same,
              UInt64.le_antisymm same (UInt64.le_iff_toNat_le.mpr smaller), UInt64.sub_self]
          · rw [show min incoming.remaining resting.remaining = resting.remaining from if_neg same,
              UInt64.sub_self]
      rw [queued_eq _ side, queued_eq book side, ownKept, filled, filled', queue, ← otherKept, queue']
      rcases usedUp with none_left | none_left <;> simp only [none_left, if_true] <;> split <;>
        simp only [List.length_cons] <;> omega
    · simp at trade
  · simp at trade

/-- The trades of an incoming order one after another, and the book they leave. -/
def matchFrom (book : OrderBook) (side : Side) (taker : OrderId) : List Fill × OrderBook :=
  -- The trade just made comes before all trades of the book it leaves.
  match _trade : book.trade? side taker with
  | none => ([], book)
  | some (fill, next) =>
    let (fills, last) := next.matchFrom side taker
    (fill :: fills, last)
termination_by book.queued
decreasing_by exact queued_trade? _trade

/-- An order that rests trades for as long as it can; an unknown one does nothing. -/
def matchCrossed (book : OrderBook) (taker : OrderId) : List Fill × OrderBook :=
  match book.find? taker with
  | some order => book.matchFrom order.side taker
  | none => ([], book)

end LimitBook.OrderBook
