import LimitBook.Proofs.OrderBook.Operations

/-!
The trades of an incoming order in closed form. Matching a book order by order is sweeping the facing queue as a
plain list: both make the same fills and leave the same queues, whatever the book, crossed or not.
-/

namespace LimitBook

/-- What an incoming order does: its fills in order, what is left of it, and who is left facing it. -/
structure Sweep where
  fills : List Fill
  left : Option Order
  faced : List Order

/-- An incoming order trades with the first of the queue it faces until it is used up or no longer crosses. -/
def sweep (side : Side) (incoming : Order) : List Order → Sweep
  | [] => ⟨[], some incoming, []⟩
  | resting :: waiting =>
    if incoming.Crosses resting.price then
      let fill := OrderBook.fillOf side incoming resting
      match incoming.reduced? fill.quantity with
      -- The order that rests may keep something, but nothing can happen to it any more.
      | none => ⟨[fill], none, (resting.reduced? fill.quantity).toList ++ waiting⟩
      -- The order that rests is used up, or the incoming one would be.
      | some left =>
        let later := sweep side left waiting
        { later with fills := fill :: later.fills }
    else ⟨[], some incoming, resting :: waiting⟩

namespace OrderBook

section FillOf

variable {side : Side} {incoming resting : Order}

/-- The smaller of two sizes is traded. -/
theorem fillOf_quantity_toNat :
    (fillOf side incoming resting).quantity.toNat = min incoming.remaining.toNat resting.remaining.toNat := by
  show (if incoming.remaining ≤ resting.remaining then incoming.remaining else resting.remaining).toNat = _
  -- The smaller word is the smaller number.
  split
  · next smaller =>
    have := UInt64.le_iff_toNat_le.mp smaller
    omega
  · next larger =>
    have := mt UInt64.le_iff_toNat_le.mpr larger
    omega

/-- No more is traded than the incoming order has. -/
theorem fillOf_quantity_le_incoming : (fillOf side incoming resting).quantity ≤ incoming.remaining := by
  -- The quantity is the smaller one of the two.
  rw [UInt64.le_iff_toNat_le, fillOf_quantity_toNat]
  omega

/-- No more is traded than the resting order has. -/
theorem fillOf_quantity_le_resting : (fillOf side incoming resting).quantity ≤ resting.remaining := by
  -- The quantity is the smaller one of the two.
  rw [UInt64.le_iff_toNat_le, fillOf_quantity_toNat]
  omega

/-- An order is used up by a quantity exactly if it has no more than that. -/
theorem reduced?_eq_none_iff {order : Order} {quantity : Quantity} (within : quantity ≤ order.remaining) :
    order.reduced? quantity = none ↔ order.remaining = quantity := by
  -- Within the size of the order the difference of the words is that of the numbers.
  have difference := UInt64.toNat_sub_of_le _ _ within
  rw [UInt64.le_iff_toNat_le] at within
  unfold Order.reduced?
  rw [ite_eq_left_iff, ← UInt64.toNat_inj, ← UInt64.toNat_inj, UInt64.toNat_zero]
  constructor
  · intro usedUp
    -- If the difference is not zero, the order is kept, which was excluded.
    by_cases zero : (order.remaining - quantity).toNat = 0
    · omega
    · exact absurd (usedUp zero) (by simp)
  · intro same zero
    omega

/-- What an order trades is what is missing of it afterwards. -/
theorem restingSize_reduced? {order : Order} {quantity : Quantity} (within : quantity ≤ order.remaining) :
    order.remaining.toNat = quantity.toNat + restingSize (order.reduced? quantity).toList := by
  have difference := UInt64.toNat_sub_of_le _ _ within
  rw [UInt64.le_iff_toNat_le] at within
  cases rest : order.reduced? quantity with
  | none =>
    -- Nothing is left exactly if all of it was traded.
    rw [(reduced?_eq_none_iff (UInt64.le_iff_toNat_le.mpr within)).mp rest]
    rfl
  | some left =>
    rw [(Order.reduced?_eq_some rest).1]
    simp only [Option.toList_some, restingSize_cons, restingSize_nil, difference]
    omega

/-- If something is left of the incoming order, the resting one is used up. -/
theorem reduced?_resting {left : Order}
    (rest : incoming.reduced? (fillOf side incoming resting).quantity = some left) :
    resting.reduced? (fillOf side incoming resting).quantity = none := by
  -- The traded size is one of the two, and it is not the incoming one.
  have notIncoming : ¬incoming.remaining = (fillOf side incoming resting).quantity := by
    rw [← reduced?_eq_none_iff fillOf_quantity_le_incoming, rest]
    simp
  rw [reduced?_eq_none_iff fillOf_quantity_le_resting]
  rw [← UInt64.toNat_inj, fillOf_quantity_toNat] at notIncoming ⊢
  omega

end FillOf

/-- A sound book that differs from another in its queues only: this one of a side, and that one facing it. -/
structure Arranged (book : OrderBook) (side : Side) (own faced : List Order) (next : OrderBook) : Prop where
  sound : next.Sound
  market : next.market = book.market
  own : next.orders side = own
  faced : next.orders side.opposite = faced

variable {book : OrderBook} {side : Side} {taker : OrderId} {incoming resting : Order}
  {behind waiting : List Order}

/-- A side on which nobody waits makes no trade. -/
theorem Sound.trade?_of_empty (sound : book.Sound) (empty : book.orders side = []) :
    book.trade? side taker = none := by
  -- Nobody is first on this side.
  unfold trade?
  rw [sound.bestOrder? side, empty]
  rfl

/-- An order that is not in front of its side makes no trade. -/
theorem Sound.trade?_of_behind (sound : book.Sound) (own : book.orders side = incoming :: behind)
    (other : incoming.id ≠ taker) : book.trade? side taker = none := by
  unfold trade?
  rw [sound.bestOrder? side, own]
  -- The test for the number comes before that for the price.
  cases faced : book.bestOrder? side.opposite with
  | none => rfl
  | some resting => exact if_neg fun both => other both.1

/-- Where nobody faces an order it makes no trade. -/
theorem Sound.trade?_of_unfaced (sound : book.Sound) (faced : book.orders side.opposite = []) :
    book.trade? side taker = none := by
  -- Nobody is first on the other side, whoever is first on this one.
  unfold trade?
  rw [sound.bestOrder? side.opposite, faced]
  cases book.bestOrder? side <;> rfl

/-- An order that does not cross the best one it faces makes no trade. -/
theorem Sound.trade?_of_apart (sound : book.Sound) (own : book.orders side = incoming :: behind)
    (faced : book.orders side.opposite = resting :: waiting) (apart : ¬incoming.Crosses resting.price) :
    book.trade? side taker = none := by
  -- The first orders of both sides do not cross.
  unfold trade?
  rw [sound.bestOrder? side, sound.bestOrder? side.opposite, own, faced]
  exact if_neg fun both => apart both.2

/-- A crossing order in front of its side trades with the front order it faces, and both queues keep the rest. -/
theorem Sound.trade?_of_crossing (sound : book.Sound) (own : book.orders side = incoming :: behind)
    (faced : book.orders side.opposite = resting :: waiting) (crossing : incoming.Crosses resting.price) :
    ∃ next, book.trade? side incoming.id = some (fillOf side incoming resting, next) ∧
      Arranged book side ((incoming.reduced? (fillOf side incoming resting).quantity).toList ++ behind)
        ((resting.reduced? (fillOf side incoming resting).quantity).toList ++ waiting) next := by
  -- The incoming order is served first, which leaves the facing queue as it was.
  have within : (fillOf side incoming resting).quantity ≤ incoming.remaining := fillOf_quantity_le_incoming
  obtain ⟨middle, takes, taken⟩ := sound.fillBest?_front own within
  have facedStill : middle.orders side.opposite = resting :: waiting := taken.other.trans faced
  obtain ⟨next, gives, given⟩ := taken.sound.fillBest?_front facedStill fillOf_quantity_le_resting
  refine ⟨next, ?_, given.sound, given.market.trans taken.market, ?_, given.own⟩
  · unfold trade?
    simp only [sound.bestOrder?, own, faced, List.head?_cons]
    rw [if_pos ⟨trivial, crossing⟩, takes]
    simp only [Option.bind_eq_bind, Option.bind_some, gives]
    rfl
  · -- The second half of the trade leaves the own side as the first half left it.
    have other := given.other
    rw [Side.opposite_opposite] at other
    rw [other, taken.own]

/-- Without a trade the book is left alone. -/
theorem matchFrom_of_none (none_left : book.trade? side taker = none) : book.matchFrom side taker = ([], book) := by
  -- Without a trade the first case of the definition is the one at hand.
  rw [matchFrom]
  split
  · rfl
  · next fill next trade => simp [none_left] at trade

/-- The first trade comes before the trades of the book it leaves. -/
theorem matchFrom_of_some {next : OrderBook} {fill : Fill} (trade : book.trade? side taker = some (fill, next)) :
    book.matchFrom side taker = (fill :: (next.matchFrom side taker).1, (next.matchFrom side taker).2) := by
  rw [matchFrom]
  split
  · next none_left => simp [none_left] at trade
  · next fill' next' trade' =>
    -- There is one next trade, so it is the one given.
    rw [trade] at trade'
    obtain ⟨rfl, rfl⟩ := Prod.mk.inj (Option.some.inj trade')
    rfl

/-- An order in front of its side sweeps the queue it faces, and whoever stood behind it moves up. -/
theorem Sound.matchFrom_sweep (sound : book.Sound) (own : book.orders side = incoming :: behind) :
    ∃ last, book.matchFrom side incoming.id = ((sweep side incoming (book.orders side.opposite)).fills, last) ∧
      Arranged book side ((sweep side incoming (book.orders side.opposite)).left.toList ++ behind)
        (sweep side incoming (book.orders side.opposite)).faced last := by
  -- The induction is on the queue that is swept; the book and what is left of the order vary along it.
  generalize faced : book.orders side.opposite = queue
  induction queue generalizing book incoming with
  | nil =>
    rw [matchFrom_of_none (sound.trade?_of_unfaced faced)]
    exact ⟨book, rfl, sound, rfl, own, faced⟩
  | cons resting waiting ih =>
    by_cases crossing : incoming.Crosses resting.price
    · obtain ⟨next, trade, arranged⟩ := sound.trade?_of_crossing own faced crossing
      rw [matchFrom_of_some trade]
      simp only [sweep, if_pos crossing]
      cases rest : incoming.reduced? (fillOf side incoming resting).quantity with
      | none =>
        -- The order is gone, so another one is in front of its side now, or nobody.
        have ownNext : next.orders side = behind := by rw [arranged.own, rest]; rfl
        have stops : next.trade? side incoming.id = none := by
          cases behind with
          | nil => exact arranged.sound.trade?_of_empty ownNext
          | cons first later =>
            refine arranged.sound.trade?_of_behind ownNext ?_
            have distinct := sound.distinct_queue side
            rw [own, List.map_cons, List.map_cons, List.nodup_cons] at distinct
            intro same
            rw [← same] at distinct
            exact distinct.1 List.mem_cons_self
        rw [matchFrom_of_none stops]
        exact ⟨next, rfl, arranged.sound, arranged.market, ownNext, arranged.faced⟩
      | some left =>
        -- The resting order is gone, and what is left of the incoming one goes on.
        have number : left.id = incoming.id := by rw [(Order.reduced?_eq_some rest).1]
        have ownNext : next.orders side = left :: behind := by rw [arranged.own, rest]; rfl
        have facedNext : next.orders side.opposite = waiting := by
          rw [arranged.faced, reduced?_resting rest]
          rfl
        obtain ⟨last, trades, arrangedLast⟩ := ih arranged.sound ownNext facedNext
        rw [number] at trades
        rw [trades]
        exact ⟨last, rfl, arrangedLast.sound, arrangedLast.market.trans arranged.market, arrangedLast.own,
          arrangedLast.faced⟩
    · -- The first order faced is out of reach, so nothing trades.
      rw [matchFrom_of_none (sound.trade?_of_apart own faced crossing)]
      simp only [sweep, if_neg crossing]
      exact ⟨book, rfl, sound, rfl, own, faced⟩

/-- A resting order in front of its side sweeps the queue it faces. -/
theorem Sound.matchCrossed_front (sound : book.Sound) (own : book.orders side = incoming :: behind) :
    ∃ last, book.matchCrossed incoming.id =
        ((sweep side incoming (book.orders side.opposite)).fills, last) ∧
      Arranged book side ((sweep side incoming (book.orders side.opposite)).left.toList ++ behind)
        (sweep side incoming (book.orders side.opposite)).faced last := by
  -- The order is found by its number, on the side on which it stands.
  have member : incoming ∈ book.orders side := by rw [own]; exact List.mem_cons_self
  have found : book.find? incoming.id = some incoming :=
    sound.find?_eq_some.mpr ⟨mem_resting.mpr ⟨side, member⟩, rfl⟩
  unfold matchCrossed
  simp only [found, sound.side_eq member]
  exact sound.matchFrom_sweep own

/-- An order that is in front of neither side changes nothing. -/
theorem Sound.matchCrossed_behind (sound : book.Sound)
    (behind : ∀ side front, (book.orders side).head? = some front → front.id ≠ taker) :
    book.matchCrossed taker = ([], book) := by
  unfold matchCrossed
  cases found : book.find? taker with
  | none => rfl
  | some order =>
    -- The order rests, but another one is in front of its side, or nobody is.
    apply matchFrom_of_none
    cases own : book.orders order.side with
    | nil => exact sound.trade?_of_empty own
    | cons first later => exact sound.trade?_of_behind own (behind order.side first (by rw [own]; rfl))

/-- Matching keeps a book sound and its market. -/
theorem Sound.matchCrossed (sound : book.Sound) (taker : OrderId) :
    (book.matchCrossed taker).2.Sound ∧ (book.matchCrossed taker).2.market = book.market := by
  -- Only an order in front of a side can trade at all.
  by_cases inFront : ∃ side front, (book.orders side).head? = some front ∧ front.id = taker
  · obtain ⟨side, front, isFront, rfl⟩ := inFront
    obtain ⟨behind, own⟩ := List.head?_eq_some_iff.mp isFront
    obtain ⟨last, trades, arranged⟩ := sound.matchCrossed_front own
    rw [trades]
    exact ⟨arranged.sound, arranged.market⟩
  · rw [sound.matchCrossed_behind fun side front isFront same => inFront ⟨side, front, isFront, same⟩]
    exact ⟨sound, rfl⟩

end OrderBook

end LimitBook
