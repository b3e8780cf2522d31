import LimitBook.Proofs.Book.Invariants
import LimitBook.Proofs.Depth

/-!
Ladders of tracked books. There is a row for every tick from the best price outwards until prices end, it shows
exactly what rests there on its own side, and the levels that the view has left out are too far away to be missed.
-/

namespace LimitBook

namespace Side

/-- The price lies so many ticks outwards from the best one: below it for buyers, above it for sellers. -/
def Away : Side → Price → Nat → Price → Prop
  | .buy, best, n, price => price.ticks.toNat + n = best.ticks.toNat
  | .sell, best, n, price => price.ticks.toNat = best.ticks.toNat + n

/-- How many prices there are from the best one outwards, itself included. -/
def room : Side → Price → Nat
  | .buy, best => best.ticks.toNat + 1
  | .sell, best => UInt64.size - best.ticks.toNat

/-- A step outwards: down for buyers, up for sellers. -/
def step? : Side → Price → Nat → Option Price
  | .buy => Price.down?
  | .sell => Price.up?

variable {side : Side} {best price : Price} {n : Nat}

/-- Every tick outwards is one rank worse. -/
theorem away_iff_rank : side.Away best n price ↔ side.rank price = side.rank best + n := by
  cases side <;> simp only [Away, rank] <;> omega

/-- A step within the room leads to the price so many ticks away. -/
theorem step?_of_lt (within : n < side.room best) :
    ∃ price, side.step? best n = some price ∧ side.Away best n price := by
  have word := best.ticks.toNat_lt_size
  -- The exact result of the step is still a word.
  cases side with
  | buy =>
    simp only [room] at within
    have exact_below : (UInt64.ofNat (best.ticks.toNat - n)).toNat = best.ticks.toNat - n :=
      UInt64.toNat_ofNat_of_lt' (by omega)
    refine ⟨⟨UInt64.ofNat (best.ticks.toNat - n)⟩, if_pos (by omega), ?_⟩
    simp only [Away, exact_below]
    omega
  | sell =>
    simp only [room] at within
    exact ⟨⟨UInt64.ofNat (best.ticks.toNat + n)⟩, if_pos (by omega), UInt64.toNat_ofNat_of_lt' (by omega)⟩

/-- A step beyond the room leads nowhere. -/
theorem step?_of_le (beyond : side.room best ≤ n) : side.step? best n = none := by
  cases side <;> simp only [room] at beyond <;> exact if_neg (by omega)

/-- A price that lies away from the best one is within the room. -/
theorem Away.lt_room (away : side.Away best n price) : n < side.room best := by
  -- A price is a word, which bounds the distance in either direction.
  have word := price.ticks.toNat_lt_size
  cases side <;> simp only [Away, room] at away ⊢ <;> omega

/-- There is one price so many ticks away. -/
theorem Away.unique {other : Price} (away : side.Away best n price) (away' : side.Away best n other) :
    price = other := by
  -- The distance from the best price gives the rank, and the rank gives the price.
  rw [away_iff_rank] at away away'
  exact eq_of_rank_eq (away.trans away'.symm)

end Side

namespace Ladder

variable {side : Side} {best price : Price} {offset ticks i : Nat}

/-- There are as many rows as are asked for, or as prices are left. -/
theorem length_outward (side : Side) (best : Price) (offset ticks : Nat) :
    (outward side.step? best offset ticks).length = min ticks (side.room best - offset) := by
  induction ticks generalizing offset with
  | zero => simp [outward]
  | succ ticks ih =>
    unfold outward
    rcases Nat.lt_or_ge offset (side.room best) with within | beyond
    · -- A price is left, and the next row starts one tick further out.
      obtain ⟨price, step, -⟩ := Side.step?_of_lt within
      simp only [step, List.length_cons, ih]
      omega
    · simp only [Side.step?_of_le beyond, List.length_nil]
      omega

/-- Each row is one tick further out than the one before. -/
theorem away_of_getElem?_outward (found : (outward side.step? best offset ticks)[i]? = some price) :
    side.Away best (offset + i) price := by
  induction ticks generalizing offset i with
  | zero => simp [outward] at found
  | succ ticks ih =>
    unfold outward at found
    rcases Nat.lt_or_ge offset (side.room best) with within | beyond
    · obtain ⟨first, step, away⟩ := Side.step?_of_lt within
      simp only [step] at found
      -- The first row is at the offset itself, and any other is a row of the ladder from the next tick.
      cases i with
      | zero =>
        obtain rfl : first = price := Option.some.inj found
        exact away
      | succ i =>
        have further := ih (List.getElem?_cons_succ.symm.trans found)
        rwa [Nat.add_right_comm, Nat.add_assoc] at further
    · -- The ladder has ended before.
      simp [Side.step?_of_le beyond] at found

end Ladder

namespace Book

/-- Rows that show a side of a book from its best price outwards: one for each tick, with exactly what rests there. -/
structure Shows (book : Book) (side : Side) (best : Price) (ticks : Nat) (rows : List LadderRow) : Prop where
  populated : ∃ order ∈ book.orders.orders side, order.price = best
  length : rows.length = min ticks (side.room best)
  row : ∀ i row, rows[i]? = some row → side.Away best i row.price ∧
    row.quantity.toNat = book.restingAt side row.price ∧ book.restingAt side.opposite row.price = 0
  complete : ∀ order ∈ book.orders.orders side, ∃ n, side.Away best n order.price ∧
    (n < ticks → ∃ row, rows[n]? = some row ∧ row.price = order.price)

variable {book : Book} {side : Side} {best price : Price}

/-- Everybody on a side is at its best price or further out. -/
theorem Sound.exists_away (sound : book.Sound) (isBest : (book.orders.levels side).bestPrice? = some best)
    {order : Order} (rests : order ∈ book.orders.orders side) : ∃ n, side.Away best n order.price := by
  have sorted : Queue.InPriority side (book.orders.orders side) := (sound.orders.levels side).inPriority
  rw [(sound.orders.levels side).bestPrice?] at isBest
  obtain ⟨first, isFirst, rfl⟩ := Option.map_eq_some_iff.mp isBest
  obtain ⟨later, queue⟩ := List.head?_eq_some_iff.mp isFirst
  -- Nobody is better than the first of the queue.
  have noBetter : side.rank first.price ≤ side.rank order.price := by
    have queue : book.orders.orders side = first :: later := queue
    rw [queue] at rests sorted
    rcases List.mem_cons.mp rests with rfl | behind
    · exact Int.le_refl _
    · have ahead := (List.pairwise_cons.mp sorted).1 order behind
      rw [Side.better_iff_rank_lt] at ahead
      omega
  refine ⟨(side.rank order.price - side.rank first.price).toNat, Side.away_iff_rank.mpr ?_⟩
  omega

/-- Within so many ticks of the best price a view of so many levels shows exactly what rests on that side. -/
theorem Sound.quantityAt_depth (sound : book.Sound) (isBest : (book.orders.levels side).bestPrice? = some best)
    {ticks i : Nat} (within : i < ticks) (away : side.Away best i price) :
    ((book.depth ticks).quantityAt price).toNat = book.restingAt side price ∧
      book.restingAt side.opposite price = 0 := by
  have rank := Side.away_iff_rank.mp away
  have kept := (sound.orders.levels side).atPrice_take isBest
    (show side.rank price < side.rank best + (ticks : Int) by omega)
  obtain ⟨first, rests, here⟩ := sound.orders.bestPrice?_eq_some isBest
  -- Whoever faced the side at this price would be crossed by its best order.
  have nobody := sound.uncrossed.atPrice_opposite rests
    (Side.crosses_iff_rank_le.mpr (show side.rank first.price ≤ side.rank price by rw [here]; omega))
  have shown := sound.orders.shownAt_depth side ticks price
  rw [kept, OrderBook.atPrice_take_eq_nil nobody, restingSize_nil, Nat.add_zero] at shown
  refine ⟨?_, ?_⟩
  · show ((book.orders.depth ticks).quantityAt price).toNat = _
    rw [Depth.toNat_quantityAt (sound.orders.shownAt_lt sound.uncrossed ticks price), shown]
    rfl
  · unfold restingAt
    rw [nobody, restingSize_nil]

/-- The rows that start at the best price of a side show that side. -/
theorem Sound.shows (sound : book.Sound) (side : Side) (isBest : (book.orders.levels side).bestPrice? = some best)
    (ticks : Nat) :
    book.Shows side best ticks ((Ladder.outward side.step? best 0 ticks).map fun price =>
      ⟨price, (book.depth ticks).quantityAt price⟩) := by
  have length := Ladder.length_outward side best 0 ticks
  rw [Nat.sub_zero] at length
  refine ⟨sound.orders.bestPrice?_eq_some isBest, by rw [List.length_map, length], fun i row found => ?_,
    fun order rests => ?_⟩
  · rw [List.getElem?_map, Option.map_eq_some_iff] at found
    obtain ⟨price, isPrice, rfl⟩ := found
    have away := Ladder.away_of_getElem?_outward isPrice
    rw [Nat.zero_add] at away
    have inRange := (List.getElem?_eq_some_iff.mp isPrice).1
    exact ⟨away, sound.quantityAt_depth isBest (by omega) away⟩
  · obtain ⟨n, away⟩ := sound.exists_away isBest rests
    refine ⟨n, away, fun within => ?_⟩
    -- The order stands at a tick for which there is a row.
    have room := away.lt_room
    have inRange : n < (Ladder.outward side.step? best 0 ticks).length := by
      rw [length]
      omega
    have found := List.getElem?_eq_getElem inRange
    have away' := Ladder.away_of_getElem?_outward found
    rw [Nat.zero_add] at away'
    have same := away'.unique away
    refine ⟨⟨order.price, (book.depth ticks).quantityAt order.price⟩, ?_, rfl⟩
    rw [List.getElem?_map, found, same]
    rfl

/-- The rows of a side start at its best price. -/
theorem rows_of_best (side : Side) (isBest : (book.orders.levels side).bestPrice? = some best) (ticks : Nat) :
    Ladder.rows (book.depth ticks) (((book.orders.levels side).take ticks).map OrderBook.aggregate) side.step? ticks =
      (Ladder.outward side.step? best 0 ticks).map fun price => ⟨price, (book.depth ticks).quantityAt price⟩ := by
  unfold Ladder.rows
  -- A ladder of no ticks sees no level, and has no row either.
  cases ticks with
  | zero => rfl
  | succ ticks =>
    cases own : book.orders.levels side with
    | nil => simp [own, BookSide.bestPrice?] at isBest
    | cons level worse =>
      rw [own] at isBest
      obtain rfl : level.price = best := Option.some.inj isBest
      rfl

/-- Nobody waits on a side without a best price, and it has no rows. -/
theorem Sound.rows_of_none (sound : book.Sound) (side : Side) (noBest : (book.orders.levels side).bestPrice? = none)
    (ticks : Nat) : book.orders.orders side = [] ∧ Ladder.rows (book.depth ticks)
      (((book.orders.levels side).take ticks).map OrderBook.aggregate) side.step? ticks = [] := by
  -- Without a best price there is no level.
  refine ⟨(sound.orders.bestPrice?_eq_none side).mp noBest, ?_⟩
  unfold BookSide.bestPrice? at noBest
  rw [Option.map_eq_none_iff, List.head?_eq_none_iff] at noBest
  rw [noBest, List.take_nil]
  rfl

/--
A ladder shows the book as it is: a row for every tick outwards from the best price, as many as are asked for or exist.

Each row has exactly what rests at its tick on its own side and nothing of the other, and nobody within the ticks is
missed though the view is cut to as many levels. No sum that a view makes at a price exceeds a word.
-/
theorem ladder_shows (reached : book.Reachable) (ticks : Nat) :
    (∀ best, book.orders.bestBid? = some best → book.Shows .buy best ticks (book.ladder ticks).bids) ∧
    (∀ best, book.orders.bestAsk? = some best → book.Shows .sell best ticks (book.ladder ticks).asks) ∧
    (book.orders.bestBid? = none → book.orders.orders .buy = [] ∧ (book.ladder ticks).bids = []) ∧
    (book.orders.bestAsk? = none → book.orders.orders .sell = [] ∧ (book.ladder ticks).asks = []) ∧
    ∀ levels price, (book.depth levels).shownAt price < UInt64.size ∧
      ((book.depth levels).quantityAt price).toNat = (book.depth levels).shownAt price := by
  have sound := reached.sound
  -- Each side shows its rows from its best price on, or none without one.
  refine ⟨fun best isBest => ?_, fun best isBest => ?_, fun noBest => ?_, fun noBest => ?_, fun levels price => ?_⟩
  · have bids : (book.ladder ticks).bids = _ := rows_of_best .buy isBest ticks
    rw [bids]
    exact sound.shows .buy isBest ticks
  · have asks : (book.ladder ticks).asks = _ := rows_of_best .sell isBest ticks
    rw [asks]
    exact sound.shows .sell isBest ticks
  · exact sound.rows_of_none .buy noBest ticks
  · exact sound.rows_of_none .sell noBest ticks
  · have fits := sound.orders.shownAt_lt sound.uncrossed levels price
    exact ⟨fits, Depth.toNat_quantityAt fits⟩

/-- Two sellers one tick short of the highest price, and buyers at the two lowest. -/
def edged : Book :=
  ((Book.startingAt ⟨⟨1⟩, ⟨7⟩⟩ 0).run
    [.apply ⟨⟨7⟩, 0, .add ⟨⟨1⟩, ⟨1⟩, 0, .sell, 5, ⟨18446744073709551614⟩⟩⟩,
      .apply ⟨⟨7⟩, 1, .add ⟨⟨2⟩, ⟨2⟩, 0, .sell, 4, ⟨18446744073709551614⟩⟩⟩,
      .apply ⟨⟨7⟩, 2, .add ⟨⟨3⟩, ⟨3⟩, 0, .buy, 3, ⟨1⟩⟩⟩, .apply ⟨⟨7⟩, 3, .add ⟨⟨4⟩, ⟨3⟩, 0, .buy, 2, ⟨0⟩⟩⟩]).2

/-- The edges are reached by a run like any other. -/
theorem reachable_edged : edged.Reachable := (Reachable.start ⟨⟨1⟩, ⟨7⟩⟩ 0).run _

/-- Five ticks are asked for, and prices leave two on either side. -/
theorem ladder_shows_edged :
    edged.Reachable ∧ (edged.ladder 5).asks.length = 2 ∧ (edged.ladder 5).bids.length = 2 ∧
      ∃ row, (edged.ladder 5).asks[0]? = some row ∧ row.quantity.toNat = 9 := by
  -- The lengths are told by the law; the row is found in its place, with the quantity of its price.
  obtain ⟨bids, asks, -, -, -⟩ := ladder_shows reachable_edged 5
  have shownBids := bids ⟨1⟩ (by decide +kernel)
  have shownAsks := asks ⟨18446744073709551614⟩ (by decide +kernel)
  refine ⟨reachable_edged, shownAsks.length, shownBids.length, ?_⟩
  obtain ⟨row, found⟩ : ∃ row, (edged.ladder 5).asks[0]? = some row := by
    rw [List.getElem?_eq_getElem (by rw [shownAsks.length]; decide)]
    exact ⟨_, rfl⟩
  obtain ⟨away, quantity, -⟩ := shownAsks.row 0 row found
  have here : row.price = ⟨18446744073709551614⟩ := Price.eq_of_toNat_eq away
  rw [here] at quantity
  exact ⟨row, found, quantity.trans (by decide +kernel)⟩

end Book

end LimitBook
