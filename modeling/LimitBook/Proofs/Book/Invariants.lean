import LimitBook.Proofs.Book.Run
import LimitBook.Proofs.OrderBook.Reachable

/-!
What holds of every book at all times: the levels, their totals and the index say the same as the queues, and a
tracked book is never crossed, so that nobody in it is left to trade.
-/

namespace LimitBook

namespace OrderBook

variable {book : OrderBook}

/-- The best price of a side is that of a resting order. -/
theorem Sound.bestPrice?_eq_some (sound : book.Sound) {side : Side} {price : Price}
    (best : (book.levels side).bestPrice? = some price) : ∃ order ∈ book.orders side, order.price = price := by
  -- It is the price of the order that is served first.
  rw [(sound.levels side).bestPrice?, Option.map_eq_some_iff] at best
  obtain ⟨first, isFirst, here⟩ := best
  exact ⟨first, List.mem_of_head? isFirst, here⟩

/-- A side has a best price exactly if somebody waits on it. -/
theorem Sound.bestPrice?_eq_none (sound : book.Sound) (side : Side) :
    (book.levels side).bestPrice? = none ↔ book.orders side = [] := by
  -- No level is empty, so that without a best price there is no order.
  rw [(sound.levels side).bestPrice?, Option.map_eq_none_iff, List.head?_eq_none_iff]
  rfl

/-- In an uncrossed book the best bid is below the best ask. -/
theorem Sound.bestBid?_lt_bestAsk? (sound : book.Sound) (uncrossed : book.Uncrossed) {bid ask : Price}
    (bestBid : book.bestBid? = some bid) (bestAsk : book.bestAsk? = some ask) : bid < ask := by
  -- The best prices are prices of orders, and no order bids as much as another asks.
  obtain ⟨buyer, bids, rfl⟩ : ∃ order ∈ book.orders .buy, order.price = bid := sound.bestPrice?_eq_some bestBid
  obtain ⟨seller, asks, rfl⟩ : ∃ order ∈ book.orders .sell, order.price = ask := sound.bestPrice?_eq_some bestAsk
  exact uncrossed buyer bids seller asks

/-- An uncrossed book does not look crossed at its top. -/
theorem Sound.isCrossed_top (sound : book.Sound) (uncrossed : book.Uncrossed) : book.top.isCrossed = false := by
  unfold Top.isCrossed
  split
  · next bid ask bestBid bestAsk =>
    -- Both sides wait, with the best bid below the best ask.
    have below := sound.bestBid?_lt_bestAsk? uncrossed bestBid bestAsk
    rw [Price.lt_iff_toNat_lt] at below
    rw [decide_eq_false_iff_not, Price.le_iff_toNat_le]
    omega
  · rfl

/-- In an uncrossed book that both sides fill, the best prices are some ticks apart. -/
theorem Sound.spread?_of_both (sound : book.Sound) (uncrossed : book.Uncrossed) (bids : book.orders .buy ≠ [])
    (asks : book.orders .sell ≠ []) : ∃ gap, book.spread? = some gap ∧ 0 < gap := by
  have bidden : book.bestBid? ≠ none := mt (sound.bestPrice?_eq_none .buy).mp bids
  have asked : book.bestAsk? ≠ none := mt (sound.bestPrice?_eq_none .sell).mp asks
  obtain ⟨bid, bestBid⟩ := Option.ne_none_iff_exists'.mp bidden
  obtain ⟨ask, bestAsk⟩ := Option.ne_none_iff_exists'.mp asked
  have below := Price.lt_iff_toNat_lt.mp (sound.bestBid?_lt_bestAsk? uncrossed bestBid bestAsk)
  -- The bid does not exceed the ask, so the spread is given.
  have ordered : bid ≤ ask := by
    rw [Price.le_iff_toNat_le]
    omega
  refine ⟨ask.ticks - bid.ticks, ?_, ?_⟩
  · unfold spread?
    simp only [bestBid, bestAsk, if_pos ordered]
  · -- The difference of the words is that of the numbers, since the bid is the smaller one.
    have difference := UInt64.toNat_sub_of_le ask.ticks bid.ticks ordered
    rw [UInt64.lt_iff_toNat_lt, UInt64.toNat_zero, difference]
    omega

/-- A book without bids or without asks has no spread. -/
theorem Sound.spread?_of_one (sound : book.Sound) (oneSided : book.orders .buy = [] ∨ book.orders .sell = []) :
    book.spread? = none := by
  unfold spread?
  -- A spread needs both best prices, and one of them is missing.
  rcases oneSided with noBids | noAsks
  · have noBest : book.bestBid? = none := (sound.bestPrice?_eq_none .buy).mpr noBids
    rw [noBest]
  · have noBest : book.bestAsk? = none := (sound.bestPrice?_eq_none .sell).mpr noAsks
    rw [noBest]
    cases book.bestBid? <;> rfl

end OrderBook

/--
Levels, totals and index agree with the queues in every book that can be reached.

A book may be built by its own operations, crossed or not, or by following a stream. In the latter case whoever
rests has something left, no more than it came with, and is in the book's market.
-/
theorem representation_of_reachable :
    (∀ book : OrderBook, book.Reachable → book.Sound ∧ book.index.size = book.queued ∧
      ∀ side, ∀ level ∈ book.levels side, (book.levels side).level? level.price = some level) ∧
    ∀ book : Book, book.Reachable → book.orders.Sound ∧ book.orders.index.size = book.orders.queued ∧
      (∀ side, ∀ level ∈ book.orders.levels side, (book.orders.levels side).level? level.price = some level) ∧
      ∀ side, ∀ order ∈ book.orders.orders side,
        0 < order.remaining ∧ order.remaining ≤ order.quantity ∧ order.market = book.market := by
  -- Each level is the first of its price, since the prices of the levels differ.
  have found : ∀ {book : OrderBook}, book.Sound →
      ∀ side, ∀ level ∈ book.levels side, (book.levels side).level? level.price = some level :=
    fun sound side level member => (sound.levels side).level?_eq_some.mpr ⟨member, rfl⟩
  refine ⟨fun book reached => ?_, fun book reached => ?_⟩
  · exact ⟨reached.sound, reached.sound.index_size, found reached.sound⟩
  · refine ⟨reached.sound.orders, reached.sound.orders.index_size, found reached.sound.orders, ?_⟩
    intro side order member
    obtain ⟨positive, within, market⟩ := reached.sound.live order (OrderBook.mem_resting.mpr ⟨side, member⟩)
    exact ⟨UInt64.pos_iff_ne_zero.mpr positive, within, market⟩

/-- A crossed book and one that follows a stream, each with its queues, levels and index in agreement. -/
theorem representation_of_examples :
    (OrderBook.locked.top.isCrossed = true ∧ OrderBook.locked.Sound ∧ OrderBook.locked.index.size = 2) ∧
      Book.opened.orders.Sound ∧ Book.opened.orders.index.size = 1 := by
  -- One book is reached by orders alone and is locked; the other one is reached by events.
  obtain ⟨sound, size, -⟩ := representation_of_reachable.1 OrderBook.locked OrderBook.reachable_locked
  obtain ⟨sound', size', -⟩ := representation_of_reachable.2 Book.opened Book.reachable_opened
  refine ⟨⟨by decide +kernel, sound, ?_⟩, sound', ?_⟩
  · rw [size]
    decide +kernel
  · rw [size']
    decide +kernel

/-- No book that follows a stream is ever crossed: it has a positive spread whenever both sides wait. -/
theorem uncrossed_of_reachable {book : Book} (reached : book.Reachable) :
    (∀ bid ask, book.orders.bestBid? = some bid → book.orders.bestAsk? = some ask → bid < ask) ∧
    book.top.isCrossed = false ∧
    (book.orders.orders .buy ≠ [] ∧ book.orders.orders .sell ≠ [] →
      ∃ gap, book.orders.spread? = some gap ∧ 0 < gap) ∧
    (book.orders.orders .buy = [] ∨ book.orders.orders .sell = [] → book.orders.spread? = none) ∧
    ∀ taker, book.orders.matchCrossed taker = ([], book.orders) := by
  -- The order of the best prices is an invariant of the book, and all views follow it.
  have sound := reached.sound.orders
  have uncrossed := reached.sound.uncrossed
  refine ⟨fun bid ask bestBid bestAsk => sound.bestBid?_lt_bestAsk? uncrossed bestBid bestAsk,
    sound.isCrossed_top uncrossed, fun both => sound.spread?_of_both uncrossed both.1 both.2,
    sound.spread?_of_one, sound.matchCrossed_of_uncrossed uncrossed⟩

/-- Further orders: a buyer waits, another takes what the seller has left and waits, and a seller asks more. -/
def Book.quoting : List Book.Call :=
  [.apply ⟨⟨7⟩, 2, .add ⟨⟨3⟩, ⟨3⟩, 0, .buy, 4, ⟨90⟩⟩⟩, .apply ⟨⟨7⟩, 3, .add ⟨⟨4⟩, ⟨4⟩, 0, .buy, 5, ⟨100⟩⟩⟩,
    .apply ⟨⟨7⟩, 4, .add ⟨⟨5⟩, ⟨1⟩, 0, .sell, 1, ⟨101⟩⟩⟩]

/-- The book after the opening and these orders, with both sides waiting a tick apart. -/
def Book.quoted : Book := (Book.opened.run Book.quoting).2

/-- A tick lies between the best prices, and the buyer who has traded does not trade again. -/
theorem uncrossed_of_quoted :
    Book.quoted.Reachable ∧ Book.quoted.orders.bestBid? = some ⟨100⟩ ∧ Book.quoted.orders.bestAsk? = some ⟨101⟩ ∧
      (⟨100⟩ : Price) < ⟨101⟩ ∧ Book.quoted.top.isCrossed = false ∧
      (∃ gap, Book.quoted.orders.spread? = some gap ∧ 0 < gap) ∧
      Book.quoted.orders.matchCrossed ⟨4⟩ = ([], Book.quoted.orders) := by
  -- The best prices of both sides are computed, and the rest follows from the law for reached books.
  have reached : Book.quoted.Reachable := Book.reachable_opened.run Book.quoting
  have bid : Book.quoted.orders.bestBid? = some ⟨100⟩ := by decide +kernel
  have ask : Book.quoted.orders.bestAsk? = some ⟨101⟩ := by decide +kernel
  obtain ⟨below, apart, twoSided, -, still⟩ := uncrossed_of_reachable reached
  exact ⟨reached, bid, ask, below _ _ bid ask, apart, twoSided ⟨by decide +kernel, by decide +kernel⟩, still ⟨4⟩⟩

end LimitBook
