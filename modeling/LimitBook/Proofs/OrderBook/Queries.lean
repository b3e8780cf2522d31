import LimitBook.Proofs.Depth
import LimitBook.Proofs.OrderBook.Record
import LimitBook.Proofs.OrderBook.Settlement
import Mathlib.Data.List.Dedup

/-!
What a book answers when it is asked. Cached totals, the best levels and the index give the same answers as going
through a plain list of all resting orders for every question.
-/

namespace LimitBook

namespace Reference

/-- The prices at which somebody of a side is live, each once and the best first. -/
def prices (live : List Order) (side : Side) : List Price :=
  (((live.filter (·.side = side)).map Order.price).dedup).mergeSort fun p q => ¬side.Better q p

/-- A price in one line: what all live orders of a side have left there, and how many they are. -/
def lineAt (live : List Order) (side : Side) (price : Price) : DepthLevel :=
  ⟨price, UInt64.ofNat (sizeAt live side price),
    (live.filter fun order => order.side = side ∧ order.price = price).length⟩

/-- So many best prices of each side. -/
def depth (live : List Order) (n : Nat) : Depth :=
  { bids := ((prices live .buy).take n).map (lineAt live .buy)
    asks := ((prices live .sell).take n).map (lineAt live .sell) }

variable {live : List Order} {orders : OrderBook} {side : Side} {price : Price} {n m : Nat}

section Prices

/-- Somebody is live at each of the prices, and at no others. -/
theorem mem_prices : price ∈ prices live side ↔ ∃ order ∈ live, order.side = side ∧ order.price = price := by
  -- A price is listed once for all live orders that stand at it.
  unfold prices
  rw [List.mem_mergeSort, List.mem_dedup, List.mem_map]
  simp only [List.mem_filter, decide_eq_true_eq, and_assoc]

/-- Each of the prices is strictly better than those after it. -/
theorem prices_ordered (live : List Order) (side : Side) : (prices live side).Pairwise side.Better := by
  -- The prices are listed once each, sorted by how good they are.
  have distinct : (prices live side).Nodup :=
    (List.mergeSort_perm _ _).nodup_iff.mpr (List.nodup_dedup _)
  have sorted : (prices live side).Pairwise fun p q => decide (¬side.Better q p) = true := by
    refine List.pairwise_mergeSort (fun p q r first second => ?_) (fun p q => ?_) _
    · rw [decide_eq_true_eq, Side.better_iff_rank_lt] at *
      omega
    · rw [Bool.or_eq_true, decide_eq_true_eq, decide_eq_true_eq, Side.better_iff_rank_lt, Side.better_iff_rank_lt]
      omega
  -- Of two different prices in their order the first is the better one.
  refine sorted.imp₂ (fun p q notWorse differs => ?_) distinct
  by_cases better : side.Better p q
  · exact better
  · exact absurd (Side.eq_of_not_better better (of_decide_eq_true notWorse)) differs

/-- Prices in strict order are settled by which of them there are. -/
theorem eq_of_ordered {first second : List Price} (ordered : first.Pairwise side.Better)
    (ordered' : second.Pairwise side.Better) (same : ∀ price, price ∈ first ↔ price ∈ second) : first = second := by
  -- Strictly ordered prices never repeat, and two orders of the same prices are the same list.
  have nodup : ∀ {list : List Price}, list.Pairwise side.Better → list.Nodup := by
    intro list better
    refine better.imp fun isBetter same => ?_
    subst same
    exact Side.better_irrefl side _ isBetter
  refine List.Perm.eq_of_pairwise (fun p q _ _ better worse => absurd worse (Side.better_asymm better)) ordered
    ordered' ?_
  exact (List.perm_ext_iff_of_nodup (nodup ordered) (nodup ordered')).mpr same

end Prices

section Levels

/-- The levels of a side stand at the prices at which somebody is live. -/
theorem Holds.prices_eq (holds : Holds live orders) (side : Side) :
    (orders.levels side).map Level.price = prices live side := by
  have sound := holds.sound.levels side
  refine eq_of_ordered (List.pairwise_map.mpr sound.ordered) (prices_ordered live side) fun price => ?_
  rw [mem_prices, List.mem_map]
  constructor
  · intro ⟨level, isLevel, here⟩
    -- Somebody waits at every level.
    obtain ⟨order, waits⟩ := List.exists_mem_of_ne_nil _ (sound.level level isLevel).occupied
    obtain ⟨isLive, own⟩ := (holds.lists side).mem_iff.mp (BookSide.mem_orders.mpr ⟨level, isLevel, waits⟩)
    exact ⟨order, isLive, own, ((sound.level level isLevel).prices order waits).trans here⟩
  · intro ⟨order, isLive, own, here⟩
    obtain ⟨level, isLevel, waits⟩ := BookSide.mem_orders.mp ((holds.lists side).mem_iff.mpr ⟨isLive, own⟩)
    exact ⟨level, isLevel, ((sound.level level isLevel).prices order waits).symm.trans here⟩

/-- A level in one line says what a scan for its price finds. -/
theorem Holds.aggregate_eq (holds : Holds live orders) {level : Level} (isLevel : level ∈ orders.levels side) :
    OrderBook.aggregate level = lineAt live side level.price := by
  have sound := holds.sound.levels side
  have found := sound.level?_eq_some.mpr ⟨isLevel, rfl⟩
  -- Whoever is live at the price waits at the level.
  have here : live.filter (fun order => order.side = side ∧ order.price = level.price) = level.orders := by
    rw [← holds.lists side level.price]
    exact (sound.atPrice level.price).trans (by rw [found]; rfl)
  have total : UInt64.ofNat (sizeAt live side level.price) = level.total := by
    unfold sizeAt
    rw [here, ← (sound.level level isLevel).total, UInt64.ofNat_toNat]
  unfold OrderBook.aggregate lineAt Level.size
  rw [here, total]

/-- The best levels in one line each are the best prices in one line each. -/
theorem Holds.depth_eq (holds : Holds live orders) (n : Nat) : orders.depth n = depth live n := by
  -- Level by level, a line is told by the orders of its price.
  have lines : ∀ side, ((orders.levels side).take n).map OrderBook.aggregate =
      ((prices live side).take n).map (lineAt live side) := by
    intro side
    rw [← holds.prices_eq side, ← List.map_take, List.map_map]
    exact List.map_congr_left fun level shown => holds.aggregate_eq (List.mem_of_mem_take shown)
  have bids : (orders.depth n).bids = _ := lines .buy
  have asks : (orders.depth n).asks = _ := lines .sell
  unfold depth
  rw [← bids, ← asks]

/-- What the live orders have left at a price is a word. -/
theorem Holds.sizeAt_lt (holds : Holds live orders) (side : Side) (price : Price) :
    sizeAt live side price < UInt64.size := by
  -- The size at a price is that of its level, which is a word.
  rw [(holds.lists side).sizeAt_eq]
  exact (holds.sound.levels side).restingSize_atPrice_lt price

/-- The best price of a side is one at which somebody is live, and nobody of the side is at a better one. -/
theorem Holds.bestPrice?_eq_some (holds : Holds live orders) (side : Side) (price : Price) :
    (orders.levels side).bestPrice? = some price ↔
      (∃ order ∈ live, order.side = side ∧ order.price = price) ∧
        ∀ order ∈ live, order.side = side → ¬side.Better order.price price := by
  -- The best price is the first one that is listed.
  have ordered := prices_ordered live side
  have best : (orders.levels side).bestPrice? = (prices live side).head? := by
    rw [← holds.prices_eq side, List.head?_map]
    rfl
  have others : (∀ order ∈ live, order.side = side → ¬side.Better order.price price) ↔
      ∀ other ∈ prices live side, ¬side.Better other price := by
    constructor
    · intro noBetter other member
      obtain ⟨order, isLive, own, rfl⟩ := mem_prices.mp member
      exact noBetter order isLive own
    · intro noBetter order isLive own
      exact noBetter order.price (mem_prices.mpr ⟨order, isLive, own, rfl⟩)
  rw [best, others, ← mem_prices]
  -- The prices stand in order, so none is better than the first.
  generalize prices live side = listed at ordered ⊢
  cases listed with
  | nil => simp
  | cons first later =>
    obtain ⟨better, -⟩ := List.pairwise_cons.mp ordered
    rw [List.head?_cons, Option.some.injEq]
    constructor
    · rintro rfl
      refine ⟨List.mem_cons_self, fun other member => ?_⟩
      rcases List.mem_cons.mp member with rfl | behind
      · exact Side.better_irrefl side other
      · exact Side.better_asymm (better other behind)
    · intro ⟨member, noBetter⟩
      rcases List.mem_cons.mp member with rfl | behind
      · rfl
      · exact absurd (better price behind) (noBetter first List.mem_cons_self)

end Levels

section Whole

/-- Everybody in the queues is live, and everybody who is live is in one of them. -/
theorem Holds.resting_perm (holds : Holds live orders) : orders.resting.Perm live :=
  -- Both lists hold the same orders, none of them twice.
  (List.perm_ext_iff_of_nodup (List.Nodup.of_map _ holds.sound.distinct) (List.Nodup.of_map _ holds.distinct)).mpr
    fun _ => holds.mem_iff.symm

/-- A view of all levels shows all that rests. -/
theorem Holds.quantities_eq (holds : Holds live orders) (all : ∀ side, (prices live side).length ≤ n) :
    (orders.depth n).bidQuantity + (orders.depth n).askQuantity = orders.restingQuantity := by
  -- There are no more levels than prices, so that all of them are shown.
  have whole : ∀ side, (orders.levels side).take n = orders.levels side := by
    intro side
    refine List.take_of_length_le ?_
    rw [← List.length_map Level.price, holds.prices_eq side]
    exact all side
  have bids : orders.bids.take n = orders.bids := whole .buy
  have asks : orders.asks.take n = orders.asks := whole .sell
  unfold Depth.bidQuantity Depth.askQuantity OrderBook.depth OrderBook.restingQuantity Depth.totalQuantity
  rw [bids, asks, List.foldr_map, List.foldr_map, foldr_add_append]
  rfl

end Whole

end Reference

namespace OrderBook

/--
What a book answers about the orders that rest in it, which are given in the order in which they came to rest.

The best order of a side and the sizes at the top are those that scans of the list find. The prices are those at which
somebody rests, each once and the best first, and every line has the exact size and count of a scan for its price.
-/
structure Answers (record : List Order) (book : OrderBook) : Prop where
  together : (book.orders .buy ++ book.orders .sell).Perm record
  inTurn : ∀ side price, Queue.atPrice (book.orders side) price =
    record.filter fun order => order.side = side ∧ order.price = price
  bestBid : ∀ price, book.bestBid? = some price ↔
    (∃ order ∈ record, order.side = .buy ∧ order.price = price) ∧
      ∀ order ∈ record, order.side = .buy → order.price ≤ price
  bestAsk : ∀ price, book.bestAsk? = some price ↔
    (∃ order ∈ record, order.side = .sell ∧ order.price = price) ∧
      ∀ order ∈ record, order.side = .sell → price ≤ order.price
  bestOrder : ∀ side, book.bestOrder? side = Reference.best? record side
  top : book.top = Reference.top record
  words : ∀ side price, Reference.sizeAt record side price < UInt64.size
  ordered : ∀ side, (Reference.prices record side).Pairwise side.Better
  listed : ∀ side price, price ∈ Reference.prices record side ↔
    ∃ order ∈ record, order.side = side ∧ order.price = price
  depth : ∀ n, book.depth n = Reference.depth record n
  cut : ∀ n m, n ≤ m → (book.depth n).bids <+: (book.depth m).bids ∧ (book.depth n).asks <+: (book.depth m).asks
  quantities : ∀ n, (∀ side, (Reference.prices record side).length ≤ n) →
    (book.depth n).bidQuantity + (book.depth n).askQuantity = book.restingQuantity
  restingQuantity : book.restingQuantity = restingSize record
  orderCount : book.orderCount = record.length
  isEmpty : book.isEmpty = true ↔ record = []
  contains : ∀ id, book.contains id = true ↔ ∃ order ∈ record, order.id = id
  find : ∀ id order, book.find? id = some order ↔ order ∈ record ∧ order.id = id

variable {book : OrderBook} {record : List Order}

/-- A view of fewer levels is the beginning of one of more. -/
theorem depth_isPrefix (book : OrderBook) {n m : Nat} (fewer : n ≤ m) :
    (book.depth n).bids <+: (book.depth m).bids ∧ (book.depth n).asks <+: (book.depth m).asks :=
  ⟨(List.take_prefix_take_left fewer).map _, (List.take_prefix_take_left fewer).map _⟩

/-- As many orders are counted as are on record. -/
theorem orderCount_of_holds (holds : Reference.Holds record book) : book.orderCount = record.length := by
  -- The orders of the record are those that rest, and the index counts these.
  rw [← holds.resting_perm.length_eq, resting, List.length_append]
  exact holds.sound.index_size

/-- A book whose orders are held by a list answers as the list does. -/
theorem answers_of_holds (holds : Reference.Holds record book) : Answers record book where
  together := holds.resting_perm
  inTurn := holds.lists
  bestBid := by
    intro price
    have best : book.bestBid? = some price ↔ _ := holds.bestPrice?_eq_some .buy price
    rw [best]
    simp only [Side.Better, Price.lt_iff_toNat_lt, Price.le_iff_toNat_le, Nat.not_lt]
  bestAsk := by
    intro price
    have best : book.bestAsk? = some price ↔ _ := holds.bestPrice?_eq_some .sell price
    rw [best]
    simp only [Side.Better, Price.lt_iff_toNat_lt, Price.le_iff_toNat_le, Nat.not_lt]
  bestOrder := by
    intro side
    rw [holds.sound.bestOrder?]
    exact ((holds.lists side).best?_eq (holds.sound.levels side).inPriority).symm
  top := holds.top_eq.symm
  words := holds.sizeAt_lt
  ordered := Reference.prices_ordered record
  listed := fun _ _ => Reference.mem_prices
  depth := holds.depth_eq
  cut := fun _ _ => book.depth_isPrefix
  quantities := fun _ => holds.quantities_eq
  restingQuantity := by rw [holds.sound.restingQuantity_eq, restingSize_perm holds.resting_perm]
  orderCount := orderCount_of_holds holds
  isEmpty := by
    -- The index is empty exactly if it counts nobody.
    have count := orderCount_of_holds holds
    unfold OrderBook.orderCount at count
    unfold OrderBook.isEmpty
    rw [Std.ExtTreeMap.isEmpty_eq_size_beq_zero, count, beq_iff_eq, List.length_eq_zero_iff]
  contains := by
    intro id
    rw [holds.rests_iff]
    exact holds.sound.contains_iff
  find := by
    intro id order
    rw [holds.sound.find?_eq_some, holds.mem_iff]

/--
Every question to a book is answered as a scan of all resting orders answers it, whatever operations have built it.

The orders are taken in the order in which they came to rest, which no operation but joining can extend. So the cached
totals, the best levels and the index are in step with the queues at all times, in crossed books too.
-/
theorem answers_of_reachable (reached : book.Reachable) :
    (∃ record, Recorded record book) ∧ ∀ record, Recorded record book → Answers record book :=
  ⟨reached.exists_recorded, fun _ recorded => answers_of_holds recorded.holds⟩

/-- The contested book after its first buyer was matched, which leaves it crossed. -/
def settled : OrderBook := contested.perform (.matchCrossed ⟨5⟩)

/-- Matching may be asked for at any time. -/
theorem reachable_settled : settled.Reachable := .step reachable_contested trivial

/-- The settled book is crossed, and answers for the three orders that are left in it. -/
theorem answers_of_settled :
    settled.top.isCrossed = true ∧
      ∃ record, Recorded record settled ∧ Answers record settled ∧ record.length = 3 ∧ restingSize record = 17 ∧
        ⟨⟨3⟩, ⟨7⟩, ⟨2⟩, .sell, ⟨102⟩, 4, 2, 0, 2⟩ ∈ record := by
  -- The record exists because the book is reached, and its size is told by the answers.
  obtain ⟨⟨record, recorded⟩, answers⟩ := answers_of_reachable reachable_settled
  have answer := answers record recorded
  refine ⟨by decide +kernel, record, recorded, answer, ?_, ?_, ?_⟩
  · rw [← answer.orderCount]
    decide +kernel
  · rw [← answer.restingQuantity]
    decide +kernel
  · exact ((answer.find ⟨3⟩ _).mp (by decide +kernel)).1

end OrderBook

end LimitBook
