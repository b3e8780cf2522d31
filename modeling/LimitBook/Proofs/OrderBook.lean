import LimitBook.Proofs.BookSide

/-!
The representation invariant of a book, and what each operation does under it: one queue changes as plain lists
do, the other stays as it was, and levels, totals and index follow.
-/

namespace LimitBook.OrderBook

/-- Everybody who rests in a book, the buyers first. -/
def resting (book : OrderBook) : List Order := book.orders .buy ++ book.orders .sell

/-- An order of this number rests on either side. -/
def Rests (book : OrderBook) (id : OrderId) : Prop := ∃ order ∈ book.resting, order.id = id

/-- Whether an order rests is settled by going through the queues. -/
instance (book : OrderBook) (id : OrderId) : Decidable (book.Rests id) :=
  inferInstanceAs (Decidable (∃ order ∈ book.resting, order.id = id))

/-- The index knows exactly the resting orders, each under its own side and price. -/
def Indexed (book : OrderBook) : Prop :=
  ∀ id side price, book.index[id]? = some (side, price) ↔
    ∃ order ∈ book.orders side, order.id = id ∧ order.price = price

/-- Both sides are sound, no number comes twice, and the index is exact. -/
structure Sound (book : OrderBook) : Prop where
  levels : ∀ side, (book.levels side).Sound side
  distinct : (book.resting.map Order.id).Nodup
  indexed : book.Indexed

/-- A sound book that differs from another in the queue of one side only. -/
structure Requeued (book : OrderBook) (side : Side) (queue : List Order) (next : OrderBook) : Prop where
  sound : next.Sound
  market : next.market = book.market
  own : next.orders side = queue
  other : next.orders side.opposite = book.orders side.opposite

variable {book next : OrderBook} {side : Side} {order : Order} {id : OrderId}

/-- Who rests stands in the queue of one of the sides. -/
theorem mem_resting : order ∈ book.resting ↔ ∃ side, order ∈ book.orders side := by
  unfold resting
  rw [List.mem_append]
  -- Being in one of two lists is being in the list of some side.
  constructor
  · rintro (bid | ask)
    · exact ⟨.buy, bid⟩
    · exact ⟨.sell, ask⟩
  · rintro ⟨_ | _, member⟩
    · exact .inl member
    · exact .inr member

/-- A number rests if an order of it stands in the queue of one of the sides. -/
theorem rests_of_mem (member : order ∈ book.orders side) : book.Rests order.id :=
  ⟨order, mem_resting.mpr ⟨side, member⟩, rfl⟩

/-- Whichever side is named first, the same orders rest. -/
theorem resting_perm (book : OrderBook) (side : Side) :
    book.resting.Perm (book.orders side ++ book.orders side.opposite) := by
  -- Buys are listed ahead of sells, so that only for the sells the two parts change their places.
  cases side
  · exact .refl _
  · exact List.perm_append_comm

/-- The index plays no part in the levels. -/
@[simp] theorem levels_withIndex (book : OrderBook) (index : Std.ExtTreeMap OrderId (Side × Price)) (side : Side) :
    OrderBook.levels { book with index } side = book.levels side := by
  cases side <;> rfl

/-- Changing a side leaves the market alone. -/
theorem market_setLevels (book : OrderBook) (side : Side) (levels : BookSide) :
    (book.setLevels side levels).market = book.market := by
  cases side <;> rfl

/-- The queue of a level is part of the queue of its side. -/
theorem sublist_orders {level : Level} (isLevel : level ∈ book.levels side) :
    level.orders.Sublist (book.orders side) := by
  -- A level is one of the parts that the orders of its side are put together from.
  unfold OrderBook.orders BookSide.orders
  rw [List.flatMap_def]
  exact List.sublist_flatten_of_mem (List.mem_map_of_mem isLevel)

/-- A book in which nothing rests is sound. -/
theorem sound_empty (market : MarketId) : (OrderBook.empty market).Sound where
  levels := by rintro (_ | _) <;> exact BookSide.sound_nil _
  distinct := .nil
  indexed := by
    -- There is no entry in the index and no order in either queue.
    rintro id (_ | _) price <;> simp [OrderBook.empty, OrderBook.orders, OrderBook.levels]

namespace Sound

/-- The numbers of a side come once, and none of them comes on the other side. -/
theorem distinct_side (sound : book.Sound) (side : Side) :
    ((book.orders side).map Order.id ++ (book.orders side.opposite).map Order.id).Nodup := by
  -- Both sides together are all that rests, in another order at most.
  rw [← List.map_append, ← ((resting_perm book side).map Order.id).nodup_iff]
  exact sound.distinct

/-- The numbers of one queue come once. -/
theorem distinct_queue (sound : book.Sound) (side : Side) : ((book.orders side).map Order.id).Nodup :=
  (List.nodup_append.mp (sound.distinct_side side)).1

/-- The numbers at one level come once. -/
theorem distinct_level (sound : book.Sound) {level : Level} (isLevel : level ∈ book.levels side) :
    (level.orders.map Order.id).Nodup :=
  -- They are among those of the queue.
  (sound.distinct_queue side).sublist ((sublist_orders isLevel).map Order.id)

/-- Orders that face each other have different numbers. -/
theorem id_ne_opposite (sound : book.Sound) {other : Order} (own : order ∈ book.orders side)
    (faced : other ∈ book.orders side.opposite) : order.id ≠ other.id :=
  -- The numbers of one side are none of the other.
  (List.nodup_append.mp (sound.distinct_side side)).2.2 order.id (List.mem_map_of_mem own) other.id
    (List.mem_map_of_mem faced)

/-- Orders of a queue belong to its side. -/
theorem side_eq (sound : book.Sound) (member : order ∈ book.orders side) : order.side = side :=
  (sound.levels side).sides order member

/-- Going through everybody who rests, the orders of a side are those in its queue. -/
theorem filter_side (sound : book.Sound) (side : Side) : book.resting.filter (·.side = side) = book.orders side := by
  -- Each of the two parts is kept as a whole or dropped as a whole.
  have part : ∀ any, (book.orders any).filter (·.side = side) = if any = side then book.orders any else [] := by
    intro any
    split
    · next same => exact List.filter_eq_self.mpr fun order member => decide_eq_true ((sound.side_eq member).trans same)
    · next apart =>
      refine List.filter_eq_nil_iff.mpr fun order member => ?_
      rw [sound.side_eq member]
      simpa using apart
  unfold resting
  rw [List.filter_append, part, part]
  cases side <;> simp

/-- The index lists a number exactly if an order of it rests. -/
theorem contains_iff (sound : book.Sound) : book.index.contains id = true ↔ book.Rests id := by
  rw [Std.ExtTreeMap.contains_eq_isSome_getElem?, Option.isSome_iff_exists]
  constructor
  · intro ⟨⟨side, price⟩, entry⟩
    -- The entry leads to an order of that number.
    obtain ⟨order, member, rfl, -⟩ := (sound.indexed id side price).mp entry
    exact rests_of_mem member
  · intro found
    obtain ⟨order, member, rfl⟩ := found
    obtain ⟨side, member⟩ := mem_resting.mp member
    -- The order has an entry under its own side and price.
    exact ⟨(side, order.price), (sound.indexed _ _ _).mpr ⟨order, member, rfl, rfl⟩⟩

/-- The index lists nobody twice and nobody who is gone: it is as large as the queues are long. -/
theorem index_size (sound : book.Sound) : book.index.size = book.queued := by
  -- Its keys and the numbers in the queues are the same numbers, each listed once.
  have same : book.index.keys.Perm (book.resting.map Order.id) := by
    rw [List.perm_ext_iff_of_nodup Std.ExtTreeMap.nodup_keys sound.distinct]
    intro id
    rw [Std.ExtTreeMap.mem_keys, ← Std.ExtTreeMap.contains_iff_mem, sound.contains_iff, List.mem_map]
    rfl
  have sizes := same.length_eq
  rw [Std.ExtTreeMap.length_keys, List.length_map] at sizes
  rw [sizes, resting, List.length_append, queued]

/-- Queues and market say everything about a sound book. -/
theorem eq_of_orders_eq {other : OrderBook} (sound : book.Sound) (soundOther : other.Sound)
    (market : book.market = other.market) (same : ∀ side, book.orders side = other.orders side) :
    book = other := by
  -- The queues of a side determine its levels, and all queues together the index.
  have bids : book.bids = other.bids :=
    (sound.levels .buy).eq_of_orders_eq (soundOther.levels .buy) (same .buy)
  have asks : book.asks = other.asks :=
    (sound.levels .sell).eq_of_orders_eq (soundOther.levels .sell) (same .sell)
  have index : book.index = other.index := by
    -- An entry stands for an order in a queue, and the queues are the same.
    refine Std.ExtTreeMap.ext_getElem? fun id => Option.ext fun ⟨side, price⟩ => ?_
    rw [sound.indexed, soundOther.indexed, same]
  cases book; cases other
  simp_all

/-- The order served next on a side is the first of its queue. -/
theorem bestOrder? (sound : book.Sound) (side : Side) : book.bestOrder? side = (book.orders side).head? :=
  (sound.levels side).front?

/-- A side replaced by a sound one, with an index that says so, makes a sound book. -/
theorem requeue (sound : book.Sound) {levels : BookSide} {index : Std.ExtTreeMap OrderId (Side × Price)}
    (soundSide : levels.Sound side)
    (distinct : (levels.orders.map Order.id ++ (book.orders side.opposite).map Order.id).Nodup)
    (own : ∀ id price, index[id]? = some (side, price) ↔
      ∃ order ∈ levels.orders, order.id = id ∧ order.price = price)
    (other : ∀ id price, index[id]? = some (side.opposite, price) ↔
      ∃ order ∈ book.orders side.opposite, order.id = id ∧ order.price = price) :
    Requeued book side levels.orders { book.setLevels side levels with index } := by
  have ownQueue : OrderBook.orders { book.setLevels side levels with index } side = levels.orders := by
    simp [OrderBook.orders]
  have otherQueue : OrderBook.orders { book.setLevels side levels with index } side.opposite =
      book.orders side.opposite := by
    simp [OrderBook.orders]
  refine ⟨⟨fun any => ?_, ?_, fun id any price => ?_⟩, market_setLevels .., ownQueue, otherQueue⟩
  · -- One side was replaced by a sound one, and the other was sound before.
    rcases Side.eq_or_eq_opposite any side with rfl | rfl
    · simpa using soundSide
    · simpa using sound.levels side.opposite
  · -- Nobody who rests has a number twice, whichever side is counted first.
    rw [((resting_perm _ side).map Order.id).nodup_iff, List.map_append, ownQueue, otherQueue]
    exact distinct
  · -- The entries of a side are those that the hypotheses describe.
    rcases Side.eq_or_eq_opposite any side with rfl | rfl
    · rw [ownQueue]
      exact own id price
    · rw [otherQueue]
      exact other id price

end Sound

end LimitBook.OrderBook
