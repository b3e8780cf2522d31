import LimitBook.Proofs.OrderBook.Sweep

/-!
What an incoming order trades, settled in advance. Its size is handed out along the orders in its reach, the first
served first, until one of the two is used up; that fixes every fill, what is left of it, and who is left facing it.
-/

namespace LimitBook

namespace Queue

/-- The orders that one of this limit may trade with: all before the first whose price it does not cross. -/
def inReach (side : Side) (limit : Price) (queue : List Order) : List Order :=
  queue.takeWhile fun order => side.Crosses limit order.price

/-- A queue whose first orders have traded: each keeps its place with what is left of it, or leaves if nothing is. -/
def afterTrades : List Quantity → List Order → List Order
  | quantity :: quantities, order :: later => (order.reduced? quantity).toList ++ afterTrades quantities later
  -- Whoever stands behind the last trade is not touched by any.
  | _, queue => queue

variable {side : Side} {limit : Price} {order first : Order} {queue later : List Order}

/-- Nobody is in reach of an empty queue. -/
@[simp] theorem inReach_nil (side : Side) (limit : Price) : inReach side limit [] = [] := rfl

/-- A first order whose price is crossed is in reach, and the others are judged after it. -/
theorem inReach_cons_of_crossing (crossing : side.Crosses limit first.price) :
    inReach side limit (first :: later) = first :: inReach side limit later :=
  List.takeWhile_cons_of_pos (decide_eq_true crossing)

/-- A first order whose price is not crossed ends the reach. -/
theorem inReach_cons_of_apart (apart : ¬side.Crosses limit first.price) : inReach side limit (first :: later) = [] :=
  List.takeWhile_cons_of_neg (by simpa using apart)

/-- Whoever is in reach stands in the queue, at a price that is crossed. -/
theorem mem_inReach (member : order ∈ inReach side limit queue) : order ∈ queue ∧ side.Crosses limit order.price :=
  ⟨(List.takeWhile_sublist _).subset member, of_decide_eq_true (List.all_eq_true.mp List.all_takeWhile order member)⟩

/-- Somebody is in reach exactly if the first of the queue is. -/
theorem inReach_eq_nil_iff :
    inReach side limit queue = [] ↔ ∀ first, queue.head? = some first → ¬side.Crosses limit first.price := by
  cases queue with
  | nil => simp
  | cons first later =>
    -- The first order is kept or ends the reach.
    by_cases crossing : side.Crosses limit first.price
    · simp [inReach_cons_of_crossing crossing, crossing]
    · simp [inReach_cons_of_apart crossing, crossing]

end Queue

/-- What a fill says of its two orders: who they are, at whose price they trade, and whether that order is used up. -/
structure Fill.Between (fill : Fill) (incoming resting : Order) : Prop where
  maker : fill.maker = resting.id
  makerOwner : fill.makerOwner = resting.owner
  taker : fill.taker = incoming.id
  takerOwner : fill.takerOwner = incoming.owner
  takerSide : fill.takerSide = incoming.side
  price : fill.price = resting.price
  within : fill.quantity ≤ resting.remaining
  makerFilled : fill.makerFilled = true ↔ fill.quantity = resting.remaining

/--
Fills that hand out the size of an incoming order along the orders in its reach.

The fill at each place is with the order at that place, and all but the last take the whole of it. Together they
take what is there to take, and only the last of them can use up the incoming order.
-/
structure Allocates (incoming : Order) (reach : List Order) (fills : List Fill) : Prop where
  served : ∀ i fill, fills[i]? = some fill → ∃ maker, reach[i]? = some maker ∧ fill.Between incoming maker ∧
    (i + 1 < fills.length → fill.quantity = maker.remaining)
  takerFilled : ∀ i fill, fills[i]? = some fill →
    (fill.takerFilled = true ↔ i + 1 = fills.length ∧ incoming.remaining.toNat ≤ restingSize reach)
  executed : executedQuantity fills = min incoming.remaining.toNat (restingSize reach)
  idle : fills = [] ↔ reach = []

section Steps

variable {side : Side} {incoming resting left : Order} {later : List Order} {fills : List Fill}

/-- The fill of two orders is between them. -/
theorem between_fillOf (own : incoming.side = side) :
    (OrderBook.fillOf side incoming resting).Between incoming resting where
  maker := rfl
  makerOwner := rfl
  taker := rfl
  takerOwner := rfl
  takerSide := own.symm
  price := rfl
  within := OrderBook.fillOf_quantity_le_resting
  makerFilled := by
    -- The flag compares the same two sizes the other way round.
    show (resting.remaining == (OrderBook.fillOf side incoming resting).quantity) = true ↔ _
    rw [beq_iff_eq, eq_comm]

/-- A fill marks its incoming order as used up exactly if nothing is left of it. -/
theorem takerFilled_fillOf :
    (OrderBook.fillOf side incoming resting).takerFilled = true ↔
      incoming.reduced? (OrderBook.fillOf side incoming resting).quantity = none := by
  -- The flag says that nothing is left of the incoming order.
  show (incoming.remaining == (OrderBook.fillOf side incoming resting).quantity) = true ↔ _
  rw [OrderBook.reduced?_eq_none_iff OrderBook.fillOf_quantity_le_incoming, beq_iff_eq]

/-- A trade that leaves something of the incoming order takes the whole of the resting one. -/
theorem takes_whole (rest : incoming.reduced? (OrderBook.fillOf side incoming resting).quantity = some left) :
    (OrderBook.fillOf side incoming resting).quantity = resting.remaining ∧
      incoming.remaining.toNat = resting.remaining.toNat + left.remaining.toNat ∧ 0 < left.remaining.toNat := by
  have taken : resting.remaining = (OrderBook.fillOf side incoming resting).quantity :=
    (OrderBook.reduced?_eq_none_iff OrderBook.fillOf_quantity_le_resting).mp (OrderBook.reduced?_resting rest)
  have within : (OrderBook.fillOf side incoming resting).quantity ≤ incoming.remaining :=
    OrderBook.fillOf_quantity_le_incoming
  -- What the resting order had is what the incoming one has less.
  have less := OrderBook.restingSize_reduced? within
  rw [rest, ← taken, Option.toList_some, restingSize_cons, restingSize_nil, Nat.add_zero] at less
  refine ⟨taken.symm, less, ?_⟩
  obtain ⟨isLess, positive⟩ := Order.reduced?_eq_some rest
  rw [isLess]
  exact Nat.pos_of_ne_zero fun zero => positive (UInt64.toNat_inj.mp zero)

/-- With nobody in reach there is nothing to hand out. -/
theorem Allocates.nil (incoming : Order) : Allocates incoming [] [] where
  -- Nobody is in reach, and there is no fill to speak of.
  served := by simp
  takerFilled := by simp
  executed := by simp [executedQuantity]
  idle := by simp

/-- An incoming order that its first trade uses up makes no other. -/
theorem Allocates.last (own : incoming.side = side)
    (usedUp : incoming.reduced? (OrderBook.fillOf side incoming resting).quantity = none) :
    Allocates incoming (resting :: later) [OrderBook.fillOf side incoming resting] := by
  -- All of the incoming order is traded, and the first order it faces had enough.
  have size : incoming.remaining.toNat = (OrderBook.fillOf side incoming resting).quantity.toNat := by
    rw [(OrderBook.reduced?_eq_none_iff OrderBook.fillOf_quantity_le_incoming).mp usedUp]
  have enough : (OrderBook.fillOf side incoming resting).quantity.toNat ≤ resting.remaining.toNat :=
    UInt64.le_iff_toNat_le.mp OrderBook.fillOf_quantity_le_resting
  refine ⟨fun i fill found => ?_, fun i fill found => ?_, ?_, by simp⟩
  · -- There is one fill, and nothing after it.
    cases i with
    | zero =>
      obtain rfl := Option.some.inj found
      exact ⟨resting, rfl, between_fillOf own, fun another => absurd another (by simp)⟩
    | succ i => simp at found
  · cases i with
    | zero =>
      obtain rfl := Option.some.inj found
      rw [takerFilled_fillOf, restingSize_cons]
      exact ⟨fun _ => ⟨rfl, by omega⟩, fun _ => usedUp⟩
    | succ i => simp at found
  · simp only [executedQuantity, List.foldr_cons, List.foldr_nil, restingSize_cons]
    omega

/-- An incoming order of which something is left takes all of the first order in reach and goes on with the rest. -/
theorem Allocates.cons (own : incoming.side = side)
    (rest : incoming.reduced? (OrderBook.fillOf side incoming resting).quantity = some left)
    (further : Allocates left later fills) :
    Allocates incoming (resting :: later) (OrderBook.fillOf side incoming resting :: fills) := by
  have isLess := (Order.reduced?_eq_some rest).1
  obtain ⟨taken, size, leftover⟩ := takes_whole rest
  refine ⟨fun i fill found => ?_, fun i fill found => ?_, ?_, by simp⟩
  · -- The first fill is with the first order in reach, and the others are told by what follows.
    cases i with
    | zero =>
      obtain rfl := Option.some.inj found
      exact ⟨resting, rfl, between_fillOf own, fun _ => taken⟩
    | succ i =>
      -- A later fill is with a later order, and the incoming order is the same but for its size.
      obtain ⟨maker, isMaker, between, whole⟩ := further.served i fill found
      rw [isLess] at between
      refine ⟨maker, isMaker, { between with }, fun another => whole ?_⟩
      rw [List.length_cons] at another
      omega
  · cases i with
    | zero =>
      -- The first fill does not use the incoming order up, and it is the last only if nobody else was in reach.
      obtain rfl := Option.some.inj found
      rw [takerFilled_fillOf, rest, restingSize_cons, List.length_cons]
      refine ⟨fun none => absurd none (by simp), fun ⟨isLast, enough⟩ => ?_⟩
      have nobody : later = [] := further.idle.mp (List.eq_nil_of_length_eq_zero (by omega))
      rw [nobody, restingSize_nil] at enough
      omega
    | succ i =>
      rw [further.takerFilled i fill found, restingSize_cons, List.length_cons]
      omega
  · have others := further.executed
    simp only [executedQuantity, List.foldr_cons, restingSize_cons] at others ⊢
    rw [others, taken]
    omega

end Steps

/-- An incoming order is used up by one of its fills exactly if there is enough in its reach. -/
theorem Allocates.exists_takerFilled_iff {incoming : Order} {reach : List Order} {fills : List Fill}
    (allocates : Allocates incoming reach fills) (positive : incoming.remaining ≠ 0) :
    (∃ fill ∈ fills, fill.takerFilled = true) ↔
      incoming.remaining.toNat ≤ restingSize reach ∧ 0 < restingSize reach := by
  have size : 0 < incoming.remaining.toNat := Nat.pos_of_ne_zero fun zero => positive (UInt64.toNat_inj.mp zero)
  constructor
  · -- The fill that uses the order up is the last, and then there was enough.
    intro ⟨fill, member, usedUp⟩
    obtain ⟨i, found⟩ := List.mem_iff_getElem?.mp member
    have enough := ((allocates.takerFilled i fill found).mp usedUp).2
    omega
  · intro ⟨enough, available⟩
    -- Somebody is in reach, so there is a last fill, and it is the one that uses the order up.
    have reached : reach ≠ [] := by
      rintro rfl
      simp at available
    have traded : fills.length ≠ 0 := mt List.eq_nil_of_length_eq_zero (mt allocates.idle.mp reached)
    have inRange : fills.length - 1 < fills.length := by omega
    have isLast := allocates.takerFilled _ _ (List.getElem?_eq_getElem inRange)
    exact ⟨_, List.getElem_mem inRange, isLast.mpr ⟨by omega, enough⟩⟩

section Sweep

variable {side : Side} {incoming : Order} {queue : List Order}

/-- A sweep hands the incoming order's size out along the orders in its reach. -/
theorem sweep_allocates (own : incoming.side = side) :
    Allocates incoming (Queue.inReach side incoming.price queue) (sweep side incoming queue).fills := by
  -- The induction is along the sweep, which ends at the first order out of reach.
  fun_induction sweep side incoming queue with
  -- Nobody waits.
  | case1 incoming => exact .nil incoming
  | case2 incoming resting waiting crossing fill usedUp =>
    have crosses : side.Crosses incoming.price resting.price := own ▸ crossing
    rw [Queue.inReach_cons_of_crossing crosses]
    exact .last own usedUp
  | case3 incoming resting waiting crossing fill left rest later ih =>
    have crosses : side.Crosses incoming.price resting.price := own ▸ crossing
    rw [Queue.inReach_cons_of_crossing crosses]
    -- What is left of the order has the same side and limit, so the same orders are in its reach.
    have isLess := (Order.reduced?_eq_some rest).1
    have further := ih (by rw [isLess]; exact own)
    rw [show left.price = incoming.price by rw [isLess]] at further
    exact .cons own rest further
  -- The first one is out of reach, and so are all behind it.
  | case4 incoming resting waiting apart =>
    have noneCrosses : ¬side.Crosses incoming.price resting.price := own ▸ apart
    rw [Queue.inReach_cons_of_apart noneCrosses]
    exact .nil incoming

/-- Whoever a sweep leaves facing it are those who stood there, less what its fills took from the first of them. -/
theorem sweep_faced_eq (side : Side) (incoming : Order) (queue : List Order) :
    (sweep side incoming queue).faced =
      Queue.afterTrades ((sweep side incoming queue).fills.map Fill.quantity) queue := by
  fun_induction sweep side incoming queue with
  | case1 incoming => rfl
  | case2 incoming resting waiting crossing fill usedUp =>
    simp only [List.map_cons, List.map_nil, Queue.afterTrades, fill]
  | case3 incoming resting waiting crossing fill left rest later ih =>
    -- The first order was used up, so it leaves nothing behind.
    simp only [List.map_cons, Queue.afterTrades, later, fill, OrderBook.reduced?_resting rest, Option.toList_none,
      List.nil_append]
    exact ih
  | case4 incoming resting waiting apart => rfl

/-- Something is left of an incoming order exactly if it is larger than all orders in its reach together. -/
theorem sweep_left_eq (own : incoming.side = side) (positive : 0 < incoming.remaining.toNat) :
    (sweep side incoming queue).left =
      if restingSize (Queue.inReach side incoming.price queue) < incoming.remaining.toNat then
        some { incoming with
          remaining := UInt64.ofNat
            (incoming.remaining.toNat - restingSize (Queue.inReach side incoming.price queue)) }
      else none := by
  -- The induction is along the sweep, and the sizes in reach are taken off one by one.
  fun_induction sweep side incoming queue with
  | case1 incoming => simp [positive]
  | case2 incoming resting waiting crossing fill usedUp =>
    -- The first order in reach had enough, so there is no more in the incoming order than in reach.
    have crosses : side.Crosses incoming.price resting.price := own ▸ crossing
    have same := (OrderBook.reduced?_eq_none_iff OrderBook.fillOf_quantity_le_incoming).mp usedUp
    have enough : incoming.remaining.toNat ≤ resting.remaining.toNat := by
      rw [same]
      exact UInt64.le_iff_toNat_le.mp OrderBook.fillOf_quantity_le_resting
    rw [Queue.inReach_cons_of_crossing crosses, restingSize_cons, if_neg (by omega)]
  | case3 incoming resting waiting crossing fill left rest later ih =>
    have crosses : side.Crosses incoming.price resting.price := own ▸ crossing
    obtain ⟨-, split, leftover⟩ := takes_whole rest
    have isLess := (Order.reduced?_eq_some rest).1
    -- Both sizes have lost what the first order had, so the same is left in the end.
    have further := ih (by rw [isLess]; exact own) leftover
    have sameOrder : ∀ remaining, { left with remaining } = { incoming with remaining } := by
      intro remaining
      rw [isLess]
    rw [sameOrder, show left.price = incoming.price by rw [isLess]] at further
    rw [Queue.inReach_cons_of_crossing crosses, restingSize_cons, split, Nat.add_sub_add_left]
    simp only [Nat.add_lt_add_iff_left]
    exact further
  | case4 incoming resting waiting apart =>
    have noneCrosses : ¬side.Crosses incoming.price resting.price := own ▸ apart
    rw [Queue.inReach_cons_of_apart noneCrosses]
    simp [positive]

/-- If everybody has something left, every fill of a sweep trades something. -/
theorem sweep_quantity_ne_zero (positive : incoming.remaining ≠ 0) (live : ∀ order ∈ queue, order.remaining ≠ 0) :
    ∀ fill ∈ (sweep side incoming queue).fills, fill.quantity ≠ 0 := by
  -- The smaller of two sizes that are not zero is not zero.
  have trades : ∀ {incoming resting : Order}, incoming.remaining ≠ 0 → resting.remaining ≠ 0 →
      (OrderBook.fillOf side incoming resting).quantity ≠ 0 := by
    intro incoming resting some_left some_there
    rw [ne_eq, ← UInt64.toNat_inj, UInt64.toNat_zero] at some_left some_there ⊢
    rw [OrderBook.fillOf_quantity_toNat]
    omega
  -- Every fill is one of two orders that are both live.
  fun_induction sweep side incoming queue with
  | case1 incoming => simp
  | case2 incoming resting waiting crossing fill usedUp =>
    intro other member
    rw [List.mem_singleton.mp member]
    exact trades positive (live resting List.mem_cons_self)
  | case3 incoming resting waiting crossing fill left rest later ih =>
    obtain ⟨isLess, leftover⟩ := Order.reduced?_eq_some rest
    intro other member
    rcases List.mem_cons.mp member with rfl | further
    · exact trades positive (live resting List.mem_cons_self)
    · exact ih (by rw [isLess]; exact leftover) (fun order waits => live order (List.mem_cons_of_mem _ waits))
        other further
  | case4 incoming resting waiting apart => simp

end Sweep

end LimitBook
