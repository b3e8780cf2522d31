import LimitBook.Proofs.OrderBook

/-! What inserting, cancelling and serving do to a sound book, and when they are refused. -/

namespace LimitBook.OrderBook

variable {book next : OrderBook} {side : Side} {order : Order} {id : OrderId}

namespace Requeued

variable {queue : List Order}

/-- Seen from either side, a requeued book has the new queue there and the old one here. -/
theorem orders_eq (requeued : Requeued book side queue next) (any : Side) :
    next.orders any = if any = side then queue else book.orders any := by
  -- A side is the requeued one or its opposite.
  rcases Side.eq_or_eq_opposite any side with rfl | rfl
  · rw [if_pos rfl, requeued.own]
  · rw [if_neg (Side.ne_opposite side).symm, requeued.other]

/-- Changing a queue twice is changing it once. -/
theorem trans {last : OrderBook} {queue' : List Order} (first : Requeued book side queue next)
    (second : Requeued next side queue' last) : Requeued book side queue' last :=
  ⟨second.sound, second.market.trans first.market, second.own, second.other.trans first.other⟩

end Requeued

section Index

/-- Nobody in a queue has the number of a fresh order. -/
theorem id_ne_of_fresh (fresh : ¬book.Rests order.id) {other : Order} (member : other ∈ book.orders side) :
    other.id ≠ order.id := by
  -- The number is in the index of all that rests, and the newcomer is not.
  intro same
  have rests := rests_of_mem member
  rw [same] at rests
  exact fresh rests

/-- With a new entry the index knows the newcomer, and on its side all others as before. -/
theorem Sound.indexed_insert_own (sound : book.Sound) (fresh : ¬book.Rests order.id) (id : OrderId) (price : Price) :
    (book.index.insert order.id (order.side, order.price))[id]? = some (order.side, price) ↔
      ∃ other ∈ Queue.join order.side order (book.orders order.side), other.id = id ∧ other.price = price := by
  rw [Std.ExtTreeMap.getElem?_insert]
  by_cases same : order.id = id
  · -- The entry of the newcomer is its own side and price.
    subst same
    simp only [Std.LawfulEqCmp.compare_eq_iff_eq, if_true, Option.some.injEq, Prod.mk.injEq, true_and]
    constructor
    · intro here
      exact ⟨order, Queue.mem_join.mpr (.inl rfl), rfl, here⟩
    · intro ⟨other, member, number, here⟩
      rcases Queue.mem_join.mp member with rfl | old
      · exact here
      · exact absurd number (id_ne_of_fresh fresh old)
  · -- Under any other number the newcomer is not meant.
    rw [if_neg (mt Std.LawfulEqCmp.compare_eq_iff_eq.mp same), sound.indexed]
    constructor
    · intro ⟨other, member, found⟩
      exact ⟨other, Queue.mem_join.mpr (.inr member), found⟩
    · intro ⟨other, member, number, here⟩
      rcases Queue.mem_join.mp member with rfl | old
      · exact absurd number same
      · exact ⟨other, old, number, here⟩

/-- A new entry changes nothing for the other side. -/
theorem Sound.indexed_insert_other (sound : book.Sound) (fresh : ¬book.Rests order.id) (id : OrderId)
    (price : Price) :
    (book.index.insert order.id (order.side, order.price))[id]? = some (order.side.opposite, price) ↔
      ∃ other ∈ book.orders order.side.opposite, other.id = id ∧ other.price = price := by
  rw [Std.ExtTreeMap.getElem?_insert]
  by_cases same : order.id = id
  · -- The newcomer is on its own side, and nobody on the other has its number.
    subst same
    have apart := Side.ne_opposite order.side
    simp only [Std.LawfulEqCmp.compare_eq_iff_eq, if_true, Option.some.injEq, Prod.mk.injEq, apart, false_and,
      false_iff]
    intro ⟨other, member, number, _⟩
    exact id_ne_of_fresh fresh member number
  · rw [if_neg (mt Std.LawfulEqCmp.compare_eq_iff_eq.mp same), sound.indexed]

/-- Without an entry the index knows whoever is left on that side. -/
theorem Sound.indexed_erase_own (sound : book.Sound) (id : OrderId) (price : Price) :
    (book.index.erase order.id)[id]? = some (side, price) ↔
      ∃ other ∈ (book.orders side).filter (·.id ≠ order.id), other.id = id ∧ other.price = price := by
  rw [Std.ExtTreeMap.getElem?_erase]
  by_cases same : order.id = id
  · -- The number was forgotten, and nobody who is left has it.
    subst same
    simp only [Std.LawfulEqCmp.compare_eq_iff_eq, if_true, reduceCtorEq, false_iff]
    intro ⟨other, stays, number, _⟩
    have differs := (List.mem_filter.mp stays).2
    exact absurd number (by simpa using differs)
  · -- Another number is found where it was found before.
    rw [if_neg (mt Std.LawfulEqCmp.compare_eq_iff_eq.mp same), sound.indexed]
    constructor
    · intro ⟨other, stood, number, here⟩
      have differs : other.id ≠ order.id := by rw [number]; exact Ne.symm same
      exact ⟨other, List.mem_filter.mpr ⟨stood, by simpa using differs⟩, number, here⟩
    · intro ⟨other, stays, found⟩
      exact ⟨other, (List.mem_filter.mp stays).1, found⟩

/-- Forgetting an order changes nothing for the other side. -/
theorem Sound.indexed_erase_other (sound : book.Sound) (member : order ∈ book.orders side) (id : OrderId)
    (price : Price) :
    (book.index.erase order.id)[id]? = some (side.opposite, price) ↔
      ∃ other ∈ book.orders side.opposite, other.id = id ∧ other.price = price := by
  rw [Std.ExtTreeMap.getElem?_erase]
  by_cases same : order.id = id
  · -- The number was that of an order facing them.
    subst same
    simp only [Std.LawfulEqCmp.compare_eq_iff_eq, if_true, reduceCtorEq, false_iff]
    intro ⟨other, faced, number, _⟩
    exact sound.id_ne_opposite member faced number.symm
  · rw [if_neg (mt Std.LawfulEqCmp.compare_eq_iff_eq.mp same), sound.indexed]

end Index

section Insert

/-- An order whose number rests is refused. -/
theorem Sound.insert_duplicate (sound : book.Sound) (rests : book.Rests order.id) :
    book.insert order = .error (.duplicateOrder order.id) := by
  -- The number is found in the index.
  unfold insert
  rw [if_pos (sound.contains_iff.mpr rests)]

/-- A fresh order is refused if its level would overflow. -/
theorem Sound.insert_overflow (sound : book.Sound) (fresh : ¬book.Rests order.id)
    (full : UInt64.size ≤
      restingSize (Queue.atPrice (book.orders order.side) order.price) + order.remaining.toNat) :
    book.insert order = .error (.levelOverflow order.id order.price) := by
  have noRoom : ¬(book.levels order.side).canAccept order.price order.remaining = true := by
    rw [(sound.levels order.side).canAccept_iff]
    exact Nat.not_lt.mpr full
  -- The number is looked up first and is free, so the level decides.
  unfold insert
  rw [if_neg (mt sound.contains_iff.mp fresh), if_neg noRoom]

/-- A fresh order for which there is room joins the queue of its side. -/
theorem Sound.insert_ok (sound : book.Sound) (fresh : ¬book.Rests order.id)
    (room : restingSize (Queue.atPrice (book.orders order.side) order.price) + order.remaining.toNat
      < UInt64.size) :
    ∃ next, book.insert order = .ok next ∧
      Requeued book order.side (Queue.join order.side order (book.orders order.side)) next := by
  -- There is room at the level, and the newcomer joins it.
  have roomSide := (sound.levels order.side).canAccept_iff.mpr room
  have joined : ((book.levels order.side).push order.side order).orders =
      Queue.join order.side order (book.orders order.side) := (sound.levels order.side).orders_push
  have accepted : book.insert order = .ok
      { book.setLevels order.side ((book.levels order.side).push order.side order) with
        index := book.index.insert order.id (order.side, order.price) } := by
    unfold insert
    rw [if_neg (mt sound.contains_iff.mp fresh), if_pos roomSide]
  refine ⟨_, accepted, ?_⟩
  rw [← joined]
  refine sound.requeue ((sound.levels order.side).push rfl roomSide) ?_ ?_ (sound.indexed_insert_other fresh)
  · -- The numbers are those that were there, with the newcomer's before them.
    rw [joined]
    refine ((Queue.join_perm.map Order.id).append_right _).nodup_iff.mpr ?_
    rw [List.map_cons, List.cons_append, List.nodup_cons, List.mem_append, List.mem_map, List.mem_map]
    refine ⟨?_, sound.distinct_side order.side⟩
    rintro (⟨other, member, same⟩ | ⟨other, member, same⟩) <;> exact id_ne_of_fresh fresh member same
  · rw [joined]
    exact sound.indexed_insert_own fresh

end Insert

/-- A side without one of its orders, and an index without that order's number, make a sound book. -/
theorem Sound.requeue_without (sound : book.Sound) {levels : BookSide} (member : order ∈ book.orders side)
    (soundSide : levels.Sound side)
    (queue : levels.orders = (book.orders side).filter (·.id ≠ order.id)) :
    Requeued book side levels.orders { book.setLevels side levels with index := book.index.erase order.id } := by
  refine sound.requeue soundSide ?_ ?_ (sound.indexed_erase_other member)
  · -- Fewer orders have no more numbers in common.
    rw [queue]
    exact (sound.distinct_side side).sublist ((List.filter_sublist.map Order.id).append (.refl _))
  · rw [queue]
    exact sound.indexed_erase_own

section Cancel

/-- An order that does not rest cannot be taken out. -/
theorem Sound.cancel_absent (sound : book.Sound) (absent : ¬book.Rests id) :
    book.cancel id = .error (.orderNotFound id) := by
  have unknown : book.index[id]? = none := by
    apply Std.ExtTreeMap.getElem?_eq_none
    rw [← Std.ExtTreeMap.contains_iff_mem, sound.contains_iff]
    exact absent
  -- Without an entry the first look-up fails.
  unfold cancel
  rw [unknown]

/-- A resting order is taken out of its queue, and nobody else is. -/
theorem Sound.cancel_ok (sound : book.Sound) (member : order ∈ book.orders side) :
    ∃ next, book.cancel order.id = .ok (order, next) ∧
      Requeued book side ((book.orders side).filter (·.id ≠ order.id)) next := by
  -- The index leads to the level at which the order waits, so neither search fails.
  have entry : book.index[order.id]? = some (side, order.price) :=
    (sound.indexed _ _ _).mpr ⟨order, member, rfl, rfl⟩
  obtain ⟨levels, removed, soundSide, queue⟩ := (sound.levels side).remove? (sound.distinct_queue side) member
  refine ⟨_, ?_, queue ▸ sound.requeue_without member soundSide queue⟩
  unfold cancel
  rw [entry]
  simp only [removed]

end Cancel

section FillBest

/-- Where nobody waits nobody is served. -/
theorem Sound.fillBest?_empty (sound : book.Sound) (quantity : Quantity) (empty : book.orders side = []) :
    book.fillBest? side quantity = none := by
  -- An empty side has no first order.
  unfold fillBest?
  rw [sound.bestOrder?, empty]
  rfl

/-- A trade within the size of the front order leaves the rest of that order in front, if there is any. -/
theorem Sound.fillBest?_front (sound : book.Sound) {front : Order} {waiting : List Order} {quantity : Quantity}
    (queue : book.orders side = front :: waiting) (within : quantity ≤ front.remaining) :
    ∃ next, book.fillBest? side quantity = some (front.remaining - quantity, next) ∧
      Requeued book side ((front.reduced? quantity).toList ++ waiting) next := by
  obtain ⟨levels, served, soundSide, filled⟩ := (sound.levels side).fillBest? queue within
  have isFront : book.bestOrder? side = some front := by rw [sound.bestOrder?, queue]; rfl
  have member : front ∈ book.orders side := by rw [queue]; exact List.mem_cons_self
  -- The index is told of it exactly if nothing is left of the front order.
  have executed : book.fillBest? side quantity = some (front.remaining - quantity,
      { book.setLevels side levels with
        index := if front.remaining - quantity = 0 then book.index.erase front.id else book.index }) := by
    unfold fillBest?
    simp only [isFront, served]
  refine ⟨_, executed, ?_⟩
  rw [← filled]
  by_cases usedUp : front.remaining - quantity = 0
  · -- Nothing is left of the front order: it leaves the queue, and its number the index.
    rw [if_pos usedUp]
    refine sound.requeue_without member soundSide ?_
    have distinct := sound.distinct_queue side
    rw [queue] at distinct
    rw [filled, queue, List.filter_cons, filter_id_eq_self (id_ne_first distinct)]
    simp [Order.reduced?, usedUp]
  · -- The front order stays with less, under the same number, side and price.
    rw [if_neg usedUp]
    have left : (front.reduced? quantity).toList ++ waiting =
        { front with remaining := front.remaining - quantity } :: waiting := by
      simp [Order.reduced?, usedUp]
    refine sound.requeue soundSide ?_ (fun id price => ?_) fun id price => sound.indexed id side.opposite price
    · have distinct := sound.distinct_side side
      rw [queue] at distinct
      rw [filled, left]
      exact distinct
    · rw [sound.indexed, filled, left, queue]
      simp only [List.mem_cons, exists_eq_or_imp]

end FillBest

/-- An order is found by its number exactly if it rests. -/
theorem Sound.find?_eq_some (sound : book.Sound) :
    book.find? id = some order ↔ order ∈ book.resting ∧ order.id = id := by
  unfold find?
  simp only [Option.bind_eq_bind, Option.bind_eq_some_iff]
  constructor
  · intro ⟨⟨side, price⟩, _, level, isLevel, found⟩
    -- The entry leads to a level of the book, and the search there to an order of the number.
    have here := (sound.levels side).level?_eq_some.mp isLevel
    have named := List.find?_some found
    refine ⟨mem_resting.mpr ⟨side, BookSide.mem_orders.mpr ⟨level, here.1, List.mem_of_find?_eq_some found⟩⟩, ?_⟩
    simpa using named
  · intro found
    obtain ⟨member, rfl⟩ := found
    obtain ⟨side, member⟩ := mem_resting.mp member
    obtain ⟨level, isLevel, waits⟩ := BookSide.mem_orders.mp member
    have price := ((sound.levels side).level level isLevel).prices order waits
    -- The entry names the level at which the order waits, and the order is found there.
    refine ⟨(side, order.price), (sound.indexed _ _ _).mpr ⟨order, member, rfl, rfl⟩, level,
      (sound.levels side).level?_eq_some.mpr ⟨isLevel, price.symm⟩, ?_⟩
    exact find?_id_eq_some (sound.distinct_level isLevel) waits

/-- A number leads to no order exactly if none of it rests. -/
theorem Sound.find?_eq_none (sound : book.Sound) : book.find? id = none ↔ ¬book.Rests id := by
  -- No order of this number rests, and so none is found.
  rw [Option.eq_none_iff_forall_ne_some]
  simp only [ne_eq, sound.find?_eq_some, Rests, not_exists]

/-- Orders of one number are the same order, on its own side. -/
theorem Sound.eq_of_id_eq (sound : book.Sound) {any : Side} {other : Order} (member : other ∈ book.orders any)
    (rests : order ∈ book.orders side) (same : other.id = order.id) : any = side ∧ other = order := by
  -- The number leads to one order, and an order is on the side that it says.
  have isOther : book.find? order.id = some other := sound.find?_eq_some.mpr ⟨mem_resting.mpr ⟨any, member⟩, same⟩
  have isOrder : book.find? order.id = some order := sound.find?_eq_some.mpr ⟨mem_resting.mpr ⟨side, rests⟩, rfl⟩
  rw [isOther] at isOrder
  obtain rfl := Option.some.inj isOrder
  exact ⟨(sound.side_eq member).symm.trans (sound.side_eq rests), rfl⟩

end LimitBook.OrderBook
