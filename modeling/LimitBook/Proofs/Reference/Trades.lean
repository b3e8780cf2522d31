import LimitBook.Proofs.Reference.Queues

/-!
The trades of the reference, which scans its whole list before each of them, are the sweep of the queue that a new
order faces. Both trade with the same orders one after another, and the list holds the queues all along.
-/

namespace LimitBook

namespace Reference

variable {live faced own : List Order} {side : Side} {incoming resting order : Order} {fill : Fill} {taker : OrderId}

section Settling

/-- The reference writes down the same fill. -/
theorem fillOf_eq (own : incoming.side = side) : fillOf incoming resting = OrderBook.fillOf side incoming resting := by
  unfold fillOf OrderBook.fillOf
  rw [own]
  have traded : min incoming.remaining resting.remaining =
      if incoming.remaining ≤ resting.remaining then incoming.remaining else resting.remaining := rfl
  dsimp only
  rw [traded]
  -- Whose size is traded decides whom the trade uses up, and equal sizes use up both.
  -- If the incoming order has less, it is used up.
  congr 1
  · split
    · next smaller =>
      have usedUp : resting.remaining ≤ incoming.remaining ↔ resting.remaining = incoming.remaining :=
        ⟨fun larger => UInt64.le_antisymm larger smaller, fun same => same ▸ UInt64.le_refl _⟩
      simp only [usedUp, beq_eq_decide]
    · next larger =>
      have notSmaller := UInt64.not_le.mp larger
      simp [UInt64.le_of_lt notSmaller]
  · split
    · next smaller => simp [smaller]
    · next larger =>
      have differs : incoming.remaining ≠ resting.remaining := fun same => larger (same ▸ UInt64.le_refl _)
      simp [larger, differs]

/-- Settling a fill leaves everybody who is not deleted under its number, on its side, at its price. -/
theorem settled?_inPlace {left : Order} (kept : settled? fill order = some left) :
    left.id = order.id ∧ left.side = order.side ∧ left.price = order.price := by
  unfold settled? at kept
  -- What is left of a party differs from it in the size only, and everybody else is untouched.
  split at kept
  · split at kept
    · simp at kept
    · obtain rfl := Option.some.inj kept
      exact ⟨rfl, rfl, rfl⟩
  · obtain rfl := Option.some.inj kept
    exact ⟨rfl, rfl, rfl⟩

/-- Whoever takes part in a fill is reduced by it. -/
theorem settled?_of_party (party : order.id = fill.maker ∨ order.id = fill.taker)
    (within : fill.quantity ≤ order.remaining) : settled? fill order = order.reduced? fill.quantity := by
  unfold settled?
  rw [if_pos party]
  by_cases usedUp : order.remaining = fill.quantity
  · rw [if_pos usedUp, (OrderBook.reduced?_eq_none_iff within).mpr usedUp]
  · -- Something is left, so the difference of the words is not zero.
    have positive : order.remaining - fill.quantity ≠ 0 := by
      intro zero
      have gone : order.reduced? fill.quantity = none := by rw [Order.reduced?, if_pos zero]
      exact usedUp ((OrderBook.reduced?_eq_none_iff within).mp gone)
    rw [if_neg usedUp, Order.reduced?, if_neg positive]

/-- Whoever takes no part in a fill stays as it is. -/
theorem settled?_of_other (notMaker : order.id ≠ fill.maker) (notTaker : order.id ≠ fill.taker) :
    settled? fill order = some order := by
  -- A fill touches the orders that it names, and this order is neither.
  unfold settled?
  rw [if_neg]
  rintro (isMaker | isTaker)
  · exact notMaker isMaker
  · exact notTaker isTaker

/-- Settling a fill brings in no number. -/
theorem ids_settled_sublist (fill : Fill) (live : List Order) :
    ((live.filterMap (settled? fill)).map Order.id).Sublist (live.map Order.id) :=
  ids_filterMap_sublist (fun _ _ kept => (settled?_inPlace kept).1) live

end Settling

/-- Somebody opposite crosses an order exactly if the first of the queue it faces does. -/
theorem Lists.crossing_iff (lists : Lists live incoming.side.opposite faced)
    (sorted : Queue.InPriority incoming.side.opposite faced) :
    (∃ order ∈ live, order.side = incoming.side.opposite ∧ incoming.Crosses order.price) ↔
      ∃ first, faced.head? = some first ∧ incoming.Crosses first.price := by
  constructor
  · intro ⟨order, member, opposite, crossing⟩
    -- Whoever crosses it waits in the queue.
    have stands := lists.mem_iff.mpr ⟨member, opposite⟩
    cases faced with
    | nil => simp at stands
    | cons first later =>
      refine ⟨first, rfl, ?_⟩
      rcases List.mem_cons.mp stands with rfl | behind
      · exact crossing
      · -- The first of the queue is no worse to trade with than one behind it.
        obtain ⟨ahead, -⟩ := List.pairwise_cons.mp sorted
        have noBetter := ahead order behind
        rw [Side.opposite_better] at noBetter
        unfold Order.Crosses at crossing ⊢
        rw [Side.crosses_iff_not_better] at crossing ⊢
        intro better
        exact noBetter (Side.better_of_better_of_not_better better crossing)
  · intro ⟨first, isFirst, crossing⟩
    have stands := lists.mem_iff.mp (List.mem_of_head? isFirst)
    exact ⟨first, stands.1, stands.2, crossing⟩

/-- The list holds a queue that a live order of the other side faces, and nobody's number comes twice. -/
structure Facing (live : List Order) (incoming : Order) (faced : List Order) : Prop where
  distinct : (live.map Order.id).Nodup
  distinctQueue : (faced.map Order.id).Nodup
  present : incoming ∈ live
  lists : Lists live incoming.side.opposite faced
  sorted : Queue.InPriority incoming.side.opposite faced

/-- An order under a number, put in the place of whoever has that number. -/
def replaced (id : OrderId) (left : Option Order) (order : Order) : Option Order :=
  if order.id = id then left else some order

/-- While nobody crosses it, an order makes no trade. -/
theorem Facing.trade?_of_apart (facing : Facing live incoming faced)
    (apart : ∀ first, faced.head? = some first → ¬incoming.Crosses first.price) :
    trade? live incoming.id = none := by
  have found : live.find? (·.id = incoming.id) = some incoming := find?_id_eq_some facing.distinct facing.present
  -- The first of the queue is the best to trade with, and it is out of reach.
  have nobody : ¬∃ order ∈ live, order.side = incoming.side.opposite ∧ incoming.Crosses order.price := by
    rw [facing.lists.crossing_iff facing.sorted]
    intro ⟨first, isFirst, crossing⟩
    exact apart first isFirst crossing
  unfold trade?
  rw [found]
  exact if_neg nobody

/-- A live order that crosses the first of the queue it faces trades with that one. -/
theorem Facing.trade?_of_crossing {waiting : List Order} (facing : Facing live incoming (resting :: waiting))
    (crossing : incoming.Crosses resting.price) :
    trade? live incoming.id = some (OrderBook.fillOf incoming.side incoming resting,
      live.filterMap (settled? (OrderBook.fillOf incoming.side incoming resting))) := by
  have found : live.find? (·.id = incoming.id) = some incoming := find?_id_eq_some facing.distinct facing.present
  have somebody : ∃ order ∈ live, order.side = incoming.side.opposite ∧ incoming.Crosses order.price := by
    rw [facing.lists.crossing_iff facing.sorted]
    exact ⟨resting, rfl, crossing⟩
  -- The scan finds the first of the queue, so that is whom it trades with.
  have best : best? live incoming.side.opposite = some resting := facing.lists.best?_eq facing.sorted
  unfold trade?
  rw [found]
  simp only [Option.bind_eq_bind, Option.bind_some]
  rw [if_pos somebody, best, ← fillOf_eq rfl]
  rfl

section Step

variable {waiting : List Order}

/-- Nobody on the side of the incoming order is the resting one. -/
theorem Facing.id_ne_resting (facing : Facing live incoming (resting :: waiting)) (member : order ∈ live)
    (own : order.side = incoming.side) : order.id ≠ resting.id := by
  intro same
  obtain ⟨restingLive, opposite⟩ := facing.lists.mem_iff.mp (List.mem_cons_self : resting ∈ resting :: waiting)
  -- They would be one order, which is on one side only.
  obtain rfl := List.inj_on_of_nodup_map facing.distinct member restingLive same
  rw [own] at opposite
  exact Side.ne_opposite _ opposite

/-- Nobody who faces the incoming order is that order. -/
theorem Facing.id_ne_incoming (facing : Facing live incoming faced) (member : order ∈ faced) :
    order.id ≠ incoming.id := by
  -- A faced order stands on the other side, and no two live orders share a number.
  intro same
  obtain ⟨orderLive, opposite⟩ := facing.lists.mem_iff.mp member
  obtain rfl := List.inj_on_of_nodup_map facing.distinct orderLive facing.present same
  exact Side.ne_opposite _ opposite

/-- After a trade the list holds the faced queue with what is left of its first order in front. -/
theorem Facing.lists_settled (facing : Facing live incoming (resting :: waiting)) :
    Lists (live.filterMap (settled? (OrderBook.fillOf incoming.side incoming resting))) incoming.side.opposite
      ((resting.reduced? (OrderBook.fillOf incoming.side incoming resting).quantity).toList ++ waiting) := by
  have inPlace : ∀ before left, settled? (OrderBook.fillOf incoming.side incoming resting) before = some left →
      left.side = before.side ∧ left.price = before.price := fun before left kept => (settled?_inPlace kept).2
  have after := facing.lists.filterMap inPlace
  -- The first of the queue takes part, and nobody behind it does.
  have first : settled? (OrderBook.fillOf incoming.side incoming resting) resting =
      resting.reduced? (OrderBook.fillOf incoming.side incoming resting).quantity :=
    settled?_of_party (.inl rfl) OrderBook.fillOf_quantity_le_resting
  have behind : ∀ order ∈ waiting, settled? (OrderBook.fillOf incoming.side incoming resting) order = some order := by
    intro order member
    exact settled?_of_other (id_ne_first facing.distinctQueue order member)
      (facing.id_ne_incoming (List.mem_cons_of_mem _ member))
  rwa [filterMap_front behind, first] at after

/-- On its own side a trade changes the incoming order only. -/
theorem Facing.filterMap_own (facing : Facing live incoming (resting :: waiting))
    (lists : Lists live incoming.side own) :
    own.filterMap (settled? (OrderBook.fillOf incoming.side incoming resting)) =
      own.filterMap (replaced incoming.id
        (incoming.reduced? (OrderBook.fillOf incoming.side incoming resting).quantity)) := by
  refine List.filterMap_congr fun order member => ?_
  obtain ⟨orderLive, side⟩ := lists.mem_iff.mp member
  -- The resting order is on the other side, so only the taker is touched.
  unfold replaced
  by_cases same : order.id = incoming.id
  · rw [if_pos same]
    obtain rfl := List.inj_on_of_nodup_map facing.distinct orderLive facing.present same
    exact settled?_of_party (.inr rfl) OrderBook.fillOf_quantity_le_incoming
  · rw [if_neg same]
    exact settled?_of_other (facing.id_ne_resting orderLive side) same

/-- An order that a trade uses up is not live afterwards. -/
theorem Facing.absent_settled (facing : Facing live incoming (resting :: waiting))
    (usedUp : incoming.reduced? (OrderBook.fillOf incoming.side incoming resting).quantity = none) :
    ∀ order ∈ live.filterMap (settled? (OrderBook.fillOf incoming.side incoming resting)),
      order.id ≠ incoming.id := by
  intro order member same
  obtain ⟨before, beforeLive, kept⟩ := List.mem_filterMap.mp member
  -- It would have been the incoming order before, and that one was deleted.
  rw [(settled?_inPlace kept).1] at same
  obtain rfl := List.inj_on_of_nodup_map facing.distinct beforeLive facing.present same
  have deleted : settled? (OrderBook.fillOf before.side before resting) before =
      before.reduced? (OrderBook.fillOf before.side before resting).quantity :=
    settled?_of_party (.inr rfl) OrderBook.fillOf_quantity_le_incoming
  rw [deleted, usedUp] at kept
  simp at kept

/-- What is left of the incoming order faces those who waited behind the order it used up. -/
theorem Facing.settled (facing : Facing live incoming (resting :: waiting)) {left : Order}
    (rest : incoming.reduced? (OrderBook.fillOf incoming.side incoming resting).quantity = some left) :
    Facing (live.filterMap (settled? (OrderBook.fillOf incoming.side incoming resting))) left waiting := by
  have side : left.side = incoming.side := by rw [(Order.reduced?_eq_some rest).1]
  have lists := facing.lists_settled
  -- What is left of the incoming order faces those who wait behind.
  rw [OrderBook.reduced?_resting rest] at lists
  have behind := facing.distinctQueue
  rw [List.map_cons, List.nodup_cons] at behind
  refine ⟨facing.distinct.sublist (ids_settled_sublist _ live), behind.2, ?_, ?_, ?_⟩
  · -- The incoming order was live and is kept with less.
    have kept : settled? (OrderBook.fillOf incoming.side incoming resting) incoming =
        incoming.reduced? (OrderBook.fillOf incoming.side incoming resting).quantity :=
      settled?_of_party (.inr rfl) OrderBook.fillOf_quantity_le_incoming
    rw [rest] at kept
    exact List.mem_filterMap.mpr ⟨incoming, facing.present, kept⟩
  · rw [side]
    exact lists
  · rw [side]
    exact (List.pairwise_cons.mp facing.sorted).2

end Step

/-- Without a trade the list is left alone. -/
theorem trades_of_none (none_left : trade? live taker = none) : trades live taker = ([], live) := by
  -- Only one of the two cases of the definition can be the one at hand.
  rw [trades]
  split
  · rfl
  · next fill after trade => simp [none_left] at trade

/-- The first trade comes before the trades of the list it leaves. -/
theorem trades_of_some {after : List Order} (trade : trade? live taker = some (fill, after)) :
    trades live taker = (fill :: (trades after taker).1, (trades after taker).2) := by
  -- The trade of the definition is the one at hand, so that the run goes on from what it leaves.
  rw [trades]
  split
  · next none_left => simp [none_left] at trade
  · next fill' after' trade' =>
    rw [trade] at trade'
    obtain ⟨rfl, rfl⟩ := Prod.mk.inj (Option.some.inj trade')
    rfl

/-- An order that is not live makes no trade. -/
theorem trade?_of_absent (absent : ∀ order ∈ live, order.id ≠ taker) : trade? live taker = none := by
  have unknown : live.find? (·.id = taker) = none := by
    rw [List.find?_eq_none]
    intro order member
    simpa using absent order member
  -- The first look-up fails.
  unfold trade?
  rw [unknown]
  rfl

/-- Putting an order in its own place changes nothing. -/
theorem filterMap_replaced_self (distinct : (live.map Order.id).Nodup) (present : incoming ∈ live)
    (part : ∀ order ∈ own, order ∈ live) : own.filterMap (replaced incoming.id (some incoming)) = own := by
  -- Putting the order back changes itself only, and it was there as it is.
  have stays : ∀ order ∈ own, replaced incoming.id (some incoming) order = some order := by
    intro order member
    unfold replaced
    split
    · next same => rw [List.inj_on_of_nodup_map distinct (part order member) present same]
    · rfl
  rw [List.filterMap_congr stays, List.filterMap_some]

/--
The trades of a live order are its sweep of the queue it faces.

They leave a list that holds the swept queue, and in which the order is replaced by what is left of it.
-/
theorem Facing.trades_eq_sweep (facing : Facing live incoming faced) :
    (trades live incoming.id).1 = (sweep incoming.side incoming faced).fills ∧
      ((trades live incoming.id).2.map Order.id).Nodup ∧
      Lists (trades live incoming.id).2 incoming.side.opposite (sweep incoming.side incoming faced).faced ∧
      ∀ own, Lists live incoming.side own → Lists (trades live incoming.id).2 incoming.side
        (own.filterMap (replaced incoming.id (sweep incoming.side incoming faced).left)) := by
  -- The induction is on the queue that is swept; the list and what is left of the order vary along it.
  induction faced generalizing live incoming with
  | nil =>
    have apart : trade? live incoming.id = none := facing.trade?_of_apart (by simp)
    rw [trades_of_none apart]
    refine ⟨rfl, facing.distinct, facing.lists, fun own lists => ?_⟩
    have same := filterMap_replaced_self facing.distinct facing.present fun order member =>
      (lists.mem_iff.mp member).1
    simpa only [sweep, same] using lists
  | cons resting waiting ih =>
    by_cases crossing : incoming.Crosses resting.price
    · rw [trades_of_some (facing.trade?_of_crossing crossing)]
      simp only [sweep, if_pos crossing]
      -- The own side changes by what is left of the incoming order.
      have onSide : ∀ own, Lists live incoming.side own →
          Lists (live.filterMap (settled? (OrderBook.fillOf incoming.side incoming resting))) incoming.side
            (own.filterMap (replaced incoming.id
              (incoming.reduced? (OrderBook.fillOf incoming.side incoming resting).quantity))) := by
        intro own lists
        rw [← facing.filterMap_own lists]
        exact lists.filterMap fun before left kept => (settled?_inPlace kept).2
      cases rest : incoming.reduced? (OrderBook.fillOf incoming.side incoming resting).quantity with
      | none =>
        -- The order is used up and deleted, so it makes no further trade.
        rw [trades_of_none (trade?_of_absent (facing.absent_settled rest))]
        rw [rest] at onSide
        exact ⟨rfl, facing.distinct.sublist (ids_settled_sublist _ live), facing.lists_settled, onSide⟩
      | some left =>
        -- The resting order is deleted, and what is left of the incoming one goes on.
        have same := (Order.reduced?_eq_some rest).1
        have number : left.id = incoming.id := by rw [same]
        have side : left.side = incoming.side := by rw [same]
        obtain ⟨fills, distinct, lists, own⟩ := ih (facing.settled rest)
        rw [number, side] at fills lists own
        rw [number] at distinct
        refine ⟨by rw [fills], distinct, lists, fun own' lists' => ?_⟩
        have after := own _ (onSide own' lists')
        rw [rest, List.filterMap_filterMap] at after
        -- Putting in what is left twice is putting in what is left in the end.
        have twice : (fun order => (replaced incoming.id (some left) order).bind
            (replaced incoming.id (sweep incoming.side left waiting).left)) =
              replaced incoming.id (sweep incoming.side left waiting).left := by
          funext order
          by_cases here : order.id = incoming.id <;> simp [replaced, here, number]
        rw [twice] at after
        exact after
    · -- The first of the queue is out of reach, so nothing trades.
      have apart : trade? live incoming.id = none := by
        refine facing.trade?_of_apart fun first isFirst => ?_
        obtain rfl := Option.some.inj isFirst
        exact crossing
      rw [trades_of_none apart]
      simp only [sweep, if_neg crossing]
      refine ⟨trivial, facing.distinct, facing.lists, fun own lists => ?_⟩
      rw [filterMap_replaced_self facing.distinct facing.present fun order member => (lists.mem_iff.mp member).1]
      exact lists

/-- What is left of a newcomer stands where the newcomer stood. -/
theorem filterMap_replaced_join {newcomer : Order} {left : Option Order}
    (others : ∀ order ∈ own, order.id ≠ newcomer.id)
    (samePrice : ∀ order, left = some order → order.price = newcomer.price) :
    (Queue.join side newcomer own).filterMap (replaced newcomer.id left) = Queue.rejoin side left own := by
  have stays : ∀ order ∈ own, replaced newcomer.id left order = some order := fun order member =>
    if_neg (others order member)
  -- Only the newcomer itself is replaced.
  have here : replaced newcomer.id left newcomer = left := if_pos rfl
  -- Along the queue the newcomer looks for its place.
  induction own with
  | nil => cases left <;> simp [Queue.join, Queue.rejoin, here]
  | cons first later ih =>
    have ih := ih (fun order member => others order (List.mem_cons_of_mem _ member))
      fun order member => stays order (List.mem_cons_of_mem _ member)
    have firstStays := stays first List.mem_cons_self
    have all : (first :: later).filterMap (replaced newcomer.id left) = first :: later := by
      rw [List.filterMap_congr stays, List.filterMap_some]
    unfold Queue.join
    -- The newcomer and what is left of it have one price, so they stop before the same order.
    split
    · next better =>
      rw [List.filterMap_cons, here, all]
      cases left with
      | none => rfl
      | some order =>
        have better' : side.Better order.price first.price := by rw [samePrice order rfl]; exact better
        simp only [Queue.rejoin, Queue.join, if_pos better']
    · next notBetter =>
      rw [List.filterMap_cons_some firstStays, ih]
      cases left with
      | none => rfl
      | some order =>
        have notBetter' : ¬side.Better order.price first.price := by rw [samePrice order rfl]; exact notBetter
        simp only [Queue.rejoin, Queue.join, if_neg notBetter']

end Reference

end LimitBook
