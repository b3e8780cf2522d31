import LimitBook.Proofs.Book.Allocation
import LimitBook.Proofs.Book.Statistics
import LimitBook.Proofs.OrderBook.Settlement

/-!
How many orders there are. Every order that came in rests, was taken out, or was used up by a fill that says so, and
is counted once. Since every fill uses up somebody, there are never more fills than orders that came in.
-/

namespace LimitBook

/-- How many orders a fill uses up: its maker, its taker, or both. -/
def Fill.usedUp (fill : Fill) : Nat := fill.makerFilled.toNat + fill.takerFilled.toNat

/-- How many orders some fills use up. -/
def usedUp (fills : List Fill) : Nat := fills.foldr (fun fill n => fill.usedUp + n) 0

/-- How many orders came in. -/
def arrivals (history : List (Event × Report)) : Nat := history.countP (·.1.action.kind = .add)

/-- How many orders were taken out. -/
def removals (history : List (Event × Report)) : Nat := history.countP (·.1.action.kind = .remove)

section Counts

/-- No fills use up nobody. -/
@[simp] theorem usedUp_nil : usedUp [] = 0 := rfl

/-- The first fill counts before the others. -/
@[simp] theorem usedUp_cons (fill : Fill) (fills : List Fill) : usedUp (fill :: fills) = fill.usedUp + usedUp fills :=
  rfl

/-- What two lists of fills use up adds up. -/
@[simp] theorem usedUp_append (fills more : List Fill) : usedUp (fills ++ more) = usedUp fills + usedUp more :=
  foldr_add_append _ _ _

/-- If each of some fills uses somebody up, there are no more fills than orders used up. -/
theorem length_le_usedUp {fills : List Fill} (flagged : ∀ fill ∈ fills, 0 < fill.usedUp) :
    fills.length ≤ usedUp fills := by
  -- Each fill uses up one order at least.
  induction fills with
  | nil => exact Nat.le_refl 0
  | cons fill fills ih =>
    have first := flagged fill List.mem_cons_self
    have others := ih fun other later => flagged other (List.mem_cons_of_mem _ later)
    rw [List.length_cons, usedUp_cons]
    omega

/-- A fill uses somebody up exactly if one of its flags says so. -/
theorem Fill.usedUp_pos_iff {fill : Fill} : 0 < fill.usedUp ↔ fill.makerFilled = true ∨ fill.takerFilled = true := by
  -- Both parts are zero or one, according to the flags.
  unfold Fill.usedUp
  cases fill.makerFilled <;> cases fill.takerFilled <;> simp

/-- The last accepted event counts with all before it. -/
theorem arrivals_concat (history : List (Event × Report)) (taken : Event × Report) :
    arrivals (history ++ [taken]) = arrivals history + if taken.1.action.kind = .add then 1 else 0 := by
  simp [arrivals, List.countP_append, List.countP_singleton]

/-- The last accepted event counts with all before it, if it took an order out. -/
theorem removals_concat (history : List (Event × Report)) (taken : Event × Report) :
    removals (history ++ [taken]) = removals history + if taken.1.action.kind = .remove then 1 else 0 := by
  simp [removals, List.countP_append, List.countP_singleton]

end Counts

section Sweep

variable {side : Side} {incoming resting : Order} {queue : List Order}

/-- Of the two orders of a trade, those of which nothing is left are the ones that its fill marks. -/
theorem usedUp_fillOf (side : Side) (incoming resting : Order) :
    (incoming.reduced? (OrderBook.fillOf side incoming resting).quantity).toList.length +
      (resting.reduced? (OrderBook.fillOf side incoming resting).quantity).toList.length +
      (OrderBook.fillOf side incoming resting).usedUp = 2 := by
  -- Either flag is set exactly if nothing is left of its order.
  have marks : ∀ {flag : Bool} {left : Option Order}, (flag = true ↔ left = none) →
      left.toList.length + flag.toNat = 1 := by
    intro flag left marked
    cases left <;> cases flag <;> simp_all
  have taker : (incoming.reduced? (OrderBook.fillOf side incoming resting).quantity).toList.length +
      (OrderBook.fillOf side incoming resting).takerFilled.toNat = 1 := marks takerFilled_fillOf
  have within : (OrderBook.fillOf side incoming resting).quantity ≤ resting.remaining :=
    OrderBook.fillOf_quantity_le_resting
  have maker : (resting.reduced? (OrderBook.fillOf side incoming resting).quantity).toList.length +
      (OrderBook.fillOf side incoming resting).makerFilled.toNat = 1 := marks (OrderBook.beq_quantity_iff within)
  unfold Fill.usedUp
  omega

/-- Whoever takes part in a sweep is there afterwards, or is marked as used up by one of its fills. -/
theorem sweep_population (side : Side) (incoming : Order) (queue : List Order) :
    (sweep side incoming queue).left.toList.length + (sweep side incoming queue).faced.length +
      usedUp (sweep side incoming queue).fills = queue.length + 1 := by
  -- The induction follows the sweep, and every trade of it accounts for its two orders.
  fun_induction sweep side incoming queue with
  | case1 incoming => rfl
  | case2 incoming resting waiting crossing fill usedUp =>
    have both := usedUp_fillOf side incoming resting
    rw [usedUp] at both
    simp only [Option.toList_none, List.length_nil, List.length_append, usedUp_cons, usedUp_nil, List.length_cons,
      fill] at both ⊢
    omega
  | case3 incoming resting waiting crossing fill left rest later ih =>
    -- The resting order is used up, and the incoming one counts in the rest of the sweep.
    have both := usedUp_fillOf side incoming resting
    rw [rest, OrderBook.reduced?_resting rest] at both
    simp only [Option.toList_none, Option.toList_some, List.length_nil, List.length_cons, usedUp_cons, fill,
      later] at both ih ⊢
    omega
  | case4 incoming resting waiting apart =>
    simp only [Option.toList_some, List.length_cons, List.length_nil, usedUp_nil]
    omega

end Sweep

/-- An order joining a queue makes it longer by one; nobody joining leaves it as it was. -/
theorem Queue.length_rejoin (side : Side) (left : Option Order) (queue : List Order) :
    (rejoin side left queue).length = left.toList.length + queue.length := by
  -- The order that is left is one more, wherever it joins.
  cases left with
  | none => simp [rejoin]
  | some order =>
    show (join side order queue).length = _
    rw [join_perm.length_eq, List.length_cons, Option.toList_some, List.length_singleton, Nat.add_comm]

/-- As many orders are counted as rest. -/
theorem OrderBook.Sound.orderCount_eq {book : OrderBook} (sound : book.Sound) (side : Side) :
    book.orderCount = (book.orders side).length + (book.orders side.opposite).length := by
  -- The index knows as many numbers as there are orders on both sides.
  unfold orderCount
  rw [sound.index_size, queued_eq book side]

namespace Book

open OrderBook (Trade)

/-- Whoever came in rests, was taken out, or was used up, and is counted once. -/
def Balanced (book : Book) (history : List (Event × Report)) : Prop :=
  arrivals history = book.orders.orderCount + removals history + usedUp (fillsOf history)

/-- A trade as it has to be: it trades something between two different orders that rest before it, and uses one up. -/
structure Proper (trade : Trade) : Prop where
  step : ∃ side, trade.before.trade? side trade.fill.taker = some (trade.fill, trade.after)
  flagged : trade.fill.makerFilled = true ∨ trade.fill.takerFilled = true
  positive : trade.fill.quantity ≠ 0
  apart : trade.fill.maker ≠ trade.fill.taker
  maker : trade.before.Rests trade.fill.maker
  taker : trade.before.Rests trade.fill.taker

variable {book next : Book} {event : Event} {new : NewOrder} {report : Report} {side : Side} {order : Order}
  {history : List (Event × Report)} {calls : List Call} {trade : Trade}

section Balance

/-- A new order is one more, and whoever its fills use up is one less. -/
theorem Adds.orderCount_eq (sound : book.Sound) (adds : book.Adds event new report next) :
    next.orders.orderCount + usedUp report.fills = book.orders.orderCount + 1 := by
  have swept := sweep_population new.side (book.arriving event.sequence new) (book.orders.orders new.side.opposite)
  have fills := adds.fills_eq
  rw [adds.queues.sound.orderCount_eq new.side, sound.orders.orderCount_eq new.side, adds.queues.own,
    adds.queues.faced, Queue.length_rejoin, fills]
  -- The sweep is the one that the event makes, named in full.
  unfold sweepOf
  omega

/-- An order that is taken out is one less. -/
theorem Removes.orderCount_eq (sound : book.Sound) (removes : book.Removes event side order report next) :
    next.orders.orderCount + 1 = book.orders.orderCount := by
  -- Among different numbers it is the only one that leaves its queue.
  have distinct := sound.orders.distinct_queue side
  have found := find?_id_eq_some distinct removes.member
  have shorter : ((book.orders.orders side).eraseP (·.id = order.id)).length + 1 =
      (book.orders.orders side).length := by
    have left := List.length_eraseP_of_mem removes.member (p := (·.id = order.id)) (decide_eq_true rfl)
    have some_there := List.length_pos_of_mem removes.member
    omega
  rw [eraseP_id_eq_filter distinct] at shorter
  rw [removes.queues.sound.orderCount_eq side, sound.orders.orderCount_eq side, removes.queues.own,
    removes.queues.other]
  omega

/-- A fresh book balances with a history of nothing. -/
theorem balanced_startingAt (key : BookKey) (origin : Sequence) : (startingAt key origin).Balanced [] := rfl

/-- An accepted event leaves the balance. -/
theorem Balanced.takes (balanced : book.Balanced history) (sound : book.Sound)
    (takes : book.Takes event report next) : next.Balanced (history ++ [(event, report)]) := by
  unfold Balanced at balanced ⊢
  rw [arrivals_concat, removals_concat, fillsOf_concat, usedUp_append]
  rcases takes.effect with ⟨new, adds⟩ | ⟨side, order, removes⟩
  · have count := adds.orderCount_eq sound
    simp only [adds.action, Action.kind, if_true, reduceCtorEq, if_false]
    omega
  · -- Nobody is used up when an order is taken out.
    have count := removes.orderCount_eq sound
    simp only [removes.action, removes.tradesOf.2, Action.kind, if_true, reduceCtorEq, if_false, usedUp_nil]
    omega

/-- Every run leaves the balance. -/
theorem Balanced.run (balanced : book.Balanced history) (sound : book.Sound) (calls : List Call) :
    (book.run calls).2.Balanced (history ++ book.history calls) := by
  -- A resync leaves the orders, and an event keeps the balance.
  refine sound.run_keeps (fun orders _ balanced => ?_) (fun sound takes balanced => ?_) balanced calls
  · unfold Balanced
    rw [orders]
    exact balanced
  · exact balanced.takes sound takes

end Balance

section Trades

/-- Every trade of an accepted event is as it has to be. -/
theorem Takes.proper (sound : book.Sound) (takes : book.Takes event report next)
    (member : trade ∈ book.tradesOf event) : Proper trade := by
  have reported := takes.fills_tradesOf sound ▸ List.mem_map_of_mem member
  rcases takes.effect with ⟨new, adds⟩ | ⟨side, order, removes⟩
  · obtain ⟨inserted, joined, unfolded, -, -⟩ := adds.tradesOf sound
    rw [unfolded] at member
    have follows := joined.sound.follows member
    obtain ⟨incoming, resting, behind, waiting, isTaker, executes⟩ := follows.executes
    -- The taker stands in front of its side, and the maker in front of the side that it faces.
    have own : incoming ∈ trade.before.orders new.side := by
      rw [executes.own]
      exact List.mem_cons_self
    have faced : resting ∈ trade.before.orders new.side.opposite := by
      rw [executes.faced]
      exact List.mem_cons_self
    have taker : trade.fill.taker = incoming.id := by rw [executes.reported]; rfl
    have maker : trade.fill.maker = resting.id := by rw [executes.reported]; rfl
    refine ⟨⟨new.side, ?_⟩, ?_, adds.quantity_ne_zero sound trade.fill reported, ?_, ?_, ?_⟩
    · rw [follows.taker_eq]
      exact (joined.sound.round_of_mem member).step
    · rw [executes.reported]
      exact (OrderBook.used_up new.side incoming resting).symm
    · rw [taker, maker]
      exact (follows.sound.id_ne_opposite own faced).symm
    · rw [maker]
      exact OrderBook.rests_of_mem faced
    · rw [taker]
      exact OrderBook.rests_of_mem own
  · -- An order that is taken out makes no trade.
    rw [removes.tradesOf.1] at member
    simp at member

/-- Every trade of a run is as it has to be. -/
theorem Sound.proper_tradesDuring (sound : book.Sound) (member : trade ∈ book.tradesDuring calls) : Proper trade := by
  -- The trade was made by one event, and it is proper there.
  obtain ⟨before, event, report, next, sound, takes, made⟩ := sound.takes_of_mem_tradesDuring member
  exact takes.proper sound made

/-- A run makes no more fills than they use up orders. -/
theorem Sound.length_fillsOf_le (sound : book.Sound) (calls : List Call) :
    (fillsOf (book.history calls)).length ≤ usedUp (fillsOf (book.history calls)) := by
  refine length_le_usedUp ?_
  -- Every fill is that of a trade, and a trade uses somebody up.
  rw [fillsOf_history, ← sound.fills_tradesDuring]
  intro fill member
  obtain ⟨trade, isTrade, rfl⟩ := List.mem_map.mp member
  exact Fill.usedUp_pos_iff.mpr (sound.proper_tradesDuring isTrade).flagged

end Trades

/--
No order is lost or counted twice, and there are never more fills than orders that came in.

The trades of a run have the fills that are reported, and each of them uses up at least one of the two orders between
which it takes place. So however many fills a single event makes, earlier arrivals have paid for them.
-/
theorem population_balances (key : BookKey) (origin : Sequence) (calls : List Call) :
    arrivals ((startingAt key origin).history calls) =
      ((startingAt key origin).run calls).2.orders.orderCount + removals ((startingAt key origin).history calls) +
        usedUp ((reports ((startingAt key origin).run calls).1).flatMap Report.fills) ∧
    ((startingAt key origin).tradesDuring calls).map Trade.fill =
      (reports ((startingAt key origin).run calls).1).flatMap Report.fills ∧
    (∀ trade ∈ (startingAt key origin).tradesDuring calls, Proper trade) ∧
    ((startingAt key origin).run calls).2.stats.fillCount + ((startingAt key origin).run calls).2.orders.orderCount +
      removals ((startingAt key origin).history calls) ≤ arrivals ((startingAt key origin).history calls) := by
  have sound := sound_startingAt key origin
  have balanced := (balanced_startingAt key origin).run sound calls
  have reconciles := (reconciles_startingAt key origin).run sound calls
  have paid := sound.length_fillsOf_le calls
  rw [List.nil_append] at balanced reconciles
  unfold Balanced at balanced
  -- Every fill is counted in the statistics, and uses somebody up.
  have count := reconciles.fills.fillCount
  rw [fillsOf_history] at balanced count paid
  refine ⟨balanced, sound.fills_tradesDuring calls, fun trade member => sound.proper_tradesDuring member, ?_⟩
  omega

/-- Three sellers, a buyer who takes from all of them, and the removal of the one of whom something is left. -/
def cleared : List Call :=
  [.apply ⟨⟨7⟩, 0, .add ⟨⟨1⟩, ⟨1⟩, 0, .sell, 3, ⟨100⟩⟩⟩, .apply ⟨⟨7⟩, 1, .add ⟨⟨2⟩, ⟨2⟩, 0, .sell, 4, ⟨100⟩⟩⟩,
    .apply ⟨⟨7⟩, 2, .add ⟨⟨3⟩, ⟨3⟩, 0, .sell, 5, ⟨101⟩⟩⟩, .apply ⟨⟨7⟩, 3, .add ⟨⟨4⟩, ⟨4⟩, 0, .buy, 10, ⟨101⟩⟩⟩,
    .apply ⟨⟨7⟩, 4, .remove ⟨3⟩⟩]

/-- Four orders came in; one was taken out and the fills used up three, two sellers and the buyer. -/
theorem population_of_cleared :
    arrivals ((startingAt ⟨⟨1⟩, ⟨7⟩⟩ 0).history cleared) = 4 ∧
      usedUp ((reports ((startingAt ⟨⟨1⟩, ⟨7⟩⟩ 0).run cleared).1).flatMap Report.fills) = 3 ∧
      ((startingAt ⟨⟨1⟩, ⟨7⟩⟩ 0).run cleared).2.stats.fillCount = 3 ∧
      ∃ trade ∈ (startingAt ⟨⟨1⟩, ⟨7⟩⟩ 0).tradesDuring cleared, trade.fill.quantity = 4 ∧ Proper trade := by
  -- The balance holds of the run, and one of its trades is found by computation.
  obtain ⟨balance, -, proper, -⟩ := population_balances ⟨⟨1⟩, ⟨7⟩⟩ 0 cleared
  have traded : ∃ trade ∈ (startingAt ⟨⟨1⟩, ⟨7⟩⟩ 0).tradesDuring cleared, trade.fill.quantity = 4 := by decide +kernel
  obtain ⟨trade, member, size⟩ := traded
  exact ⟨by decide +kernel, by decide +kernel, by decide +kernel, trade, member, size, proper trade member⟩

end Book

end LimitBook
