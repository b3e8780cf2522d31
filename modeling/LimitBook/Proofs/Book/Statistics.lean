import LimitBook.Proofs.Book.History

/-!
The running totals of a book against its history and its queues: every total is what the accepted events and their
fills add up to, and what came in was traded, taken out, or still rests.
-/

namespace LimitBook

/-- The size that a new order brings; a removal brings none. -/
def Event.addedSize (event : Event) : Nat :=
  match event.action with
  | .add new => new.size.toNat
  | .remove _ => 0

/-- The order that a removal has taken out, as its report gives it. -/
def removedBy (taken : Event × Report) : Option Order :=
  match taken.1.action with
  | .add _ => none
  | .remove _ => taken.2.removed

/-- The sizes of all orders that came in, as an exact number. -/
def addedSize (history : List (Event × Report)) : Nat := history.foldr (fun taken n => taken.1.addedSize + n) 0

/-- The fills of a history one after another. -/
def fillsOf (history : List (Event × Report)) : List Fill := history.flatMap fun taken => taken.2.fills

/-- What some fills are worth in all, each at its own price. -/
def tradedVolume (fills : List Fill) : Nat := fills.foldr (fun fill n => fill.notional + n) 0

/-- Numbers added up from the front may be added up in two parts. -/
theorem foldr_add_append {α : Type} (f : α → Nat) (front back : List α) :
    (front ++ back).foldr (fun a n => f a + n) 0 =
      front.foldr (fun a n => f a + n) 0 + back.foldr (fun a n => f a + n) 0 := by
  -- What the later parts add is added behind each of the first ones.
  induction front with
  | nil => simp
  | cons a front ih => simp only [List.cons_append, List.foldr_cons, ih, Nat.add_assoc]

/-- The last accepted event counts with all before it. -/
theorem addedSize_concat (history : List (Event × Report)) (taken : Event × Report) :
    addedSize (history ++ [taken]) = addedSize history + taken.1.addedSize := foldr_add_append _ _ _

/-- The fills of a history in two parts are those of the first part, and then those of the second. -/
theorem fillsOf_append (history later : List (Event × Report)) :
    fillsOf (history ++ later) = fillsOf history ++ fillsOf later := List.flatMap_append

/-- The fills of the last accepted event come after all before them. -/
theorem fillsOf_concat (history : List (Event × Report)) (taken : Event × Report) :
    fillsOf (history ++ [taken]) = fillsOf history ++ taken.2.fills := by
  -- The last report adds its fills behind all others.
  rw [fillsOf_append]
  exact congrArg _ (List.flatMap_singleton _ _)

/-- Fills made one after another trade what they trade in all. -/
theorem executedQuantity_append (fills more : List Fill) :
    executedQuantity (fills ++ more) = executedQuantity fills + executedQuantity more := foldr_add_append _ _ _

/-- The totals of a book agree with the fills reported so far. -/
structure Stats.Counts (stats : Stats) (fills : List Fill) : Prop where
  executedQuantity : stats.executedQuantity = LimitBook.executedQuantity fills
  fillCount : stats.fillCount = fills.length
  volume : stats.volume = tradedVolume fills
  lastTradePrice : stats.lastTradePrice = fills.getLast?.map Fill.price

section Fills

variable {stats : Stats} {fills : List Fill}

/-- One more fill is counted once. -/
theorem Stats.Counts.recordFill (counts : stats.Counts fills) (fill : Fill) :
    (stats.recordFill fill).Counts (fills ++ [fill]) where
  -- One more fill adds its own share to each total and gives the last price.
  executedQuantity := by
    rw [executedQuantity_append]
    exact congrArg (· + fill.quantity.toNat) counts.executedQuantity
  fillCount := by
    rw [List.length_append]
    exact congrArg (· + 1) counts.fillCount
  volume := by
    unfold tradedVolume
    rw [foldr_add_append]
    exact congrArg (· + fill.notional) counts.volume
  lastTradePrice := by
    rw [List.getLast?_concat]
    rfl

/-- Further fills are counted once each. -/
theorem Stats.Counts.recordFills (counts : stats.Counts fills) (more : List Fill) :
    (stats.recordFills more).Counts (fills ++ more) := by
  -- The fills of before vary along those that are added.
  induction more generalizing stats fills with
  | nil => rwa [List.append_nil]
  | cons fill more ih =>
    have further := ih (counts.recordFill fill)
    rwa [List.append_assoc] at further

/-- Further fills add to the totals what they trade, how many they are and what they are worth. -/
theorem Stats.recordFills_traded (stats : Stats) (fills : List Fill) :
    (stats.recordFills fills).executedQuantity = stats.executedQuantity + LimitBook.executedQuantity fills ∧
      (stats.recordFills fills).fillCount = stats.fillCount + fills.length ∧
      (stats.recordFills fills).volume = stats.volume + tradedVolume fills := by
  -- The totals vary along the fills, and sums are put together in another order only.
  induction fills generalizing stats with
  | nil => exact ⟨rfl, rfl, rfl⟩
  | cons fill fills ih =>
    obtain ⟨executed, count, volume⟩ := ih (stats.recordFill fill)
    refine ⟨executed.trans ?_, count.trans ?_, volume.trans ?_⟩
    · exact Nat.add_assoc _ _ _
    · exact (Nat.add_assoc _ _ _).trans (congrArg _ (Nat.add_comm _ _))
    · exact Nat.add_assoc _ _ _

end Fills

/-- A sweep takes every traded size off both of its orders. -/
theorem sweep_takes_twice (side : Side) (incoming : Order) (queue : List Order) :
    restingSize (incoming :: queue) =
      2 * executedQuantity (sweep side incoming queue).fills +
        restingSize ((sweep side incoming queue).left.toList ++ (sweep side incoming queue).faced) := by
  -- The induction is on the queue that is swept; what is left of the incoming order varies along it.
  induction queue generalizing incoming with
  | nil => simp [sweep, executedQuantity]
  | cons resting waiting ih =>
    unfold sweep
    split
    · -- Both orders lose what is traded.
      have ownWithin : (OrderBook.fillOf side incoming resting).quantity ≤ incoming.remaining :=
        OrderBook.fillOf_quantity_le_incoming
      have facedWithin : (OrderBook.fillOf side incoming resting).quantity ≤ resting.remaining :=
        OrderBook.fillOf_quantity_le_resting
      have ownLess := OrderBook.restingSize_reduced? ownWithin
      have facedLess := OrderBook.restingSize_reduced? facedWithin
      dsimp only
      split
      · next usedUp =>
        simp only [usedUp, executedQuantity, List.foldr_cons, List.foldr_nil, Option.toList_none, List.nil_append,
          restingSize_cons, restingSize_append, restingSize_nil] at *
        omega
      · next left rest =>
        -- The resting order is used up, and the rest of the incoming one goes on.
        have further := ih left
        simp only [rest, OrderBook.reduced?_resting rest, executedQuantity, List.foldr_cons, Option.toList_none,
          Option.toList_some, restingSize_cons, restingSize_append, restingSize_nil] at *
        omega
    · simp [executedQuantity]

/-- The totals of sound levels are what is left of their orders. -/
theorem BookSide.Sound.foldr_total {side : Side} {levels : BookSide} (sound : levels.Sound side) :
    levels.foldr (fun level n => level.total.toNat + n) 0 = restingSize levels.orders := by
  -- A level adds up what its orders add up to.
  induction levels with
  | nil => rfl
  | cons level worse ih =>
    obtain ⟨tidy, -, sound⟩ := BookSide.sound_cons.mp sound
    rw [List.foldr_cons, ih sound, BookSide.orders_cons, restingSize_append, tidy.total]

/-- The cached totals of a sound book are what is left of its orders. -/
theorem OrderBook.Sound.restingQuantity_eq {book : OrderBook} (sound : book.Sound) :
    book.restingQuantity = restingSize book.resting := by
  -- Both sides are sums over their levels.
  have bids : book.bids.foldr (fun level n => level.total.toNat + n) 0 = restingSize (book.orders .buy) :=
    (sound.levels .buy).foldr_total
  have asks : book.asks.foldr (fun level n => level.total.toNat + n) 0 = restingSize (book.orders .sell) :=
    (sound.levels .sell).foldr_total
  unfold OrderBook.restingQuantity OrderBook.resting
  rw [foldr_add_append, bids, asks, restingSize_append]

namespace Book

variable {book next : Book} {event : Event} {new : NewOrder} {report : Report} {side : Side} {order : Order}

/-- A new order and what rested before rest afterwards, but for twice what was traded. -/
theorem Adds.restingSize_eq (adds : book.Adds event new report next) :
    new.size.toNat + restingSize book.orders.resting =
      2 * executedQuantity report.fills + restingSize next.orders.resting := by
  -- What is swept leaves both sides, and what is left of the newcomer joins its own.
  have swept := sweep_takes_twice new.side (book.arriving event.sequence new) (book.orders.orders new.side.opposite)
  have rejoined :
      restingSize (Queue.rejoin new.side (book.sweepOf event.sequence new).left (book.orders.orders new.side)) =
      restingSize (book.sweepOf event.sequence new).left.toList + restingSize (book.orders.orders new.side) := by
    cases (book.sweepOf event.sequence new).left with
    | none => simp [Queue.rejoin]
    | some left => simp [Queue.rejoin, restingSize_perm Queue.join_perm]
  have fills := adds.fills_eq
  have size : (book.arriving event.sequence new).remaining = new.size := rfl
  rw [restingSize_perm (OrderBook.resting_perm book.orders new.side),
    restingSize_perm (OrderBook.resting_perm next.orders new.side), restingSize_append, restingSize_append,
    adds.queues.own, adds.queues.faced, rejoined, fills]
  rw [restingSize_cons, restingSize_append, size] at swept
  unfold sweepOf
  omega

/-- What rested before an order was taken out is taken out with it, or rests afterwards. -/
theorem Removes.restingSize_eq (sound : book.Sound) (removes : book.Removes event side order report next) :
    restingSize book.orders.resting = order.remaining.toNat + restingSize next.orders.resting := by
  -- One order leaves its queue, and the number tells which.
  have distinct := sound.orders.distinct_queue side
  have found := find?_id_eq_some distinct removes.member
  have left := restingSize_eraseP found
  rw [restingSize_perm (OrderBook.resting_perm book.orders side),
    restingSize_perm (OrderBook.resting_perm next.orders side), restingSize_append, restingSize_append,
    removes.queues.own, removes.queues.other, ← eraseP_id_eq_filter distinct]
  omega

/-- The totals of a book reconcile with a history and with what rests in the book. -/
structure Reconciles (book : Book) (history : List (Event × Report)) : Prop where
  addedQuantity : book.stats.addedQuantity = addedSize history
  removedQuantity : book.stats.removedQuantity = restingSize (history.filterMap removedBy)
  fills : book.stats.Counts (fillsOf history)
  eventsApplied : book.stats.eventsApplied = history.length
  /-- What came in was taken out or rests, but for the fills, each of which took its size off two orders. -/
  balance : book.orders.restingQuantity + 2 * book.stats.executedQuantity + book.stats.removedQuantity =
    book.stats.addedQuantity

variable {history : List (Event × Report)}

/-- A fresh book reconciles with a history of nothing. -/
theorem reconciles_startingAt (key : BookKey) (origin : Sequence) : (startingAt key origin).Reconciles [] :=
  ⟨rfl, rfl, ⟨rfl, rfl, rfl, rfl⟩, rfl, rfl⟩

/-- A new order adds its size and its fills to the totals. -/
theorem Reconciles.adds (reconciles : book.Reconciles history) (sound : book.Sound) (sound' : next.Sound)
    (adds : book.Adds event new report next) : next.Reconciles (history ++ [(event, report)]) := by
  have stats : next.stats = ((book.stats.recordAdded new.size).recordFills report.fills).recordEvent := by
    rw [adds.kept, adds.reported]
  obtain ⟨added, removed, applied⟩ := Stats.recordFills_others (book.stats.recordAdded new.size) report.fills
  obtain ⟨executed, count, volume, last⟩ := reconciles.fills
  have counts : (book.stats.recordAdded new.size).Counts (fillsOf history) := ⟨executed, count, volume, last⟩
  obtain ⟨executed', count', volume', last'⟩ := counts.recordFills report.fills
  have size : event.addedSize = new.size.toNat := by simp only [Event.addedSize, adds.action]
  have noRemoval : removedBy (event, report) = none := by simp only [removedBy, adds.action]
  refine ⟨?_, ?_, ?_, ?_, ?_⟩
  · rw [stats, addedSize_concat, size, ← reconciles.addedQuantity]
    exact added
  · rw [stats, List.filterMap_append, List.filterMap_cons_none noRemoval, List.filterMap_nil, List.append_nil,
      ← reconciles.removedQuantity]
    exact removed
  · rw [stats, fillsOf_concat]
    exact ⟨executed', count', volume', last'⟩
  · rw [stats, List.length_append, ← reconciles.eventsApplied]
    exact congrArg (· + 1) applied
  · -- What is traded leaves both queues, and is counted once.
    have balance := reconciles.balance
    have sizes := adds.restingSize_eq
    rw [executedQuantity_append, ← executed] at executed'
    rw [sound.orders.restingQuantity_eq] at balance
    rw [sound'.orders.restingQuantity_eq, stats]
    simp only [Stats.recordEvent, added, removed, executed'] at *
    simp only [Stats.recordAdded]
    omega

/-- A removal adds what was left of its order to the totals. -/
theorem Reconciles.removes (reconciles : book.Reconciles history) (sound : book.Sound) (sound' : next.Sound)
    (removes : book.Removes event side order report next) : next.Reconciles (history ++ [(event, report)]) := by
  have stats : next.stats = (book.stats.recordRemoved order.remaining).recordEvent := by rw [removes.kept]
  have size : event.addedSize = 0 := by simp only [Event.addedSize, removes.action]
  have removal : removedBy (event, report) = some order := by simp only [removedBy, removes.action, removes.reported]
  have noFills : report.fills = [] := by rw [removes.reported]
  obtain ⟨executed, count, volume, last⟩ := reconciles.fills
  refine ⟨?_, ?_, ?_, ?_, ?_⟩
  · rw [stats, addedSize_concat, size, Nat.add_zero, ← reconciles.addedQuantity]
    rfl
  · rw [stats, List.filterMap_append, List.filterMap_cons_some removal, List.filterMap_nil, restingSize_append,
      ← reconciles.removedQuantity]
    rfl
  · rw [stats, fillsOf_concat, noFills, List.append_nil]
    exact ⟨executed, count, volume, last⟩
  · rw [stats, List.length_append, ← reconciles.eventsApplied]
    rfl
  · -- What is taken out leaves its queue, and is counted once.
    have balance := reconciles.balance
    have sizes := removes.restingSize_eq sound
    rw [sound.orders.restingQuantity_eq] at balance
    rw [sound'.orders.restingQuantity_eq, stats]
    simp only [Stats.recordEvent, Stats.recordRemoved]
    omega

/-- Every run adds its history to the totals. -/
theorem Reconciles.run (reconciles : book.Reconciles history) (sound : book.Sound) (calls : List Call) :
    (book.run calls).2.Reconciles (history ++ book.history calls) := by
  refine sound.run_keeps (fun orders stats reconciles => ?_) (fun sound takes reconciles => ?_) reconciles calls
  · -- Nothing has changed that is counted.
    obtain ⟨added, removed, fills, applied, balance⟩ := reconciles
    refine ⟨?_, ?_, ?_, ?_, ?_⟩ <;> rw [stats]
    · exact added
    · exact removed
    · exact fills
    · exact applied
    · rw [orders]
      exact balance
  · have sound' := takes.sound sound
    rcases takes.effect with ⟨new, adds⟩ | ⟨side, order, removes⟩
    · exact reconciles.adds sound sound' adds
    · exact reconciles.removes sound sound' removes

/-- A removal that is accepted reports the order of its number. -/
theorem Takes.exists_removedBy {id : OrderId} (takes : book.Takes event report next)
    (action : event.action = .remove id) : ∃ order, removedBy (event, report) = some order ∧ order.id = id := by
  -- The report of a removal tells the order that was removed.
  obtain ⟨side, order, number, removes⟩ := takes.removes action
  exact ⟨order, by simp only [removedBy, removes.action, removes.reported], number⟩

/-- The fills of a history are those of the reports of its run, one after another. -/
theorem fillsOf_history (book : Book) (calls : List Call) :
    fillsOf (book.history calls) = (reports (book.run calls).1).flatMap Report.fills := by
  -- The history keeps the reports of the run in their order.
  rw [← map_snd_history, List.flatMap_map]
  rfl

/--
The statistics of a book reconcile with its history and with what rests in it, wherever a run leads.

The fills of the history are all that were reported, and every removal in it reports the order that it took out.
-/
theorem reconciles_run (key : BookKey) (origin : Sequence) (calls : List Call) :
    ((startingAt key origin).run calls).2.Reconciles ((startingAt key origin).history calls) ∧
      fillsOf ((startingAt key origin).history calls) =
        (reports ((startingAt key origin).run calls).1).flatMap Report.fills ∧
      ∀ taken ∈ (startingAt key origin).history calls, ∀ id, taken.1.action = .remove id →
        ∃ order, removedBy taken = some order ∧ order.id = id := by
  -- The fresh book reconciles with no history, and every call goes on from there.
  have sound := sound_startingAt key origin
  have reconciles := (reconciles_startingAt key origin).run sound calls
  rw [List.nil_append] at reconciles
  refine ⟨reconciles, fillsOf_history _ calls, fun taken member id action => ?_⟩
  obtain ⟨before, next, -, takes⟩ := sound.takes_of_mem_history member
  exact takes.exists_removedBy action

end Book

end LimitBook
