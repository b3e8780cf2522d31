import LimitBook.Proofs.Book.Lifetime

/-!
Where the size of an order goes. Every trade takes the same amount off its two orders and no other event takes
anything off, so that what an order came with is what was traded of it, and what is left of it or was taken out.
-/

namespace LimitBook

/-- How much some fills trade of the order of a number, be it their maker or their taker. -/
def tradedOf (id : OrderId) (fills : List Fill) : Nat :=
  executedQuantity (fills.filter fun fill => fill.maker = id ∨ fill.taker = id)

/-- How much is left under a number in a list of orders. -/
def leftOf (id : OrderId) (orders : List Order) : Nat := restingSize (orders.filter (·.id = id))

section Sums

variable {id : OrderId} {order : Order} {orders others : List Order} {fills : List Fill}

/-- Nothing is traded without fills. -/
@[simp] theorem tradedOf_nil (id : OrderId) : tradedOf id [] = 0 := rfl

/-- The first fill counts if it names the order. -/
@[simp] theorem tradedOf_cons (id : OrderId) (fill : Fill) (fills : List Fill) :
    tradedOf id (fill :: fills) =
      (if fill.maker = id ∨ fill.taker = id then fill.quantity.toNat else 0) + tradedOf id fills := by
  unfold tradedOf
  -- A fill that names the order adds its size, and any other fill adds nothing.
  by_cases named : fill.maker = id ∨ fill.taker = id
  · simp [named, executedQuantity]
  · simp [named]

/-- What two lists of fills trade adds up. -/
@[simp] theorem tradedOf_append (id : OrderId) (fills more : List Fill) :
    tradedOf id (fills ++ more) = tradedOf id fills + tradedOf id more := by
  -- The fills ahead are taken off one by one.
  induction fills with
  | nil => simp
  | cons fill fills ih => simp only [List.cons_append, tradedOf_cons, ih]; omega

/-- Nothing is left without orders. -/
@[simp] theorem leftOf_nil (id : OrderId) : leftOf id [] = 0 := rfl

/-- The first order counts if it has the number. -/
@[simp] theorem leftOf_cons (id : OrderId) (order : Order) (orders : List Order) :
    leftOf id (order :: orders) = (if order.id = id then order.remaining.toNat else 0) + leftOf id orders := by
  -- An order of this number adds what is left of it, and any other adds nothing.
  unfold leftOf
  by_cases named : order.id = id <;> simp [named]

/-- What is left in two lists adds up. -/
@[simp] theorem leftOf_append (id : OrderId) (orders others : List Order) :
    leftOf id (orders ++ others) = leftOf id orders + leftOf id others := by
  -- The orders of this number are filtered from both parts.
  unfold leftOf
  rw [List.filter_append, restingSize_append]

/-- The order of a list does not matter for what is left in it. -/
theorem leftOf_perm (same : orders.Perm others) : leftOf id orders = leftOf id others :=
  restingSize_perm (same.filter _)

/-- Under the number of nobody nothing is left. -/
theorem leftOf_eq_zero (absent : ∀ order ∈ orders, order.id ≠ id) : leftOf id orders = 0 := by
  unfold leftOf
  -- No order of this number is left in the filter.
  rw [List.filter_eq_nil_iff.mpr fun order member => by simpa using absent order member]
  rfl

/-- Among different numbers what is left under one is what the order of that number has left. -/
theorem leftOf_eq (distinct : (orders.map Order.id).Nodup) (member : order ∈ orders) :
    leftOf order.id orders = order.remaining.toNat := by
  induction orders with
  | nil => simp at member
  | cons first orders ih =>
    -- The number comes once, so it is that of the first order or of one behind it.
    rw [leftOf_cons]
    rcases List.mem_cons.mp member with rfl | later
    · rw [if_pos rfl, leftOf_eq_zero (id_ne_first distinct), Nat.add_zero]
    · have differs := (id_ne_first distinct order later).symm
      rw [if_neg differs, ih (List.nodup_cons.mp distinct).2 later, Nat.zero_add]

/-- What is traded of an order is what is missing of it afterwards. -/
theorem leftOf_reduced? {quantity : Quantity} (id : OrderId) (within : quantity ≤ order.remaining) :
    (if order.id = id then order.remaining.toNat else 0) =
      (if order.id = id then quantity.toNat else 0) + leftOf id (order.reduced? quantity).toList := by
  have less := OrderBook.restingSize_reduced? within
  by_cases named : order.id = id
  · -- What is left of the order has its number.
    have kept : ∀ left ∈ (order.reduced? quantity).toList, decide (left.id = id) = true := by
      intro left rest
      rw [(Order.reduced?_eq_some (Option.mem_toList.mp rest)).1]
      exact decide_eq_true named
    unfold leftOf
    rwa [if_pos named, if_pos named, List.filter_eq_self.mpr kept]
  · have others : ∀ left ∈ (order.reduced? quantity).toList, left.id ≠ id := by
      intro left rest
      rw [(Order.reduced?_eq_some (Option.mem_toList.mp rest)).1]
      exact named
    rw [if_neg named, if_neg named, leftOf_eq_zero others]

/-- Of a resting order a book has what it has left. -/
theorem leftOf_of_mem {book : OrderBook} (sound : book.Sound) (rests : order ∈ book.resting) (same : order.id = id) :
    leftOf id book.resting = order.remaining.toNat := by
  -- Numbers do not repeat, so that there is this one order to add up.
  subst same
  exact leftOf_eq sound.distinct rests

/-- Of an order that does not rest a book has nothing. -/
theorem leftOf_of_absent {book : OrderBook} (absent : ¬book.Rests id) : leftOf id book.resting = 0 :=
  leftOf_eq_zero fun order rests same => absent ⟨order, rests, same⟩

end Sums

section Sweep

variable {side : Side} {id : OrderId} {incoming resting : Order} {queue : List Order}

/-- A trade counts for the order that comes in and for the one that rests, which are not the same. -/
theorem tradedOf_fillOf (side : Side) (id : OrderId) (apart : resting.id ≠ incoming.id) :
    tradedOf id [OrderBook.fillOf side incoming resting] =
      (if incoming.id = id then (OrderBook.fillOf side incoming resting).quantity.toNat else 0) +
        (if resting.id = id then (OrderBook.fillOf side incoming resting).quantity.toNat else 0) := by
  rw [tradedOf_cons, tradedOf_nil]
  show (if resting.id = id ∨ incoming.id = id then _ else 0) + 0 = _
  -- The fill names both parties, whose numbers differ, so that its size is counted for one of them at most.
  by_cases isResting : resting.id = id
  · have notIncoming : incoming.id ≠ id := fun same => apart (isResting.trans same.symm)
    simp [isResting, notIncoming]
  · simp [isResting]

/-- In a sweep nothing is lost: what was there is traded, or left of the incoming order, or still faces it. -/
theorem sweep_conserves (side : Side) (id : OrderId) (apart : ∀ order ∈ queue, order.id ≠ incoming.id) :
    leftOf id (incoming :: queue) =
      tradedOf id (sweep side incoming queue).fills +
        leftOf id ((sweep side incoming queue).left.toList ++ (sweep side incoming queue).faced) := by
  -- The induction is on the queue that is swept; what is left of the incoming order varies along it.
  induction queue generalizing incoming with
  | nil => simp [sweep]
  | cons resting waiting ih =>
    unfold sweep
    split
    · -- Both orders lose what is traded.
      have ownWithin : (OrderBook.fillOf side incoming resting).quantity ≤ incoming.remaining :=
        OrderBook.fillOf_quantity_le_incoming
      have facedWithin : (OrderBook.fillOf side incoming resting).quantity ≤ resting.remaining :=
        OrderBook.fillOf_quantity_le_resting
      have ownLess := leftOf_reduced? id ownWithin
      have facedLess := leftOf_reduced? id facedWithin
      have traded := tradedOf_fillOf side id (apart resting List.mem_cons_self)
      dsimp only
      split
      · next usedUp =>
        simp only [usedUp, Option.toList_none, List.nil_append, leftOf_cons, leftOf_append, leftOf_nil] at *
        omega
      · next left rest =>
        -- The resting order is used up, and the rest of the incoming one goes on.
        have number : left.id = incoming.id := by rw [(Order.reduced?_eq_some rest).1]
        have apart' : ∀ order ∈ waiting, order.id ≠ left.id := fun order member =>
          number ▸ apart order (List.mem_cons_of_mem _ member)
        have further := ih apart'
        rw [tradedOf_cons, tradedOf_nil] at traded
        simp only [rest, OrderBook.reduced?_resting rest, Option.toList_none, Option.toList_some, leftOf_cons,
          leftOf_append, leftOf_nil, tradedOf_cons] at *
        omega
    · simp

end Sweep

namespace Book

open OrderBook (Trade)

variable {book next : Book} {event : Event} {new : NewOrder} {report : Report} {id : OrderId} {order : Order}
  {side : Side} {calls : List Call}

/-- Whichever side is counted first, as much is left in a book under a number. -/
theorem leftOf_resting (orders : OrderBook) (side : Side) (id : OrderId) :
    leftOf id orders.resting = leftOf id (orders.orders side) + leftOf id (orders.orders side.opposite) := by
  rw [leftOf_perm (OrderBook.resting_perm orders side), leftOf_append]

/-- What a new order brings and what rested before is traded, or rests afterwards. -/
theorem Adds.conserves (adds : book.Adds event new report next) (id : OrderId) :
    leftOf id (book.arriving event.sequence new :: book.orders.resting) =
      tradedOf id report.fills + leftOf id next.orders.resting := by
  have apart : ∀ order ∈ book.orders.orders new.side.opposite, order.id ≠ (book.arriving event.sequence new).id :=
    fun order member => OrderBook.id_ne_of_fresh adds.fresh member
  have swept := sweep_conserves new.side id apart
  have rejoined :
      leftOf id (Queue.rejoin new.side (book.sweepOf event.sequence new).left (book.orders.orders new.side)) =
      leftOf id (book.sweepOf event.sequence new).left.toList + leftOf id (book.orders.orders new.side) := by
    cases (book.sweepOf event.sequence new).left with
    | none => simp [Queue.rejoin]
    | some left => simp [Queue.rejoin, leftOf_perm Queue.join_perm]
  -- The own side gains what is left of the order, and the other side is what it has swept.
  have fills := adds.fills_eq
  rw [leftOf_cons, leftOf_resting book.orders new.side, leftOf_resting next.orders new.side, adds.queues.own,
    adds.queues.faced, rejoined, fills]
  rw [leftOf_cons, leftOf_append] at swept
  unfold sweepOf
  omega

/-- What rested before an order was taken out is taken out with it, or rests afterwards. -/
theorem Removes.conserves (sound : book.Sound) (removes : book.Removes event side order report next) (id : OrderId) :
    leftOf id book.orders.resting = leftOf id report.removed.toList + leftOf id next.orders.resting := by
  rw [leftOf_resting book.orders side, leftOf_resting next.orders side, removes.queues.own, removes.queues.other,
    removes.reported]
  have distinct := sound.orders.distinct_queue side
  by_cases isOrder : order.id = id
  · -- The order itself is taken out with all that it has left.
    subst isOrder
    have others : ∀ other ∈ (book.orders.orders side).filter (·.id ≠ order.id), other.id ≠ order.id :=
      fun other member => by simpa using (List.mem_filter.mp member).2
    rw [leftOf_eq distinct removes.member, leftOf_eq_zero others]
    simp
  · -- Whoever has another number stays.
    have others :
        leftOf id ((book.orders.orders side).filter (·.id ≠ order.id)) = leftOf id (book.orders.orders side) := by
      unfold leftOf
      rw [List.filter_filter]
      congr 1
      refine List.filter_congr fun other _ => ?_
      by_cases same : other.id = id
      · simp [same, Ne.symm isOrder]
      · simp [same]
    rw [others]
    simp [isOrder]

/-- While an order rests, what it has left before a call is traded or taken out by the call, or left after it. -/
theorem Sound.call_conserves (sound : book.Sound) (call : Call) (rests : book.orders.Rests id) :
    leftOf id book.orders.resting =
      tradedOf id ((reports [(book.call call).1]).flatMap Report.fills) +
        leftOf id ((reports [(book.call call).1]).filterMap Report.removed) +
          leftOf id (book.call call).2.orders.resting := by
  rcases sound.call_cases call with ⟨noReport, -, unchanged⟩ | ⟨event, report, next, -, -, takes, answer, -⟩
  · simp [noReport, unchanged]
  · have only : reports [(book.call call).1] = [report] := by rw [answer]; rfl
    rw [only, answer]
    rcases takes.effect with ⟨new, adds⟩ | ⟨side, order, removes⟩
    · -- A newcomer has another number, since this one is taken.
      have differs : (book.arriving event.sequence new).id ≠ id := by
        intro same
        have number : new.id = id := same
        exact adds.fresh (number ▸ rests)
      have conserved := adds.conserves id
      rw [leftOf_cons, if_neg differs] at conserved
      have noRemoval : report.removed = none := by rw [adds.reported]
      simp only [List.flatMap_cons, List.flatMap_nil, List.append_nil, List.filterMap_cons, noRemoval,
        List.filterMap_nil, leftOf_nil]
      omega
    · have conserved := removes.conserves sound id
      have noFills : report.fills = [] := by rw [removes.reported]
      have removal : report.removed = some order := by rw [removes.reported]
      simp only [removal, Option.toList_some] at conserved
      simp only [List.flatMap_cons, List.flatMap_nil, List.append_nil, List.filterMap_cons, removal, noFills,
        List.filterMap_nil, tradedOf_nil]
      omega

/-- What an order has left before a run of its lifetime is traded or taken out in the run, or left after it. -/
theorem Sound.run_conserves (sound : book.Sound) (during : book.RestsDuring id calls) :
    leftOf id book.orders.resting =
      tradedOf id ((reports (book.run calls).1).flatMap Report.fills) +
        leftOf id ((reports (book.run calls).1).filterMap Report.removed) +
          leftOf id (book.run calls).2.orders.resting := by
  -- What one call moves is traded, removed or left, and this is what the later calls start from.
  induction calls generalizing book with
  | nil => simp [run, reports]
  | cons call calls ih =>
    have first := sound.call_conserves call during.1
    have others := ih (sound.call call) during.2
    rw [reports_run_cons, List.flatMap_append, List.filterMap_append, tradedOf_append, leftOf_append]
    have last : (book.run (call :: calls)).2 = ((book.call call).2.run calls).2 := rfl
    rw [last]
    omega

/-- Whoever is taken out by an event does not rest after it. -/
theorem Takes.removed_absent (sound : book.Sound) (takes : book.Takes event report next)
    (removed : report.removed = some order) : ¬next.orders.Rests order.id := by
  rcases takes.effect with ⟨new, adds⟩ | ⟨side, order', removes⟩
  · rw [adds.reported] at removed
    simp at removed
  · rw [removes.reported] at removed
    obtain rfl := Option.some.inj removed
    rintro ⟨other, rests, same⟩
    -- Nobody of its own side has kept the number, and nobody opposite ever had it.
    obtain ⟨any, member⟩ := OrderBook.mem_resting.mp rests
    rcases Side.eq_or_eq_opposite any side with rfl | rfl
    · rw [removes.queues.own] at member
      simpa [same] using (List.mem_filter.mp member).2
    · rw [removes.queues.other] at member
      exact sound.orders.id_ne_opposite removes.member member same.symm

/-- Whoever a call takes out is the only one, and does not rest afterwards. -/
theorem Sound.call_removes (sound : book.Sound) (call : Call)
    (member : order ∈ (reports [(book.call call).1]).filterMap Report.removed) :
    (reports [(book.call call).1]).filterMap Report.removed = [order] ∧
      ¬(book.call call).2.orders.Rests order.id := by
  -- A call without a report removes nothing, and a report holds one order at most.
  rcases sound.call_cases call with ⟨noReport, -, -⟩ | ⟨event, report, next, -, -, takes, answer, -⟩
  · rw [noReport] at member
    simp at member
  · have only : reports [(book.call call).1] = [report] := by rw [answer]; rfl
    rw [only, List.filterMap_cons] at member ⊢
    -- The order that is removed is the only one of the report, and it rests no longer.
    rw [answer]
    cases removed : report.removed with
    | none => simp [removed] at member
    | some other =>
      simp only [removed, List.filterMap_nil, List.mem_singleton] at member ⊢
      subst member
      exact ⟨rfl, takes.removed_absent sound removed⟩

/-- In its lifetime an order is taken out at most once, and then it is gone: nothing of it is left in the book. -/
theorem Sound.removed_last (sound : book.Sound) (during : book.RestsDuring id calls)
    (member : order ∈ (reports (book.run calls).1).filterMap Report.removed) (same : order.id = id) :
    ¬(book.run calls).2.orders.Rests id ∧
      leftOf id ((reports (book.run calls).1).filterMap Report.removed) = order.remaining.toNat := by
  induction calls generalizing book with
  | nil => simp [run, reports] at member
  | cons call calls ih =>
    rw [reports_run_cons, List.filterMap_append] at member ⊢
    have last : (book.run (call :: calls)).2 = ((book.call call).2.run calls).2 := rfl
    rw [last, leftOf_append]
    rcases List.mem_append.mp member with first | later
    · -- The order does not rest after the first call, so that no call of its lifetime comes after it.
      obtain ⟨isOnly, absent⟩ := sound.call_removes call first
      rw [same] at absent
      cases calls with
      | cons next calls => exact absurd during.2.1 absent
      | nil =>
        refine ⟨absent, ?_⟩
        rw [isOnly]
        simp [run, reports, same]
    · obtain ⟨absent, size⟩ := ih (sound.call call) during.2 later
      refine ⟨absent, ?_⟩
      -- The first call has taken out nobody of this number, since calls come after it.
      have notFirst : ∀ taken ∈ (reports [(book.call call).1]).filterMap Report.removed, taken.id ≠ id := by
        intro taken first number
        cases calls with
        | nil => simp [run, reports] at later
        | cons next calls => exact (sound.call_removes call first).2 (number ▸ during.2.1)
      rw [leftOf_eq_zero notFirst, size, Nat.zero_add]

section Lifetime

variable {start : Book}

/-- All along its lifetime the size of an order is what was traded or taken out of it, and what is left of it. -/
theorem Adds.balance (adds : book.Adds event new report start) (sound : start.Sound)
    (during : start.RestsDuring new.id calls) :
    new.size.toNat =
      tradedOf new.id ((report :: reports (start.run calls).1).flatMap Report.fills) +
        leftOf new.id ((reports (start.run calls).1).filterMap Report.removed) +
          leftOf new.id (start.run calls).2.orders.resting := by
  have absent : ∀ order ∈ book.orders.resting, order.id ≠ new.id := fun order rests same =>
    adds.fresh ⟨order, rests, same⟩
  have number : (book.arriving event.sequence new).id = new.id := rfl
  have size : (book.arriving event.sequence new).remaining = new.size := rfl
  -- First everything is traded or rests, and the calls then use up what rests.
  have first := adds.conserves new.id
  have others := sound.run_conserves during
  rw [leftOf_cons, if_pos number, leftOf_eq_zero absent, size] at first
  rw [List.flatMap_cons, tradedOf_append]
  omega

/-- While an order rests nobody of its number has been taken out. -/
theorem Sound.none_removed (sound : book.Sound) (during : book.RestsDuring id calls)
    (rests : (book.run calls).2.orders.Rests id) :
    ∀ taken ∈ (reports (book.run calls).1).filterMap Report.removed, taken.id ≠ id :=
  fun _ member same => (sound.removed_last during member same).1 rests

/-- What is not traded of an order that rests is left of it. -/
theorem Adds.balance_of_rests (adds : book.Adds event new report start) (sound : start.Sound)
    (during : start.RestsDuring new.id calls) (rests : order ∈ (start.run calls).2.orders.resting)
    (same : order.id = new.id) :
    new.size.toNat =
      tradedOf new.id ((report :: reports (start.run calls).1).flatMap Report.fills) + order.remaining.toNat := by
  -- The order rests in the end, and so nothing of it was taken off in between.
  have noneTaken := sound.none_removed during ⟨order, rests, same⟩
  have balance := adds.balance sound during
  rwa [leftOf_eq_zero noneTaken, leftOf_of_mem (sound_run sound calls).orders rests same, Nat.add_zero] at balance

/-- What is not traded of an order that is taken out was taken out with it. -/
theorem Adds.balance_of_removed (adds : book.Adds event new report start) (sound : start.Sound)
    (during : start.RestsDuring new.id calls)
    (member : order ∈ (reports (start.run calls).1).filterMap Report.removed) (same : order.id = new.id) :
    new.size.toNat =
      tradedOf new.id ((report :: reports (start.run calls).1).flatMap Report.fills) + order.remaining.toNat := by
  -- The order was the last thing to be removed under this number, and so nothing of it is left.
  obtain ⟨gone, size⟩ := sound.removed_last during member same
  have balance := adds.balance sound during
  rwa [size, leftOf_of_absent gone, Nat.add_zero] at balance

/-- An order that is gone without having been taken out was traded completely. -/
theorem Adds.balance_of_usedUp (adds : book.Adds event new report start) (sound : start.Sound)
    (during : start.RestsDuring new.id calls) (gone : ¬(start.run calls).2.orders.Rests new.id)
    (noneTaken : ∀ taken ∈ (reports (start.run calls).1).filterMap Report.removed, taken.id ≠ new.id) :
    new.size.toNat = tradedOf new.id ((report :: reports (start.run calls).1).flatMap Report.fills) := by
  -- Nothing was taken off and nothing is left, so that all has been traded.
  have balance := adds.balance sound during
  rwa [leftOf_eq_zero noneTaken, leftOf_of_absent gone, Nat.add_zero] at balance

/-- An order that comes in takes nobody out. -/
theorem Adds.filterMap_removed (adds : book.Adds event new report next) (reports : List Report) :
    (report :: reports).filterMap Report.removed = reports.filterMap Report.removed :=
  List.filterMap_cons_none (by rw [adds.reported])

/-- All along its lifetime an order is the one that came in, with as much or less left. -/
theorem Takes.remains (takes : book.Takes event report start) (action : event.action = .add new) (sound : start.Sound)
    (fresh : ¬book.orders.Rests new.id) (during : start.RestsDuring new.id calls)
    (rests : order ∈ (start.run calls).2.orders.resting) (same : order.id = new.id) :
    order = { book.arriving event.sequence new with remaining := order.remaining } := by
  -- Its number was free, so whoever has it right afterwards is the newcomer.
  obtain ⟨first, restsFirst, number⟩ := during.rests ⟨order, rests, same⟩
  obtain ⟨side, member⟩ := OrderBook.mem_resting.mp restsFirst
  have isNew : first = { book.arriving event.sequence new with remaining := first.remaining } := by
    rcases takes.stood member with ⟨other, isAdd, -, isNew⟩ | ⟨stood, stands, isStood⟩
    · rw [action] at isAdd
      obtain rfl := Action.add.inj isAdd
      exact isNew
    · have taken : stood.id = new.id := by rw [← number, isStood]
      exact absurd (taken ▸ OrderBook.rests_of_mem stands) fresh
  -- From then on the order stays the same but for what is left of it.
  obtain ⟨any, member'⟩ := OrderBook.mem_resting.mp rests
  obtain ⟨-, isFirst⟩ := sound.run_stays member (number ▸ during) member' (same.trans number.symm)
  rw [isFirst, isNew]

end Lifetime

/-- What an order that has come in looks like after some reports: where its size went, and what its fills say of it. -/
structure Accounted (added : Order) (reports : List Report) (trades : List Trade) (last : OrderBook) : Prop where
  /-- An order that rests is the one that came in, and what is missing of it was traded. -/
  resting : ∀ order, last.find? added.id = some order →
    order = { added with remaining := order.remaining } ∧
      order.filledQuantity.toNat = tradedOf added.id (reports.flatMap Report.fills) ∧
      added.quantity.toNat = tradedOf added.id (reports.flatMap Report.fills) + order.remaining.toNat ∧
      ∀ taken ∈ reports.filterMap Report.removed, taken.id ≠ added.id
  /-- An order that was taken out rests no more, and what was not traded of it was taken out. -/
  removed : ∀ taken ∈ reports.filterMap Report.removed, taken.id = added.id →
    last.find? added.id = none ∧
      added.quantity.toNat = tradedOf added.id (reports.flatMap Report.fills) + taken.remaining.toNat
  /-- An order that neither rests nor was taken out was traded completely. -/
  usedUp : last.find? added.id = none → (∀ taken ∈ reports.filterMap Report.removed, taken.id ≠ added.id) →
    added.quantity.toNat = tradedOf added.id (reports.flatMap Report.fills)
  /-- The trades are those of the reported fills. -/
  reported : trades.map Trade.fill = reports.flatMap Report.fills
  /-- A fill that names the order marks it as filled exactly if the order leaves the book with this trade. -/
  marked : ∀ trade ∈ trades,
    (trade.fill.maker = added.id → (trade.fill.makerFilled = true ↔ trade.TakesOut added.id)) ∧
      (trade.fill.taker = added.id → (trade.fill.takerFilled = true ↔ trade.TakesOut added.id))

/--
The whole size of an order is accounted for, all along its lifetime.

The order comes in with an event that is accepted at any moment of a stream, and the calls that follow are made while
it rests; an order that takes its number later has a lifetime of its own.
-/
theorem size_accounted (key : BookKey) (origin : Sequence) (before : List Call) {start : Book}
    (action : event.action = .add new)
    (accepted : ((Book.startingAt key origin).run before).2.apply event = .ok (report, start))
    (during : start.RestsDuring new.id calls) :
    Accounted (((Book.startingAt key origin).run before).2.arriving event.sequence new)
      (report :: reports (start.run calls).1)
      (((Book.startingAt key origin).run before).2.tradesDuring (.apply event :: calls))
      (start.run calls).2.orders := by
  have reached := (Reachable.start key origin).run before
  generalize ((Book.startingAt key origin).run before).2 = book at accepted reached ⊢
  have sound := reached.sound
  have takes := (sound.takes accepted).2
  have sound' := takes.sound sound
  obtain ⟨other, adds⟩ | ⟨side, order, removes⟩ := takes.effect
  case inr => simp [removes.action] at action
  obtain rfl : other = new := Action.add.inj (adds.action.symm.trans action)
  have lastSound := sound_run sound' calls
  refine ⟨fun order isOrder => ?_, fun taken member same => ?_, fun absent noneTaken => ?_, ?_, fun trade member => ?_⟩
  · -- It rests, so nobody of its number was taken out.
    obtain ⟨rests, same⟩ : order ∈ (start.run calls).2.orders.resting ∧ order.id = other.id :=
      lastSound.orders.find?_eq_some.mp isOrder
    have isNew := takes.remains action sound' adds.fresh during rests same
    have balance := adds.balance_of_rests sound' during rests same
    have total : order.quantity = other.size := by rw [isNew]; rfl
    have filled : order.filledQuantity.toNat = order.quantity.toNat - order.remaining.toNat :=
      UInt64.toNat_sub_of_le _ _ (lastSound.live order rests).within
    have traded : order.filledQuantity.toNat =
        tradedOf other.id ((report :: reports (start.run calls).1).flatMap Report.fills) := by
      rw [filled, total]
      omega
    refine ⟨isNew, traded, balance, ?_⟩
    rw [adds.filterMap_removed]
    exact sound'.none_removed during ⟨order, rests, same⟩
  · -- It was taken out, so it is gone with all that it had left.
    rw [adds.filterMap_removed] at member
    have gone := (sound'.removed_last during member same).1
    exact ⟨lastSound.orders.find?_eq_none.mpr gone, adds.balance_of_removed sound' during member same⟩
  · rw [adds.filterMap_removed] at noneTaken
    exact adds.balance_of_usedUp sound' during (lastSound.orders.find?_eq_none.mp absent) noneTaken
  · have first : book.call (.apply event) = (some (.ok report), start) := by simp only [Book.call, accepted]
    rw [sound.fills_tradesDuring, reports_run_cons, first]
    rfl
  · obtain ⟨isTaker, isMaker⟩ := sound.takesOut_iff_of_mem_tradesDuring member
    exact ⟨fun maker => maker ▸ isMaker.symm, fun taker => taker ▸ isTaker.symm⟩

/-- Of the five that a seller comes with a buyer takes two, and the other three are taken out. -/
theorem size_accounted_of_removed :
    let before := (Book.startingAt ⟨⟨1⟩, ⟨7⟩⟩ 0).run []
    let sale : Event := ⟨⟨7⟩, 0, .add ⟨⟨1⟩, ⟨1⟩, 0, .sell, 5, ⟨100⟩⟩⟩
    let start := (before.2.call (.apply sale)).2
    let calls := opening.tail ++ [.apply ⟨⟨7⟩, 2, .remove ⟨1⟩⟩]
    start.RestsDuring ⟨1⟩ calls ∧
      ∃ report, before.2.apply sale = .ok (report, start) ∧
        Accounted (before.2.arriving 0 ⟨⟨1⟩, ⟨1⟩, 0, .sell, 5, ⟨100⟩⟩) (report :: reports (start.run calls).1)
          (before.2.tradesDuring (.apply sale :: calls)) (start.run calls).2.orders := by
  intro before sale start calls
  -- The sale is accepted, and its order rests until it is taken off.
  have accepted : (before.2.apply sale).isOk = true := by decide +kernel
  have during : start.RestsDuring ⟨1⟩ calls := by decide +kernel
  obtain ⟨report, outcome⟩ := apply_eq_ok accepted
  exact ⟨during, report, outcome, size_accounted ⟨⟨1⟩, ⟨7⟩⟩ 0 [] rfl outcome during⟩

end Book

end LimitBook
