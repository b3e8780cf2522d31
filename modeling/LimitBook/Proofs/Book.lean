import LimitBook.Book
import LimitBook.Proofs.OrderBook.Uncrossed

/-!
The invariant of a tracked book, and everything an event can do to a book under it: the refusals, judged by the
queues alone, and the two ways of being accepted. All later facts about events follow from these.
-/

namespace LimitBook

/-- An order that rests has something left, no more than it came with, and is in its book's market. -/
structure Order.Live (market : MarketId) (order : Order) : Prop where
  positive : order.remaining ≠ 0
  within : order.remaining ≤ order.quantity
  market : order.market = market

/-- An order of which something is left after a trade is still live. -/
theorem Order.Live.reduced {market : MarketId} {order left : Order} {quantity : Quantity}
    (live : order.Live market) (within : quantity ≤ order.remaining) (part : order.reduced? quantity = some left) :
    left.Live market := by
  -- Within its size an order can only get smaller, and it is kept only if it is not used up.
  obtain ⟨rfl, positive⟩ := Order.reduced?_eq_some part
  refine ⟨positive, ?_, live.market⟩
  have smaller := UInt64.le_iff_toNat_le.mp live.within
  show order.remaining - quantity ≤ order.quantity
  rw [UInt64.le_iff_toNat_le, UInt64.toNat_sub_of_le _ _ within]
  omega

/-- Fills change no totals but their own. -/
theorem Stats.recordFills_others (stats : Stats) (fills : List Fill) :
    (stats.recordFills fills).addedQuantity = stats.addedQuantity ∧
      (stats.recordFills fills).removedQuantity = stats.removedQuantity ∧
      (stats.recordFills fills).eventsApplied = stats.eventsApplied := by
  -- Each fill adds to what was traded and matched only.
  induction fills generalizing stats with
  | nil => exact ⟨rfl, rfl, rfl⟩
  | cons fill fills ih => exact ih (stats.recordFill fill)

namespace Book

/-- The book's parts agree on the market, its queues are sound and uncrossed, and whoever rests is live. -/
structure Sound (book : Book) : Prop where
  orders : book.orders.Sound
  market : book.orders.market = book.market
  follows : book.cursor.market = book.market
  uncrossed : book.orders.Uncrossed
  live : ∀ order ∈ book.orders.resting, order.Live book.market

/-- A fresh book is sound. -/
theorem sound_startingAt (key : BookKey) (origin : Sequence) : (Book.startingAt key origin).Sound where
  orders := OrderBook.sound_empty key.market
  market := rfl
  follows := rfl
  uncrossed := by
    -- Nobody bids.
    intro bid isBid
    simp [Book.startingAt, OrderBook.empty, OrderBook.orders, OrderBook.levels] at isBid
  live := by
    -- Nobody rests.
    intro order rests
    simp [Book.startingAt, OrderBook.empty, OrderBook.resting, OrderBook.orders, OrderBook.levels] at rests

/-- What rests at a price on a side, as an exact number. -/
def restingAt (book : Book) (side : Side) (price : Price) : Nat :=
  restingSize (Queue.atPrice (book.orders.orders side) price)

/-- Why an action is refused, judged by the queues alone. -/
def actionRefusal? (book : Book) : Action → Option BookError
  | .add new =>
    if new.size = 0 then some (.invalidSize new.id)
    else if book.orders.Rests new.id then some (.duplicateOrder new.id)
    -- The whole size counts, also if part of it would trade away.
    else if UInt64.size ≤ book.restingAt new.side new.price + new.size.toNat then
      some (.levelOverflow new.id new.price)
    else none
  | .remove id => if book.orders.Rests id then none else some (.orderNotFound id)

/-- Why an event is refused: its market first, then its number, then what it asks for. -/
def refusal? (book : Book) (event : Event) : Option BookError :=
  if event.market ≠ book.market then some (.marketMismatch book.market event.market)
  else if event.sequence ≠ book.nextSequence then some (.sequence book.nextSequence event.sequence)
  else book.actionRefusal? event.action

/-- A new order is admitted if it asks for something, its number is free, and there is room at its price. -/
theorem actionRefusal?_add_eq_none {book : Book} {new : NewOrder} :
    book.actionRefusal? (.add new) = none ↔
      new.size ≠ 0 ∧ ¬book.orders.Rests new.id ∧
        book.restingAt new.side new.price + new.size.toNat < UInt64.size := by
  unfold actionRefusal?
  -- The three reasons are taken in the order in which they are looked at.
  by_cases empty : new.size = 0
  · simp [empty]
  · by_cases rests : book.orders.Rests new.id
    · simp [empty, rests]
    · simp [empty, rests]

/-- An order may be taken out if it rests. -/
theorem actionRefusal?_remove_eq_none {book : Book} {id : OrderId} :
    book.actionRefusal? (.remove id) = none ↔ book.orders.Rests id := by
  -- A removal is refused only for an order that does not rest.
  unfold actionRefusal?
  by_cases rests : book.orders.Rests id <;> simp [rests]

/-- How a new order sweeps the other side of the book. -/
def sweepOf (book : Book) (sequence : Sequence) (new : NewOrder) : Sweep :=
  sweep new.side (book.arriving sequence new) (book.orders.orders new.side.opposite)

/-- An accepted event brought in a new order: all that this did. -/
structure Adds (book : Book) (event : Event) (new : NewOrder) (report : Report) (next : Book) : Prop where
  action : event.action = .add new
  positive : new.size ≠ 0
  fresh : ¬book.orders.Rests new.id
  room : book.restingAt new.side new.price + new.size.toNat < UInt64.size
  queues : OrderBook.Arranged book.orders new.side
    (Queue.rejoin new.side (book.sweepOf event.sequence new).left (book.orders.orders new.side))
    (book.sweepOf event.sequence new).faced next.orders
  reported : report = ⟨event.sequence, (book.sweepOf event.sequence new).fills,
    (book.sweepOf event.sequence new).left, none, next.orders.top⟩
  kept : next = { book with
    cursor := book.cursor.advance
    orders := next.orders
    stats := ((book.stats.recordAdded new.size).recordFills (book.sweepOf event.sequence new).fills).recordEvent }

/-- An accepted event took out a resting order: all that this did. -/
structure Removes (book : Book) (event : Event) (side : Side) (order : Order) (report : Report) (next : Book) :
    Prop where
  action : event.action = .remove order.id
  member : order ∈ book.orders.orders side
  queues : OrderBook.Requeued book.orders side ((book.orders.orders side).filter (·.id ≠ order.id)) next.orders
  reported : report = ⟨event.sequence, [], none, some order, next.orders.top⟩
  kept : next = { book with
    cursor := book.cursor.advance
    orders := next.orders
    stats := (book.stats.recordRemoved order.remaining).recordEvent }

/-- An accepted event was in place and either brought in an order or took one out. -/
structure Takes (book : Book) (event : Event) (report : Report) (next : Book) : Prop where
  market : event.market = book.market
  sequence : event.sequence = book.nextSequence
  effect : (∃ new, book.Adds event new report next) ∨ ∃ side order, book.Removes event side order report next

variable {book next : Book} {event : Event} {new : NewOrder} {report : Report} {sequence : Sequence}

/-- The fills that are reported of a new order are those of its sweep. -/
theorem Adds.fills_eq (adds : book.Adds event new report next) :
    report.fills = (book.sweepOf event.sequence new).fills := by
  rw [adds.reported]

/-- An event out of place is refused for that, and one in place goes on to its action. -/
theorem Sound.check_eq (sound : book.Sound) (event : Event) :
    book.cursor.check event =
      if event.market ≠ book.market then .error (.marketMismatch book.market event.market)
      else if event.sequence ≠ book.nextSequence then .error (.sequence book.nextSequence event.sequence)
      else .ok () := by
  -- The cursor follows the market of the book.
  unfold Cursor.check nextSequence
  rw [sound.follows]

/-- Afterwards the number of a new order leads to what is left of it, and to nobody if nothing is. -/
theorem find?_eq_left (positive : new.size ≠ 0) (fresh : ¬book.orders.Rests new.id)
    {last : OrderBook}
    (arranged : OrderBook.Arranged book.orders new.side
      (Queue.rejoin new.side (book.sweepOf sequence new).left (book.orders.orders new.side))
      (book.sweepOf sequence new).faced last) :
    last.find? new.id = (book.sweepOf sequence new).left := by
  cases rest : (book.sweepOf sequence new).left with
  | some left =>
    -- What is left of the order rests under its number.
    rw [arranged.sound.find?_eq_some]
    refine ⟨OrderBook.mem_resting.mpr ⟨new.side, ?_⟩, ?_⟩
    · rw [arranged.own]
      exact Queue.mem_rejoin.mpr (.inl rest)
    · rw [(sweep_left rest positive).1]
      rfl
  | none =>
    -- Nobody else has the number: not on its own side, and not among those who still face it.
    rw [Option.eq_none_iff_forall_ne_some]
    intro order found
    obtain ⟨rests, number⟩ := arranged.sound.find?_eq_some.mp found
    obtain ⟨any, member⟩ := OrderBook.mem_resting.mp rests
    rw [← number] at fresh
    rcases Side.eq_or_eq_opposite any new.side with rfl | rfl
    · rw [arranged.own, rest] at member
      exact fresh (OrderBook.rests_of_mem member)
    · rw [arranged.faced] at member
      rcases mem_sweep_faced member with stays | ⟨stood, stands, quantity, -, part⟩
      · exact fresh (OrderBook.rests_of_mem stays)
      · have sameNumber : order.id = stood.id := by rw [(Order.reduced?_eq_some part).1]
        rw [sameNumber] at fresh
        exact fresh (OrderBook.rests_of_mem stands)

/-- A new order that nothing speaks against is taken in. -/
theorem Sound.add_ok (sound : book.Sound) (sequence : Sequence) (admitted : book.actionRefusal? (.add new) = none) :
    ∃ orders, book.add sequence new = .ok
        (⟨sequence, (book.sweepOf sequence new).fills, (book.sweepOf sequence new).left, none, orders.top⟩,
          { book with
            orders
            stats := (book.stats.recordAdded new.size).recordFills (book.sweepOf sequence new).fills }) ∧
      OrderBook.Arranged book.orders new.side
        (Queue.rejoin new.side (book.sweepOf sequence new).left (book.orders.orders new.side))
        (book.sweepOf sequence new).faced orders := by
  obtain ⟨positive, fresh, room⟩ := actionRefusal?_add_eq_none.mp admitted
  -- The new order is inserted and matched, which is the same as sweeping the other side first.
  have arrives : (book.arriving sequence new).remaining ≠ 0 := positive
  obtain ⟨inserted, last, accepted, trades, arranged⟩ :=
    sound.orders.insert_match sound.uncrossed arrives fresh room
  have number : (book.arriving sequence new).id = new.id := rfl
  rw [number] at trades
  refine ⟨last, ?_, arranged⟩
  -- The tests pass, and what is reported are the parts of the sweep.
  unfold add
  rw [if_neg positive, accepted]
  simp only [Bind.bind, Except.bind, Pure.pure, Except.pure, trades]
  rw [find?_eq_left positive fresh arranged]
  rfl

/-- A resting order is taken out. -/
theorem Sound.remove_ok (sound : book.Sound) (sequence : Sequence) {side : Side} {order : Order}
    (member : order ∈ book.orders.orders side) :
    ∃ orders, book.remove sequence order.id = .ok (⟨sequence, [], none, some order, orders.top⟩,
        { book with orders, stats := book.stats.recordRemoved order.remaining }) ∧
      OrderBook.Requeued book.orders side ((book.orders.orders side).filter (·.id ≠ order.id)) orders := by
  obtain ⟨orders, removed, requeued⟩ := sound.orders.cancel_ok member
  refine ⟨orders, ?_, requeued⟩
  -- What is given up is the order itself, which is then counted and reported.
  unfold remove
  rw [removed]
  rfl

/-- What the queues speak against is refused, for the reason that they give. -/
theorem Sound.act_error (sound : book.Sound) {action : Action} {error : BookError}
    (refused : book.actionRefusal? action = some error) : book.act sequence action = .error error := by
  cases action with
  | add new =>
    show book.add sequence new = .error error
    unfold add
    by_cases empty : new.size = 0
    · -- A size of zero is seen before the queues are.
      simp only [actionRefusal?, if_pos empty, Option.some.injEq] at refused
      rw [if_pos empty, ← refused]
      rfl
    · simp only [actionRefusal?, if_neg empty] at refused
      rw [if_neg empty]
      -- The number comes before the room at the price.
      by_cases rests : book.orders.Rests new.id
      · rw [if_pos rests, Option.some.injEq] at refused
        rw [sound.orders.insert_duplicate rests, ← refused]
        rfl
      · rw [if_neg rests] at refused
        split at refused
        · next full =>
          have overflows : book.orders.insert (book.arriving sequence new) =
              .error (.levelOverflow new.id new.price) := sound.orders.insert_overflow rests full
          rw [overflows, ← Option.some.inj refused]
          rfl
        · simp at refused
  | remove id =>
    simp only [actionRefusal?] at refused
    show book.remove sequence id = .error error
    split at refused
    · simp at refused
    · next absent =>
      -- The order does not rest, so taking it out fails.
      unfold remove
      rw [sound.orders.cancel_absent absent, ← Option.some.inj refused]
      rfl

/-- Everything the rules speak against is refused, for the first reason that they give. -/
theorem Sound.apply_error (sound : book.Sound) {error : BookError} (refused : book.refusal? event = some error) :
    book.apply event = .error error := by
  unfold refusal? at refused
  unfold apply
  rw [sound.check_eq]
  split at refused
  · next foreign =>
    -- For another market: nothing else is looked at.
    rw [if_pos foreign, ← Option.some.inj refused]
    rfl
  · next own =>
    rw [if_neg own]
    split at refused
    · next misplaced =>
      -- For this market, but out of turn.
      rw [if_pos misplaced, ← Option.some.inj refused]
      rfl
    · next inPlace =>
      -- In place, so the action decides.
      rw [if_neg inPlace]
      simp only [Bind.bind, Except.bind, sound.act_error refused]

/-- An event that no rule speaks against is accepted, and does what its action says. -/
theorem Sound.apply_ok (sound : book.Sound) (admitted : book.refusal? event = none) :
    ∃ report next, book.apply event = .ok (report, next) ∧ book.Takes event report next := by
  unfold refusal? at admitted
  split at admitted
  · simp at admitted
  · next own =>
    -- The first two refusals are ruled out, one after the other.
    split at admitted
    · simp at admitted
    · next inPlace =>
      -- The event is in place, so what it asks for is done, and then it is counted.
      have checked : book.cursor.check event = .ok () := by rw [sound.check_eq, if_neg own, if_neg inPlace]
      have market := Classical.not_not.mp own
      have sequence := Classical.not_not.mp inPlace
      unfold apply
      rw [checked]
      -- The action is not refused either, and what it does depends on its kind.
      cases action : event.action with
      | add new =>
        rw [action] at admitted
        obtain ⟨positive, fresh, room⟩ := actionRefusal?_add_eq_none.mp admitted
        obtain ⟨orders, added, arranged⟩ := sound.add_ok event.sequence admitted
        simp only [Bind.bind, Except.bind, act, added]
        exact ⟨_, _, rfl, market, sequence, .inl ⟨new, action, positive, fresh, room, arranged, rfl, rfl⟩⟩
      | remove id =>
        rw [action] at admitted
        obtain ⟨order, rests, rfl⟩ := actionRefusal?_remove_eq_none.mp admitted
        obtain ⟨side, member⟩ := OrderBook.mem_resting.mp rests
        obtain ⟨orders, removed, requeued⟩ := sound.remove_ok event.sequence member
        simp only [Bind.bind, Except.bind, act, removed]
        exact ⟨_, _, rfl, market, sequence, .inr ⟨side, order, action, member, requeued, rfl, rfl⟩⟩

/-- Whatever is accepted is taken in as the rules say, and no rule spoke against it. -/
theorem Sound.takes (sound : book.Sound) (accepted : book.apply event = .ok (report, next)) :
    book.refusal? event = none ∧ book.Takes event report next := by
  cases refusal : book.refusal? event with
  | some error => simp [sound.apply_error refusal] at accepted
  | none =>
    -- There is one answer, so it is the one that the rules give.
    obtain ⟨report', next', accepted', takes⟩ := sound.apply_ok refusal
    rw [accepted] at accepted'
    obtain ⟨rfl, rfl⟩ := Prod.mk.inj (Except.ok.inj accepted')
    exact ⟨rfl, takes⟩

/-- An accepted event that brings in an order does what adding that order does. -/
theorem Takes.adds (takes : book.Takes event report next) (brings : event.action = .add new) :
    book.Adds event new report next := by
  rcases takes.effect with ⟨other, adds⟩ | ⟨side, order, removes⟩
  · obtain rfl := Action.add.inj (adds.action.symm.trans brings)
    exact adds
  · -- An event that takes an order out does not bring one in.
    simp [removes.action] at brings

/-- An accepted event that is to take out an order takes out the one that rests under its number. -/
theorem Takes.removes {id : OrderId} (takes : book.Takes event report next) (names : event.action = .remove id) :
    ∃ side order, order.id = id ∧ book.Removes event side order report next := by
  -- An event does one thing only, so that what it names tells a removal from an arrival.
  rcases takes.effect with ⟨new, adds⟩ | ⟨side, order, removes⟩
  · simp [adds.action] at names
  · exact ⟨side, order, Action.remove.inj (removes.action.symm.trans names), removes⟩

/-- An accepted event leaves the book its key. -/
theorem Takes.key_eq (takes : book.Takes event report next) : next.key = book.key := by
  -- Whatever an event does, the book that it leaves is that of before in all but levels and counters.
  rcases takes.effect with ⟨new, adds⟩ | ⟨side, order, removes⟩
  · rw [adds.kept]
  · rw [removes.kept]

/-- An accepted event moves the book on by one and is counted once. -/
theorem Takes.advances (takes : book.Takes event report next) :
    next.nextSequence = book.nextSequence + 1 ∧
      next.stats.eventsApplied = book.stats.eventsApplied + 1 := by
  rcases takes.effect with ⟨new, adds⟩ | ⟨side, order, removes⟩
  · -- Fills and sizes are counted elsewhere, and so do not touch the count of events.
    have others := Stats.recordFills_others (book.stats.recordAdded new.size) (book.sweepOf event.sequence new).fills
    rw [adds.kept]
    exact ⟨rfl, congrArg (· + 1) others.2.2⟩
  · rw [removes.kept]
    exact ⟨rfl, rfl⟩

/-- Below the last number the successor of the word is that of the number. -/
theorem Takes.next_toNat (takes : book.Takes event report next) (below : event.sequence.toNat + 1 < UInt64.size) :
    next.nextSequence.toNat = book.nextSequence.toNat + 1 := by
  -- The sequence of the event is the next one, and this has a successor below the limit of the words.
  rw [takes.sequence, UInt64.size] at below
  rw [takes.advances.1, UInt64.toNat_add, UInt64.toNat_one]
  omega

end Book

end LimitBook
