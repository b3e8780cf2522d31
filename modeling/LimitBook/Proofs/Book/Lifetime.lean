import LimitBook.Proofs.Book.Run
import LimitBook.Proofs.OrderBook.Trades

/-!
The lifetime of an order: the calls that are made while it rests. All along it is the order that was accepted, with
as much or less left, and it ends when the order is removed or when a trade uses it up.
-/

namespace LimitBook.Book

open OrderBook (Trade)

/-- The reports among some answers. -/
def reports (answers : List (Option (Except BookError Report))) : List Report :=
  answers.filterMap fun answer =>
    match answer with
    | some (.ok report) => some report
    | _ => none

/-- The trades that an event makes if it is accepted, one by one. -/
def tradesOf (book : Book) (event : Event) : List Trade :=
  match event.action with
  | .add new =>
    match book.orders.insert (book.arriving event.sequence new) with
    | .ok inserted => inserted.trades new.id
    | .error _ => []
  | .remove _ => []

/-- The trades that a call makes: those of an event that is accepted, and otherwise none. -/
def tradesOfCall (book : Book) : Call → List Trade
  | .apply event =>
    match book.apply event with
    | .ok _ => book.tradesOf event
    | .error _ => []
  | .resync _ => []

/-- The trades of a run, one by one. -/
def tradesDuring (book : Book) : List Call → List Trade
  | [] => []
  | call :: calls => book.tradesOfCall call ++ (book.call call).2.tradesDuring calls

/-- An order of this number rests whenever one of the calls is made. -/
def RestsDuring (book : Book) (id : OrderId) : List Call → Prop
  | [] => True
  | call :: calls => book.orders.Rests id ∧ (book.call call).2.RestsDuring id calls

/-- Whether an order rests during a run is settled by making the calls. -/
instance decidableRestsDuring (book : Book) (id : OrderId) : (calls : List Call) → Decidable (book.RestsDuring id calls)
  | [] => .isTrue trivial
  | call :: calls =>
    have := decidableRestsDuring (book.call call).2 id calls
    inferInstanceAs (Decidable (book.orders.Rests id ∧ (book.call call).2.RestsDuring id calls))

/-- A report ends the stay of an order: it was removed, or used up as the maker of a fill. -/
def Ends (report : Report) (id : OrderId) : Prop :=
  (∃ taken, report.removed = some taken ∧ taken.id = id) ∨
    ∃ fill ∈ report.fills, fill.maker = id ∧ fill.makerFilled = true

/-- An order rests until one of the calls ends its stay. -/
def LeavesDuring (book : Book) (id : OrderId) : List Call → Prop
  | [] => False
  | call :: calls => book.orders.Rests id ∧
      ((∃ report ∈ reports [(book.call call).1], Ends report id) ∨ (book.call call).2.LeavesDuring id calls)

variable {book next : Book} {event : Event} {new : NewOrder} {report : Report} {id : OrderId} {order left : Order}
  {side any : Side} {call : Call} {calls front back : List Call}

section Runs

/-- A run may be made in two parts. -/
theorem run_append (book : Book) (front back : List Call) :
    book.run (front ++ back) =
      ((book.run front).1 ++ ((book.run front).2.run back).1, ((book.run front).2.run back).2) := by
  -- The book varies along the calls in front.
  induction front generalizing book with
  | nil => rfl
  | cons call front ih => simp only [List.cons_append, run, ih]

/-- A run leaves a sound book sound. -/
theorem sound_run (sound : book.Sound) (calls : List Call) : (book.run calls).2.Sound := by
  -- The book varies along the calls.
  induction calls generalizing book with
  | nil => exact sound
  | cons call calls ih => exact ih (sound.call call)

/-- An order rests during a run if it does so during both of its parts. -/
theorem restsDuring_append :
    book.RestsDuring id (front ++ back) ↔ book.RestsDuring id front ∧ (book.run front).2.RestsDuring id back := by
  -- The book varies along the calls in front.
  induction front generalizing book with
  | nil => simp [RestsDuring, run]
  | cons call front ih => simp only [List.cons_append, RestsDuring, run, ih, and_assoc]

/-- An order rests during a single call if it does so before it. -/
theorem restsDuring_singleton : book.RestsDuring id [call] ↔ book.orders.Rests id := and_iff_left trivial

/-- Whoever rests during a run and after it rests before it. -/
theorem RestsDuring.rests (during : book.RestsDuring id calls) (after : (book.run calls).2.orders.Rests id) :
    book.orders.Rests id := by
  -- Without calls nothing has changed, and with some the order rests ahead of the first one.
  cases calls with
  | nil => exact after
  | cons call calls => exact during.1

/-- All that a call does: it is answered without a report and changes no order, or it carries an accepted event out. -/
theorem Sound.call_cases (sound : book.Sound) (call : Call) :
    (reports [(book.call call).1] = [] ∧ book.tradesOfCall call = [] ∧ (book.call call).2.orders = book.orders) ∨
      ∃ event report next, call = .apply event ∧ book.apply event = .ok (report, next) ∧
        book.Takes event report next ∧ book.call call = (some (.ok report), next) ∧
        book.tradesOfCall call = book.tradesOf event := by
  -- A resync leaves no report, no trade and the same orders, and so does a refusal.
  cases call with
  | resync next => exact .inl ⟨rfl, rfl, rfl⟩
  | apply event =>
    simp only [Book.call, tradesOfCall]
    cases outcome : book.apply event with
    | error error => exact .inl ⟨rfl, rfl, rfl⟩
    | ok taken => exact .inr ⟨event, taken.1, taken.2, rfl, outcome, (sound.takes outcome).2, rfl, rfl⟩

/-- An event that is accepted leaves the book that the call leaves. -/
theorem apply_eq_ok (accepted : (book.apply event).isOk = true) :
    ∃ report, book.apply event = .ok (report, (book.call (.apply event)).2) := by
  -- A refusal is no acceptance.
  cases outcome : book.apply event with
  | error error => simp [outcome, Except.isOk, Except.toBool] at accepted
  | ok taken => exact ⟨taken.1, by simp only [Book.call, outcome]⟩

/-- The reports of a run are those of its first call and those of the others. -/
theorem reports_run_cons (book : Book) (call : Call) (calls : List Call) :
    reports (book.run (call :: calls)).1 =
      reports [(book.call call).1] ++ reports ((book.call call).2.run calls).1 := by
  -- The first answer is kept if it is a report.
  simp only [run, reports, List.filterMap_cons, List.filterMap_nil]
  split <;> rfl

end Runs

section Trades

/-- A new order trades from the book that it has joined to the book that the event leaves. -/
theorem Adds.tradesOf (sound : book.Sound) (adds : book.Adds event new report next) :
    ∃ inserted,
      OrderBook.Requeued book.orders new.side
        (Queue.join new.side (book.arriving event.sequence new) (book.orders.orders new.side)) inserted ∧
      book.tradesOf event = inserted.tradesFrom new.side new.id ∧
      Trade.Chain inserted (book.tradesOf event) next.orders ∧
      (book.tradesOf event).map Trade.fill = report.fills := by
  obtain ⟨inserted, accepted, joined⟩ : ∃ inserted,
      book.orders.insert (book.arriving event.sequence new) = .ok inserted ∧
      OrderBook.Requeued book.orders new.side
        (Queue.join new.side (book.arriving event.sequence new) (book.orders.orders new.side)) inserted :=
    sound.orders.insert_ok adds.fresh adds.room
  have arrives : (book.arriving event.sequence new).remaining ≠ 0 := adds.positive
  obtain ⟨inserted', last, accepted', trades, arranged⟩ :=
    sound.orders.insert_match sound.uncrossed arrives adds.fresh adds.room
  -- There is one way to insert the order, and the queues after the trades say which book is left.
  rw [accepted] at accepted'
  obtain rfl := Except.ok.inj accepted'
  obtain rfl : last = next.orders := by
    have market := arranged.market.trans adds.queues.market.symm
    refine arranged.sound.eq_of_orders_eq adds.queues.sound market fun any => ?_
    rcases Side.eq_or_eq_opposite any new.side with rfl | rfl
    · exact arranged.own.trans adds.queues.own.symm
    · exact arranged.faced.trans adds.queues.faced.symm
  have matched : inserted.matchCrossed new.id = ((book.sweepOf event.sequence new).fills, next.orders) := trades
  -- The new order is found on its own side, from where it trades.
  have stands : book.arriving event.sequence new ∈ inserted.orders new.side := by
    rw [joined.own]
    exact Queue.mem_join.mpr (.inl rfl)
  have found : inserted.find? new.id = some (book.arriving event.sequence new) :=
    joined.sound.find?_eq_some.mpr ⟨OrderBook.mem_resting.mpr ⟨new.side, stands⟩, rfl⟩
  have unfolded : book.tradesOf event = inserted.trades new.id := by
    simp only [Book.tradesOf, adds.action, accepted]
  obtain ⟨chain, fills⟩ := OrderBook.chain_trades inserted new.id
  rw [matched, ← unfolded] at chain fills
  refine ⟨inserted, joined, ?_, chain, ?_⟩
  · rw [unfolded, OrderBook.trades, found]
    rfl
  · rw [fills, adds.reported]

/-- An order that is taken out makes no trade. -/
theorem Removes.tradesOf (removes : book.Removes event side order report next) :
    book.tradesOf event = [] ∧ report.fills = [] := by
  -- A removal trades nothing, and its report says so.
  refine ⟨?_, by rw [removes.reported]⟩
  unfold Book.tradesOf
  rw [removes.action]

/-- The trades of an accepted event have the fills that are reported. -/
theorem Takes.fills_tradesOf (sound : book.Sound) (takes : book.Takes event report next) :
    (book.tradesOf event).map Trade.fill = report.fills := by
  -- The trades of an arrival are those that are reported, and a removal has none.
  rcases takes.effect with ⟨new, adds⟩ | ⟨side, order, removes⟩
  · obtain ⟨-, -, -, -, fills⟩ := adds.tradesOf sound
    exact fills
  · rw [removes.tradesOf.1, removes.tradesOf.2, List.map_nil]

/-- The trades of a run have the fills of its reports, in order. -/
theorem Sound.fills_tradesDuring (sound : book.Sound) (calls : List Call) :
    (book.tradesDuring calls).map Trade.fill = (reports (book.run calls).1).flatMap Report.fills := by
  induction calls generalizing book with
  | nil => rfl
  | cons call calls ih =>
    rw [tradesDuring, List.map_append, ih (sound.call call), reports_run_cons, List.flatMap_append]
    congr 1
    -- What remains are the fills of the first call.
    rcases sound.call_cases call with ⟨noReport, noTrades, -⟩ | ⟨event, report, next, -, -, takes, answer, trades⟩
    · rw [noReport, noTrades]
      rfl
    · rw [trades, takes.fills_tradesOf sound, answer]
      simp [reports]

/-- Every trade of an accepted event is one of its new order, which takes part in it as the taker. -/
theorem Takes.follows (sound : book.Sound) (takes : book.Takes event report next) {trade : Trade}
    (member : trade ∈ book.tradesOf event) :
    ∃ new inserted, book.Adds event new report next ∧
      OrderBook.Requeued book.orders new.side
        (Queue.join new.side (book.arriving event.sequence new) (book.orders.orders new.side)) inserted ∧
      trade.Follows inserted new.side new.id := by
  -- Only an arrival trades, and its trades follow the place where the newcomer has joined.
  rcases takes.effect with ⟨new, adds⟩ | ⟨side, order, removes⟩
  · obtain ⟨inserted, joined, unfolded, -, -⟩ := adds.tradesOf sound
    rw [unfolded] at member
    exact ⟨new, inserted, adds, joined, joined.sound.follows member⟩
  · rw [removes.tradesOf.1] at member
    simp at member

/-- Every trade of a run is one of an event that some sound book on the way takes in. -/
theorem Sound.takes_of_mem_tradesDuring (sound : book.Sound) {trade : Trade}
    (member : trade ∈ book.tradesDuring calls) :
    ∃ (before : Book) (event : Event) (report : Report) (next : Book),
      before.Sound ∧ before.Takes event report next ∧ trade ∈ before.tradesOf event := by
  -- The trade belongs to the first call or to a later one.
  induction calls generalizing book with
  | nil => simp [tradesDuring] at member
  | cons call calls ih =>
    rcases List.mem_append.mp member with first | later
    · rcases sound.call_cases call with ⟨-, noTrades, -⟩ | ⟨event, report, next, -, -, takes, -, trades⟩
      · rw [noTrades] at first
        simp at first
      · rw [trades] at first
        exact ⟨book, event, report, next, sound, takes, first⟩
    · exact ih (sound.call call) later

/-- Every trade of a run takes out its maker exactly if it marks it as filled, and its taker likewise. -/
theorem Sound.takesOut_iff_of_mem_tradesDuring (sound : book.Sound) {trade : Trade}
    (member : trade ∈ book.tradesDuring calls) :
    (trade.TakesOut trade.fill.taker ↔ trade.fill.takerFilled = true) ∧
      (trade.TakesOut trade.fill.maker ↔ trade.fill.makerFilled = true) := by
  -- The trade belongs to one event, and its flags are right there.
  obtain ⟨before, event, report, next, sound, takes, member⟩ := sound.takes_of_mem_tradesDuring member
  obtain ⟨new, inserted, -, -, follows⟩ := takes.follows sound member
  exact follows.takesOut_iff

end Trades

section Lifetime

/-- Whoever rests after an accepted event is what is left of the newcomer, or of somebody who stood on that side. -/
theorem Takes.stood (takes : book.Takes event report next) (member : left ∈ next.orders.orders any) :
    (∃ new, event.action = .add new ∧ ¬book.orders.Rests new.id ∧
      left = { book.arriving event.sequence new with remaining := left.remaining }) ∨
    ∃ stood ∈ book.orders.orders any, left = { stood with remaining := left.remaining } := by
  rcases takes.effect with ⟨new, adds⟩ | ⟨side, order, removes⟩
  · rcases Side.eq_or_eq_opposite any new.side with rfl | rfl
    · rw [adds.queues.own] at member
      rcases Queue.mem_rejoin.mp member with rest | stays
      · exact .inl ⟨new, adds.action, adds.fresh, (sweep_left rest adds.positive).1⟩
      · exact .inr ⟨left, stays, rfl⟩
    · -- On the other side nobody is new.
      rw [adds.queues.faced] at member
      rcases mem_sweep_faced member with stays | ⟨stood, stands, quantity, -, part⟩
      · exact .inr ⟨left, stays, rfl⟩
      · refine .inr ⟨stood, stands, ?_⟩
        rw [(Order.reduced?_eq_some part).1]
  · rw [removes.queues.orders_eq] at member
    refine .inr ⟨left, ?_, rfl⟩
    split at member
    · next here =>
      rw [here]
      exact (List.mem_filter.mp member).1
    · exact member

/-- Whoever rests before and after a call is the same order on the same side, with another size left perhaps. -/
theorem Sound.call_stays (sound : book.Sound) (call : Call) (before : order ∈ book.orders.orders side)
    (after : left ∈ (book.call call).2.orders.orders any) (same : left.id = order.id) :
    any = side ∧ left = { order with remaining := left.remaining } := by
  rcases sound.call_cases call with ⟨-, -, unchanged⟩ | ⟨event, report, next, -, -, takes, answer, -⟩
  · rw [unchanged] at after
    obtain ⟨rfl, rfl⟩ := sound.orders.eq_of_id_eq after before same
    exact ⟨rfl, rfl⟩
  · rw [answer] at after
    rcases takes.stood after with ⟨new, -, fresh, isNew⟩ | ⟨stood, member, isStood⟩
    · -- A newcomer's number is free, and this one was taken.
      have number : left.id = new.id := by rw [isNew]; rfl
      have taken := OrderBook.rests_of_mem before
      rw [← same, number] at taken
      exact absurd taken fresh
    · have number : stood.id = order.id := by rw [← same, isStood]
      obtain ⟨rfl, rfl⟩ := sound.orders.eq_of_id_eq member before number
      exact ⟨rfl, isStood⟩

/-- An order that rests during a run and after it is the same order on the same side, with another size left perhaps. -/
theorem Sound.run_stays (sound : book.Sound) (before : order ∈ book.orders.orders side)
    (during : book.RestsDuring order.id calls) (after : left ∈ (book.run calls).2.orders.orders any)
    (same : left.id = order.id) : any = side ∧ left = { order with remaining := left.remaining } := by
  induction calls generalizing book order side with
  | nil =>
    obtain ⟨rfl, rfl⟩ := sound.orders.eq_of_id_eq after before same
    exact ⟨rfl, rfl⟩
  | cons call calls ih =>
    -- The order that rests after the first call is the one from before, and it goes through the others.
    have restsLast : ((book.call call).2.run calls).2.orders.Rests order.id := same ▸ OrderBook.rests_of_mem after
    obtain ⟨middle, restsMiddle, number⟩ := during.2.rests restsLast
    obtain ⟨between, member⟩ := OrderBook.mem_resting.mp restsMiddle
    obtain ⟨rfl, isOrder⟩ := sound.call_stays call before member number
    have during' : (book.call call).2.RestsDuring middle.id calls := by rw [number]; exact during.2
    obtain ⟨side, isMiddle⟩ := ih (sound.call call) member during' after (same.trans number.symm)
    refine ⟨side, ?_⟩
    rw [isMiddle, isOrder]

/-- An order that rests during a run and after it still has its place and its price. -/
theorem Sound.exists_standing (sound : book.Sound) (before : order ∈ book.orders.orders side)
    (during : book.RestsDuring order.id calls) (after : (book.run calls).2.orders.Rests order.id) :
    ∃ left ∈ (book.run calls).2.orders.orders side, left.id = order.id ∧ left.price = order.price := by
  -- Whoever rests in the end has stayed on its side.
  obtain ⟨left, rests, number⟩ := after
  obtain ⟨any, member⟩ := OrderBook.mem_resting.mp rests
  obtain ⟨rfl, isOrder⟩ := sound.run_stays before during member number
  exact ⟨left, member, number, by rw [isOrder]⟩

/-- Whoever rests is still there when a newcomer has joined its queue. -/
theorem rests_of_joined {orders inserted : OrderBook} {newcomer : Order}
    (joined : OrderBook.Requeued orders side (Queue.join side newcomer (orders.orders side)) inserted)
    (rests : orders.Rests id) : inserted.Rests id := by
  -- The newcomer joins one side, and joining drops nobody.
  obtain ⟨order, rests, rfl⟩ := rests
  obtain ⟨any, member⟩ := OrderBook.mem_resting.mp rests
  have joinedToo : order ∈ inserted.orders any := by
    rw [joined.orders_eq]
    split
    · next own => exact Queue.mem_join.mpr (.inr (own ▸ member))
    · exact member
  exact OrderBook.rests_of_mem joinedToo

/-- Whoever leaves with an accepted event is removed by it, or used up as the maker of one of its trades. -/
theorem Takes.leaves (sound : book.Sound) (takes : book.Takes event report next) (before : book.orders.Rests id)
    (after : ¬next.orders.Rests id) : Ends report id := by
  rcases takes.effect with ⟨new, adds⟩ | ⟨side, order, removes⟩
  · right
    -- The order still rests when the newcomer has joined, so a trade takes it out.
    obtain ⟨inserted, joined, unfolded, chain, fills⟩ := adds.tradesOf sound
    obtain ⟨trade, member, out⟩ := chain.exists_takesOut (rests_of_joined joined before) after
    have follows := joined.sound.follows (unfolded ▸ member)
    have differs : id ≠ new.id := fun same => adds.fresh (same ▸ before)
    obtain ⟨maker, filled⟩ := follows.maker_of_takesOut out differs
    exact ⟨trade.fill, fills ▸ List.mem_map_of_mem member, maker, filled⟩
  · left
    refine ⟨order, by rw [removes.reported], ?_⟩
    -- Only the order of the event is missing afterwards.
    obtain ⟨other, rests, rfl⟩ := before
    obtain ⟨any, member⟩ := OrderBook.mem_resting.mp rests
    apply Classical.byContradiction
    intro differs
    have stays : other ∈ next.orders.orders any := by
      rw [removes.queues.orders_eq]
      split
      · next here =>
        rw [here] at member
        exact List.mem_filter.mpr ⟨member, by simpa using Ne.symm differs⟩
      · exact member
    exact after (OrderBook.rests_of_mem stays)

/-- Whoever rests before a run rests until it ends, or until a call ends its stay. -/
theorem Sound.stays_or_leaves (sound : book.Sound) (before : book.orders.Rests id) (calls : List Call) :
    (book.RestsDuring id calls ∧ (book.run calls).2.orders.Rests id) ∨ book.LeavesDuring id calls := by
  induction calls generalizing book with
  | nil => exact .inl ⟨trivial, before⟩
  | cons call calls ih =>
    by_cases after : (book.call call).2.orders.Rests id
    · -- The order is still there after the first call, so it leaves with one of the others or not at all.
      rcases ih (sound.call call) after with ⟨during, last⟩ | leaves
      · exact .inl ⟨⟨before, during⟩, last⟩
      · exact .inr ⟨before, .inr leaves⟩
    · rcases sound.call_cases call with ⟨-, -, unchanged⟩ | ⟨event, report, next, rfl, -, takes, answer, -⟩
      · exact absurd (unchanged ▸ before) after
      · rw [answer] at after
        refine .inr ⟨before, .inl ⟨report, ?_, takes.leaves sound before after⟩⟩
        rw [answer]
        exact List.mem_cons_self

end Lifetime

end LimitBook.Book
