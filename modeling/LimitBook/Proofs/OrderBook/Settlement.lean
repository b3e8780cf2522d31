import LimitBook.Proofs.OrderBook.Allocation
import LimitBook.Proofs.OrderBook.Reachable
import LimitBook.Proofs.OrderBook.Trades

/-!
Matching an order in any book, crossed or not, comes to an end. Every trade takes an order out, so there are only as
many as orders face the taker; and they stop only when the taker is gone, overtaken, or has nobody left to cross.
-/

namespace LimitBook

namespace Allocates

variable {incoming : Order} {reach : List Order} {fills : List Fill} {fill : Fill}

/-- Every fill is with one of the orders in reach. -/
theorem exists_maker (allocates : Allocates incoming reach fills) (member : fill ∈ fills) :
    ∃ maker ∈ reach, fill.Between incoming maker := by
  -- The fills are numbered as the orders in reach are.
  obtain ⟨i, found⟩ := List.mem_iff_getElem?.mp member
  obtain ⟨maker, isMaker, between, -⟩ := allocates.served i fill found
  exact ⟨maker, List.mem_of_getElem? isMaker, between⟩

/-- There are no more fills than orders in reach. -/
theorem length_le (allocates : Allocates incoming reach fills) : fills.length ≤ reach.length := by
  cases last : fills.getLast? with
  | none => simp [List.getLast?_eq_none_iff.mp last]
  | some fill =>
    -- The last fill has a partner at the same place.
    rw [List.getLast?_eq_getElem?] at last
    obtain ⟨maker, isMaker, -⟩ := allocates.served _ fill last
    have inRange := (List.getElem?_eq_some_iff.mp isMaker).1
    omega

/-- The fills come in the order of the queue: none is at a better price than one before it. -/
theorem noBetter {side : Side} (allocates : Allocates incoming reach fills) (sorted : Queue.InPriority side reach) :
    fills.Pairwise fun earlier later => ¬side.Better later.price earlier.price := by
  unfold Queue.InPriority at sorted
  rw [List.pairwise_iff_getElem] at sorted ⊢
  intro i j inRange inRange' before
  -- Each of two fills has the price of the order at its place.
  obtain ⟨first, isFirst, between, -⟩ := allocates.served i _ (List.getElem?_eq_getElem inRange)
  obtain ⟨later, isLater, between', -⟩ := allocates.served j _ (List.getElem?_eq_getElem inRange')
  obtain ⟨within, rfl⟩ := List.getElem?_eq_some_iff.mp isFirst
  obtain ⟨within', rfl⟩ := List.getElem?_eq_some_iff.mp isLater
  rw [between.price, between'.price]
  exact sorted i j within within' before

/-- A fill that another one follows uses up its maker and not its taker. -/
theorem flags (allocates : Allocates incoming reach fills) {i : Nat} (found : fills[i]? = some fill)
    (another : i + 1 < fills.length) : fill.makerFilled = true ∧ fill.takerFilled = false := by
  obtain ⟨maker, -, between, whole⟩ := allocates.served i fill found
  refine ⟨between.makerFilled.mpr (whole another), Bool.eq_false_iff.mpr fun usedUp => ?_⟩
  -- Only the last fill could use up the taker.
  have isLast := ((allocates.takerFilled i fill found).mp usedUp).1
  omega

end Allocates

namespace OrderBook

/-- One trade of the taker leads from a book to the next. -/
def Leads (side : Side) (taker : OrderId) (next book : OrderBook) : Prop :=
  ∃ fill, book.trade? side taker = some (fill, next)

/-- Trade after trade comes to an end, whatever the book. -/
theorem wellFounded_leads (side : Side) (taker : OrderId) : WellFounded (Leads side taker) :=
  -- The orders in both queues are counted, and every trade leaves fewer of them.
  Subrelation.wf (fun ⟨_, trade⟩ => queued_trade? trade) (measure queued).wf

/-- One round of a match: somebody leaves the book, and on the taker's side nobody but the taker is changed. -/
structure Trade.Round (trade : Trade) (side : Side) (taker : OrderId) : Prop where
  step : trade.before.trade? side taker = some (trade.fill, trade.after)
  removes : ∃ id, trade.TakesOut id
  shrinks : trade.after.queued < trade.before.queued
  others : (trade.after.orders side).filter (·.id ≠ taker) = (trade.before.orders side).filter (·.id ≠ taker)

/-- What matching an order reports and leaves behind. -/
structure Settles (book : OrderBook) (order : Order) (fills : List Fill) (last : OrderBook) : Prop where
  bounded : fills.length ≤ (book.orders order.side.opposite).length
  crossed : ∀ fill ∈ fills, fill.taker = order.id ∧ order.Crosses fill.price
  noBetter : fills.Pairwise fun earlier later => ¬order.side.opposite.Better later.price earlier.price
  flags : ∀ i fill, fills[i]? = some fill → i + 1 < fills.length → fill.makerFilled = true ∧ fill.takerFilled = false
  stopped : ¬last.Rests order.id ∨
    (∀ front, (last.orders order.side).head? = some front → front.id ≠ order.id) ∨
    last.orders order.side.opposite = [] ∨
    ∃ rest front, (last.orders order.side).head? = some rest ∧ rest.id = order.id ∧
      (last.orders order.side.opposite).head? = some front ∧ ¬rest.Crosses front.price
  others : (last.orders order.side).filter (·.id ≠ order.id) = (book.orders order.side).filter (·.id ≠ order.id)

variable {book next start last : OrderBook} {side : Side} {taker : OrderId} {fill : Fill} {order : Order}
  {trade : Trade} {trades : List Trade}

section Rounds

/-- Of two orders that trade at least one is used up. -/
theorem used_up (side : Side) (incoming resting : Order) :
    (fillOf side incoming resting).takerFilled = true ∨ (fillOf side incoming resting).makerFilled = true := by
  rw [takerFilled_fillOf]
  cases rest : incoming.reduced? (fillOf side incoming resting).quantity with
  | none => exact .inl rfl
  | some left =>
    -- Something is left of the incoming order, so the resting one had no more than was traded.
    refine .inr (beq_iff_eq.mpr ?_)
    exact (takes_whole rest).1.symm

/-- Every trade in a sound book is a round that takes an order out. -/
theorem Sound.round (sound : book.Sound) (trade : book.trade? side taker = some (fill, next)) :
    Trade.Round ⟨book, fill, next⟩ side taker := by
  obtain ⟨incoming, resting, behind, waiting, isTaker, executes⟩ := sound.executes trade
  refine ⟨trade, ?_, queued_trade? trade, ?_⟩
  · -- Whoever the trade uses up leaves with it.
    have flagged := used_up side incoming resting
    rw [← executes.reported] at flagged
    rcases flagged with takerFilled | makerFilled
    · exact ⟨fill.taker, (executes.takesOut_taker_iff sound).mpr takerFilled⟩
    · exact ⟨fill.maker, (executes.takesOut_maker_iff sound).mpr makerFilled⟩
  · -- The taker stands in front with whatever is left of it, and those behind it stay.
    have frontOnly : ∀ left ∈ (incoming.reduced? fill.quantity).toList, ¬decide (left.id ≠ taker) = true := by
      intro left rest
      rw [(Order.reduced?_eq_some (Option.mem_toList.mp rest)).1]
      simpa using isTaker
    rw [executes.arranged.own, executes.own, List.filter_append, List.filter_eq_nil_iff.mpr frontOnly]
    simp [isTaker]

/-- All trades of a match in a sound book are rounds. -/
theorem Sound.round_of_mem (sound : book.Sound) (member : trade ∈ book.tradesFrom side taker) :
    trade.Round side taker := by
  -- The induction is on the rounds; later ones start from a book that is sound again.
  fun_induction book.tradesFrom side taker with
  | case1 => simp at member
  | case2 book fill next first ih =>
    have round := sound.round first
    rcases List.mem_cons.mp member with rfl | later
    · exact round
    · obtain ⟨_, _, _, _, -, executes⟩ := sound.executes first
      exact ih executes.arranged.sound later

/-- What no round changes is the same after all of them. -/
theorem Trade.Chain.others (chain : Trade.Chain start trades last) (rounds : ∀ trade ∈ trades, trade.Round side taker) :
    (last.orders side).filter (·.id ≠ taker) = (start.orders side).filter (·.id ≠ taker) := by
  -- The first book varies along the rounds.
  induction trades generalizing start with
  | nil =>
    obtain rfl := chain
    rfl
  | cons trade trades ih =>
    obtain ⟨rfl, chain⟩ := chain
    rw [ih chain fun trade later => rounds trade (List.mem_cons_of_mem _ later)]
    exact (rounds trade List.mem_cons_self).others

end Rounds

section Stopping

/-- When a match is over there is no trade left to make. -/
theorem trade?_matchFrom (book : OrderBook) (side : Side) (taker : OrderId) :
    (book.matchFrom side taker).2.trade? side taker = none := by
  -- The run ends where there is no round, and what comes before leads to the same end.
  fun_induction book.tradesFrom side taker with
  | case1 book none_left => rwa [matchFrom_of_none none_left]
  | case2 book fill next trade ih => rwa [matchFrom_of_some trade]

/-- No trade is left to make only if the taker is not in front of its side or crosses nobody. -/
theorem Sound.stopped (sound : book.Sound) (none_left : book.trade? side taker = none) :
    (∀ front, (book.orders side).head? = some front → front.id ≠ taker) ∨ book.orders side.opposite = [] ∨
      ∃ rest front, (book.orders side).head? = some rest ∧ rest.id = taker ∧
        (book.orders side.opposite).head? = some front ∧ ¬rest.Crosses front.price := by
  -- A round needs somebody in front of either side.
  cases own : book.orders side with
  | nil => simp
  | cons incoming behind =>
    cases faced : book.orders side.opposite with
    | nil => simp
    | cons resting waiting =>
      by_cases isTaker : incoming.id = taker
      · -- The taker is in front and faces somebody, so it would have traded if it crossed.
        refine .inr (.inr ⟨incoming, resting, rfl, isTaker, rfl, fun crossing => ?_⟩)
        obtain ⟨next, trade, -⟩ := sound.trade?_of_crossing own faced crossing
        rw [isTaker, none_left] at trade
        simp at trade
      · refine .inl fun front isFront => ?_
        rw [← Option.some.inj isFront]
        exact isTaker

/-- An order that is known and not in front of its side makes no trade. -/
theorem Sound.matchCrossed_of_behind (sound : book.Sound)
    (behind : ∀ order ∈ book.resting, order.id = taker → (book.orders order.side).head? ≠ some order) :
    book.matchCrossed taker = ([], book) := by
  refine sound.matchCrossed_behind fun side front isFront isTaker => ?_
  have member := List.mem_of_head? isFront
  -- Whoever is in front of a side is in front of its own.
  refine behind front (mem_resting.mpr ⟨side, member⟩) isTaker ?_
  rw [sound.side_eq member]
  exact isFront

/-- The trades of a resting order are those that it makes from its own side. -/
theorem Sound.trades_eq (sound : book.Sound) (rests : order ∈ book.resting) :
    book.trades order.id = book.tradesFrom order.side order.id := by
  -- The taker is found where it rests.
  unfold OrderBook.trades
  rw [sound.find?_eq_some.mpr ⟨rests, rfl⟩]

/-- Matching a resting order reports fills in its reach and stops for want of another. -/
theorem Sound.settles (sound : book.Sound) (rests : order ∈ book.resting) :
    Settles book order (book.matchCrossed order.id).1 (book.matchCrossed order.id).2 := by
  have found : book.find? order.id = some order := sound.find?_eq_some.mpr ⟨rests, rfl⟩
  have matched : book.matchCrossed order.id = book.matchFrom order.side order.id := by
    unfold OrderBook.matchCrossed
    rw [found]
  obtain ⟨chain, -⟩ := chain_trades book order.id
  rw [sound.trades_eq rests] at chain
  have stopped := (sound.matchCrossed order.id).1.stopped (matched ▸ trade?_matchFrom book order.side order.id)
  have others := chain.others fun trade member => sound.round_of_mem member
  by_cases inFront : (book.orders order.side).head? = some order
  · -- In front of its side the order sweeps the queue that it faces.
    obtain ⟨behind, own⟩ := List.head?_eq_some_iff.mp inFront
    obtain ⟨last, swept, -⟩ := sound.matchCrossed_front own
    have fills : (book.matchCrossed order.id).1 =
        (sweep order.side order (book.orders order.side.opposite)).fills := by rw [swept]
    have allocates : Allocates order (Queue.inReach order.side order.price (book.orders order.side.opposite)) _ :=
      sweep_allocates rfl
    rw [← fills] at allocates
    have part : (Queue.inReach order.side order.price (book.orders order.side.opposite)).Sublist
        (book.orders order.side.opposite) := List.takeWhile_sublist _
    have sorted : Queue.InPriority order.side.opposite (book.orders order.side.opposite) :=
      (sound.levels order.side.opposite).inPriority
    refine ⟨Nat.le_trans allocates.length_le part.length_le, fun fill member => ?_,
      allocates.noBetter (List.Pairwise.sublist part sorted), fun i fill => allocates.flags, .inr stopped, others⟩
    obtain ⟨maker, isMaker, between⟩ := allocates.exists_maker member
    refine ⟨between.taker, ?_⟩
    rw [between.price]
    exact (Queue.mem_inReach isMaker).2
  · -- Behind somebody else it makes no trade, so there is nothing to say about any.
    have behind : book.matchCrossed order.id = ([], book) := by
      refine sound.matchCrossed_of_behind fun other member same => ?_
      -- Nobody else has its number.
      rw [sound.find?_eq_some.mpr ⟨member, same⟩] at found
      obtain rfl := Option.some.inj found
      exact inFront
    rw [behind] at stopped others ⊢
    exact ⟨Nat.zero_le _, by simp, .nil, by simp, .inr stopped, others⟩

end Stopping

/--
Matching an order comes to an end in every book that can be built, crossed or not, and stops for a reason.

The trades are the rounds of the loop, from the book to the one that is left, and each takes somebody out. An order
that does not rest or is not in front of its side changes nothing.
-/
theorem matchCrossed_settles (reached : book.Reachable) (taker : OrderId) :
    (∀ side, Acc (Leads side taker) book) ∧
    Trade.Chain book (book.trades taker) (book.matchCrossed taker).2 ∧
    (book.trades taker).map Trade.fill = (book.matchCrossed taker).1 ∧
    (∀ order ∈ book.resting, order.id = taker →
      (∀ trade ∈ book.trades taker, trade.Round order.side taker) ∧
      Settles book order (book.matchCrossed taker).1 (book.matchCrossed taker).2) ∧
    ((∀ order ∈ book.resting, order.id = taker → (book.orders order.side).head? ≠ some order) →
      book.matchCrossed taker = ([], book)) := by
  -- The rounds are well founded by the number of orders, and they are the trades that were recorded.
  have sound := reached.sound
  obtain ⟨chain, fills⟩ := chain_trades book taker
  refine ⟨fun side => (wellFounded_leads side taker).apply book, chain, fills, fun order rests isTaker => ?_,
    sound.matchCrossed_of_behind⟩
  subst isTaker
  refine ⟨fun trade member => ?_, sound.settles rests⟩
  rw [sound.trades_eq rests] at member
  exact sound.round_of_mem member

/-- Orders that come to rest one after another without any matching. -/
def gather (book : OrderBook) (orders : List Order) : OrderBook :=
  orders.foldl (fun book order => book.perform (.insert order)) book

/-- Orders may be inserted at any time. -/
theorem Reachable.gather (reached : book.Reachable) (orders : List Order) : (book.gather orders).Reachable := by
  -- The book varies along the orders, each of which is one insertion.
  induction orders generalizing book with
  | nil => exact reached
  | cons order orders ih => exact ih (.step reached trivial)

/-- Sellers at three prices, one of them with nothing to sell, and two buyers who cross most of them. -/
def contested : OrderBook :=
  (OrderBook.empty ⟨7⟩).gather
    [⟨⟨1⟩, ⟨7⟩, ⟨1⟩, .sell, ⟨100⟩, 5, 5, 0, 0⟩, ⟨⟨2⟩, ⟨7⟩, ⟨1⟩, .sell, ⟨100⟩, 3, 0, 0, 1⟩,
      ⟨⟨3⟩, ⟨7⟩, ⟨2⟩, .sell, ⟨102⟩, 4, 4, 0, 2⟩, ⟨⟨4⟩, ⟨7⟩, ⟨2⟩, .sell, ⟨103⟩, 6, 6, 0, 3⟩,
      ⟨⟨5⟩, ⟨7⟩, ⟨3⟩, .buy, ⟨102⟩, 7, 7, 0, 4⟩, ⟨⟨6⟩, ⟨7⟩, ⟨4⟩, .buy, ⟨102⟩, 9, 9, 0, 5⟩]

/-- A crossed book with an order of size zero is reachable. -/
theorem reachable_contested : contested.Reachable := (Reachable.empty ⟨7⟩).gather _

/-- The first buyer takes from three sellers until it is used up, in a book that stays crossed; the second may not. -/
theorem matchCrossed_settles_contested :
    contested.Reachable ∧ (contested.matchCrossed ⟨5⟩).1.map Fill.quantity = [5, 0, 2] ∧
      (contested.matchCrossed ⟨5⟩).1.Pairwise (fun earlier later => ¬Side.sell.Better later.price earlier.price) ∧
      ¬(contested.matchCrossed ⟨5⟩).2.Rests ⟨5⟩ ∧ (contested.matchCrossed ⟨5⟩).2.top.isCrossed = true ∧
      contested.matchCrossed ⟨6⟩ = ([], contested) := by
  obtain ⟨-, -, -, settles, -⟩ := matchCrossed_settles reachable_contested ⟨5⟩
  obtain ⟨-, -, -, -, behind⟩ := matchCrossed_settles reachable_contested ⟨6⟩
  -- The first buyer is in front, and the second one waits behind it.
  obtain ⟨-, settled⟩ := settles ⟨⟨5⟩, ⟨7⟩, ⟨3⟩, .buy, ⟨102⟩, 7, 7, 0, 4⟩ (by decide +kernel) rfl
  exact ⟨reachable_contested, by decide +kernel, settled.noBetter, by decide +kernel, by decide +kernel,
    behind (by decide +kernel)⟩

end OrderBook

end LimitBook
