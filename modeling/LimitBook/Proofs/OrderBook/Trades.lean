import LimitBook.Proofs.OrderBook.Sweep

/-!
The trades of a match one by one, each with the book before it and the book it leaves. A trade changes the two
orders it names and nobody else, and its flags say which of them leave the book with it.
-/

namespace LimitBook.OrderBook

/-- A trade as it happens: the book before it, the fill that is reported, and the book that it leaves. -/
structure Trade where
  before : OrderBook
  fill : Fill
  after : OrderBook

namespace Trade

/-- The order of this number leaves the book with the trade. -/
def TakesOut (trade : Trade) (id : OrderId) : Prop := trade.before.Rests id ∧ ¬trade.after.Rests id

/-- Trades that happen one after another, from the book before the first to the book after the last. -/
def Chain (start : OrderBook) : List Trade → OrderBook → Prop
  | [], last => start = last
  | trade :: trades, last => trade.before = start ∧ Chain trade.after trades last

end Trade

/-- The trades of an incoming order one after another, with the books around them. -/
def tradesFrom (book : OrderBook) (side : Side) (taker : OrderId) : List Trade :=
  -- The same steps are taken as in matching, and the books are kept.
  match _trade : book.trade? side taker with
  | none => []
  | some (fill, next) => ⟨book, fill, next⟩ :: next.tradesFrom side taker
termination_by book.queued
decreasing_by exact queued_trade? _trade

/-- The trades of a resting order; an unknown one makes none. -/
def trades (book : OrderBook) (taker : OrderId) : List Trade :=
  match book.find? taker with
  | some order => book.tradesFrom order.side taker
  | none => []

variable {book next start last : OrderBook} {side any : Side} {taker id : OrderId} {fill : Fill} {trade : Trade}
  {trades earlier later : List Trade}

section Chain

/-- A chain may be cut at any of its trades. -/
theorem Trade.Chain.split (chain : Trade.Chain start (earlier ++ trade :: later) last) :
    Trade.Chain start earlier trade.before ∧ Trade.Chain trade.after later last := by
  -- The induction is on the earlier trades, each of which links to the next.
  induction earlier generalizing start with
  | nil => exact ⟨chain.1.symm, chain.2⟩
  | cons first earlier ih =>
    obtain ⟨before, after⟩ := ih chain.2
    exact ⟨⟨chain.1, before⟩, after⟩

/-- Whoever rests at the start of a chain and not at its end leaves with one of the trades. -/
theorem Trade.Chain.exists_takesOut (chain : Trade.Chain start trades last) (rests : start.Rests id)
    (gone : ¬last.Rests id) : ∃ trade ∈ trades, trade.TakesOut id := by
  induction trades generalizing start with
  | nil =>
    obtain rfl := chain
    exact absurd rests gone
  | cons trade trades ih =>
    obtain ⟨rfl, chain⟩ := chain
    -- The order leaves with the first trade, or is still there for the others.
    by_cases stays : trade.after.Rests id
    · obtain ⟨other, member, out⟩ := ih chain stays
      exact ⟨other, List.mem_cons_of_mem _ member, out⟩
    · exact ⟨trade, List.mem_cons_self, rests, stays⟩

end Chain

section TradesFrom

/-- The trades lead to the book that matching leaves, and their fills are those that it reports. -/
theorem chain_tradesFrom (book : OrderBook) (side : Side) (taker : OrderId) :
    Trade.Chain book (book.tradesFrom side taker) (book.matchFrom side taker).2 ∧
      (book.tradesFrom side taker).map Trade.fill = (book.matchFrom side taker).1 := by
  -- Both take the next trade for as long as there is one, so the induction is along these trades.
  fun_induction book.tradesFrom side taker with
  | case1 book none_left =>
    rw [matchFrom_of_none none_left]
    exact ⟨rfl, rfl⟩
  | case2 book fill next trade ih =>
    rw [matchFrom_of_some trade]
    exact ⟨⟨rfl, ih.1⟩, congrArg (fill :: ·) ih.2⟩

/-- The trades of a resting order lead to the book that matching it leaves, with the fills that are reported. -/
theorem chain_trades (book : OrderBook) (taker : OrderId) :
    Trade.Chain book (book.trades taker) (book.matchCrossed taker).2 ∧
      (book.trades taker).map Trade.fill = (book.matchCrossed taker).1 := by
  -- Without a taker there are no trades, and otherwise they are those of the rounds.
  unfold OrderBook.trades matchCrossed
  cases book.find? taker with
  | none => exact ⟨rfl, rfl⟩
  | some order => exact chain_tradesFrom book order.side taker

end TradesFrom

/-- All that a trade does: the front orders of both sides trade, and both queues keep what is left of them. -/
structure Executes (book : OrderBook) (side : Side) (fill : Fill) (incoming resting : Order)
    (behind waiting : List Order) (next : OrderBook) : Prop where
  own : book.orders side = incoming :: behind
  faced : book.orders side.opposite = resting :: waiting
  reported : fill = fillOf side incoming resting
  arranged : Arranged book side ((incoming.reduced? fill.quantity).toList ++ behind)
    ((resting.reduced? fill.quantity).toList ++ waiting) next

/-- A trade in a sound book is one between the front orders of its sides. -/
theorem Sound.executes (sound : book.Sound) (trade : book.trade? side taker = some (fill, next)) :
    ∃ incoming resting behind waiting,
      incoming.id = taker ∧ Executes book side fill incoming resting behind waiting next := by
  -- A trade needs an order in front of either side.
  cases own : book.orders side with
  | nil => simp [sound.trade?_of_empty own] at trade
  | cons incoming behind =>
    cases faced : book.orders side.opposite with
    | nil => simp [sound.trade?_of_unfaced faced] at trade
    | cons resting waiting =>
      -- Somebody waits on either side, and they would not trade unless they were the taker and in reach.
      by_cases isTaker : incoming.id = taker
      · by_cases crossing : incoming.Crosses resting.price
        · obtain ⟨next', trade', arranged⟩ := sound.trade?_of_crossing own faced crossing
          rw [isTaker, trade] at trade'
          obtain ⟨rfl, rfl⟩ := Prod.mk.inj (Option.some.inj trade')
          exact ⟨incoming, resting, behind, waiting, isTaker, own, faced, rfl, arranged⟩
        · simp [sound.trade?_of_apart own faced crossing] at trade
      · simp [sound.trade?_of_behind own isTaker] at trade

section Reduced

variable {front left : Order} {waiting : List Order} {quantity : Quantity}

/-- What is left of a front order stands in its place under its number. -/
theorem ids_reduced_sublist (front : Order) (quantity : Quantity) (waiting : List Order) :
    (((front.reduced? quantity).toList ++ waiting).map Order.id).Sublist ((front :: waiting).map Order.id) := by
  cases rest : front.reduced? quantity with
  | none => exact (List.sublist_cons_self front waiting).map Order.id
  | some left =>
    -- The number is the same, so nothing has changed in the list of numbers.
    rw [(Order.reduced?_eq_some rest).1]
    exact .refl _

/-- A front order leaves its queue exactly if nothing is left of it. -/
theorem mem_ids_reduced (distinct : ((front :: waiting).map Order.id).Nodup) :
    front.id ∈ ((front.reduced? quantity).toList ++ waiting).map Order.id ↔ front.reduced? quantity ≠ none := by
  -- No other order has the number of the front one.
  have others : front.id ∉ waiting.map Order.id := (List.nodup_cons.mp distinct).1
  cases rest : front.reduced? quantity with
  | none => simpa using others
  | some left =>
    have number : left.id = front.id := by rw [(Order.reduced?_eq_some rest).1]
    simp [number]

/-- An order is marked as filled exactly if nothing is left of it. -/
theorem beq_quantity_iff (within : quantity ≤ front.remaining) :
    (front.remaining == quantity) = true ↔ front.reduced? quantity = none := by
  rw [reduced?_eq_none_iff within, beq_iff_eq]

end Reduced

/-- A number rests exactly if it is among those of a queue. -/
theorem rests_iff_mem_ids : book.Rests id ↔ ∃ side, id ∈ (book.orders side).map Order.id := by
  unfold Rests
  simp only [mem_resting, List.mem_map]
  -- Either way there is an order of the number on some side.
  constructor
  · intro ⟨order, ⟨side, member⟩, number⟩
    exact ⟨side, order, member, number⟩
  · intro ⟨side, order, member, number⟩
    exact ⟨order, ⟨side, member⟩, number⟩

/-- Nobody's number comes on both sides. -/
theorem Sound.side_unique (sound : book.Sound) {side any : Side} (own : id ∈ (book.orders side).map Order.id)
    (other : id ∈ (book.orders any).map Order.id) : side = any := by
  -- The numbers of both sides together do not repeat.
  rcases Side.eq_or_eq_opposite side any with rfl | rfl
  · rfl
  · exact absurd rfl ((List.nodup_append.mp (sound.distinct_side any)).2.2 id other id own)

namespace Executes

variable {incoming resting : Order} {behind waiting : List Order}

/-- The numbers of a side after a trade are some of those before it, in the same order. -/
theorem ids_sublist (executes : Executes book side fill incoming resting behind waiting next) (any : Side) :
    ((next.orders any).map Order.id).Sublist ((book.orders any).map Order.id) := by
  -- A trade shortens both sides or leaves them as they are, and brings in nobody.
  rcases Side.eq_or_eq_opposite any side with rfl | rfl
  · rw [executes.arranged.own, executes.own]
    exact ids_reduced_sublist incoming fill.quantity behind
  · rw [executes.arranged.faced, executes.faced]
    exact ids_reduced_sublist resting fill.quantity waiting

/-- Whoever rested on a side rests after the trade exactly if it is still among the numbers of that side. -/
theorem rests_iff (executes : Executes book side fill incoming resting behind waiting next) (sound : book.Sound)
    (member : id ∈ (book.orders any).map Order.id) : next.Rests id ↔ id ∈ (next.orders any).map Order.id := by
  rw [rests_iff_mem_ids]
  refine ⟨fun ⟨other, stays⟩ => ?_, fun stays => ⟨any, stays⟩⟩
  -- Nobody changes sides.
  obtain rfl := sound.side_unique ((executes.ids_sublist other).subset stays) member
  exact stays

/-- A trade takes out its taker exactly if it marks it as filled. -/
theorem takesOut_taker_iff (executes : Executes book side fill incoming resting behind waiting next)
    (sound : book.Sound) : (⟨book, fill, next⟩ : Trade).TakesOut fill.taker ↔ fill.takerFilled = true := by
  have distinct := sound.distinct_queue side
  rw [executes.own] at distinct
  have within : fill.quantity ≤ incoming.remaining := executes.reported ▸ fillOf_quantity_le_incoming
  have taker : fill.taker = incoming.id := by rw [executes.reported]; rfl
  have flag : fill.takerFilled = (incoming.remaining == fill.quantity) := by rw [executes.reported]; rfl
  -- The taker stands in front of its side, and leaves it if nothing is left.
  have member : incoming.id ∈ (book.orders side).map Order.id := by rw [executes.own]; exact List.mem_cons_self
  unfold Trade.TakesOut
  rw [taker, flag, beq_quantity_iff within, executes.rests_iff sound member, executes.arranged.own,
    mem_ids_reduced distinct, Classical.not_not]
  exact and_iff_right (rests_iff_mem_ids.mpr ⟨side, member⟩)

/-- A trade takes out its maker exactly if it marks it as filled. -/
theorem takesOut_maker_iff (executes : Executes book side fill incoming resting behind waiting next)
    (sound : book.Sound) : (⟨book, fill, next⟩ : Trade).TakesOut fill.maker ↔ fill.makerFilled = true := by
  have distinct := sound.distinct_queue side.opposite
  rw [executes.faced] at distinct
  have within : fill.quantity ≤ resting.remaining := executes.reported ▸ fillOf_quantity_le_resting
  have maker : fill.maker = resting.id := by rw [executes.reported]; rfl
  have flag : fill.makerFilled = (resting.remaining == fill.quantity) := by rw [executes.reported]; rfl
  -- The maker stands in front of the other side, and leaves it if nothing is left.
  have member : resting.id ∈ (book.orders side.opposite).map Order.id := by
    rw [executes.faced]
    exact List.mem_cons_self
  unfold Trade.TakesOut
  rw [maker, flag, beq_quantity_iff within, executes.rests_iff sound member, executes.arranged.faced,
    mem_ids_reduced distinct, Classical.not_not]
  exact and_iff_right (rests_iff_mem_ids.mpr ⟨side.opposite, member⟩)

end Executes

/-- A trade that a match from a sound book makes: its book is sound and holds nobody new, and its front orders trade. -/
structure Trade.Follows (trade : Trade) (book : OrderBook) (side : Side) (taker : OrderId) : Prop where
  sound : trade.before.Sound
  shrinks : ∀ any, ((trade.before.orders any).map Order.id).Sublist ((book.orders any).map Order.id)
  executes : ∃ incoming resting behind waiting, incoming.id = taker ∧
    Executes trade.before side trade.fill incoming resting behind waiting trade.after

/-- Every trade of a match from a sound book is one between front orders that were there from the start. -/
theorem Sound.follows (sound : book.Sound) (member : trade ∈ book.tradesFrom side taker) :
    trade.Follows book side taker := by
  fun_induction book.tradesFrom side taker with
  | case1 => simp at member
  | case2 book fill next first ih =>
    obtain ⟨incoming, resting, behind, waiting, isTaker, executes⟩ := sound.executes first
    rcases List.mem_cons.mp member with rfl | later
    · exact ⟨sound, fun _ => .refl _, incoming, resting, behind, waiting, isTaker, executes⟩
    · -- A later trade follows from the book that the first one leaves, which holds some of the same orders.
      have rest := ih executes.arranged.sound later
      exact ⟨rest.sound, fun any => (rest.shrinks any).trans (executes.ids_sublist any), rest.executes⟩

namespace Trade.Follows

/-- All trades of a match have its taker. -/
theorem taker_eq (follows : trade.Follows book side taker) : trade.fill.taker = taker := by
  -- The fill is reported with the number of the incoming order.
  obtain ⟨incoming, resting, behind, waiting, isTaker, executes⟩ := follows.executes
  rw [executes.reported]
  exact isTaker

/-- The maker of a trade stands in front of the side that the taker faces. -/
theorem front_maker (follows : trade.Follows book side taker) :
    ((trade.before.orders side.opposite).map Order.id).head? = some trade.fill.maker := by
  -- The fill is reported with the number of the resting order in front.
  obtain ⟨incoming, resting, behind, waiting, -, executes⟩ := follows.executes
  rw [executes.faced, executes.reported]
  rfl

/-- Whoever leaves with a trade is named by it and marked as filled. -/
theorem takesOut_iff (follows : trade.Follows book side taker) :
    (trade.TakesOut trade.fill.taker ↔ trade.fill.takerFilled = true) ∧
      (trade.TakesOut trade.fill.maker ↔ trade.fill.makerFilled = true) := by
  -- The trade is executed with its two parties, and the law for each of them applies.
  obtain ⟨incoming, resting, behind, waiting, -, executes⟩ := follows.executes
  exact ⟨executes.takesOut_taker_iff follows.sound, executes.takesOut_maker_iff follows.sound⟩

/-- Nobody leaves with a trade but its taker and its maker. -/
theorem party_of_takesOut (follows : trade.Follows book side taker) (out : trade.TakesOut id) :
    id = trade.fill.taker ∨ id = trade.fill.maker := by
  obtain ⟨incoming, resting, behind, waiting, -, executes⟩ := follows.executes
  obtain ⟨rests, gone⟩ := out
  obtain ⟨any, member⟩ := rests_iff_mem_ids.mp rests
  rw [executes.rests_iff follows.sound member] at gone
  rw [executes.reported]
  -- Whoever waits behind the front orders is still there, so it was one of those in front.
  rcases Side.eq_or_eq_opposite any side with rfl | rfl
  · rw [executes.own, List.map_cons, List.mem_cons] at member
    rw [executes.arranged.own, List.map_append, List.mem_append, not_or] at gone
    exact .inl (member.resolve_right gone.2)
  · rw [executes.faced, List.map_cons, List.mem_cons] at member
    rw [executes.arranged.faced, List.map_append, List.mem_append, not_or] at gone
    exact .inr (member.resolve_right gone.2)

/-- Whoever leaves with a trade and is not its taker is its maker, and marked as filled. -/
theorem maker_of_takesOut (follows : trade.Follows book side taker) (out : trade.TakesOut id) (differs : id ≠ taker) :
    trade.fill.maker = id ∧ trade.fill.makerFilled = true := by
  -- Only the two parties may go, and the taker is another order.
  rcases follows.party_of_takesOut out with isTaker | rfl
  · exact absurd (isTaker.trans follows.taker_eq) differs
  · exact ⟨rfl, follows.takesOut_iff.2.mp out⟩

end Trade.Follows

end LimitBook.OrderBook
