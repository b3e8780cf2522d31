import Mathlib.Data.List.Nodup
import LimitBook.Proofs.OrderBook.Sweep

/-!
A book stays uncrossed. A newcomer that crosses is better than everybody on its side, so it is in front there and
sweeps until it is used up or crosses no more; one that does not cross joins its queue and trades with nobody.
-/

namespace LimitBook

/-- What is left of an incoming order joins the queue of its side, if anything is left. -/
def Queue.rejoin (side : Side) (left : Option Order) (queue : List Order) : List Order :=
  -- An order that was used up never rests.
  match left with
  | none => queue
  | some order => Queue.join side order queue

section Sweep

variable {side : Side} {incoming : Order} {queue : List Order}

/-- The members of a queue that what is left of an order has joined. -/
theorem Queue.mem_rejoin {left : Option Order} {other : Order} :
    other ∈ Queue.rejoin side left queue ↔ left = some other ∨ other ∈ queue := by
  -- Only an order that is left joins again.
  cases left with
  | none => simp [Queue.rejoin]
  | some order => simp [Queue.rejoin, eq_comm]

/-- What is left of an incoming order is that order with no more left of it than before, and not nothing. -/
theorem sweep_left {left : Order} (rest : (sweep side incoming queue).left = some left)
    (positive : incoming.remaining ≠ 0) :
    left = { incoming with remaining := left.remaining } ∧ left.remaining ≠ 0 ∧
      left.remaining ≤ incoming.remaining := by
  -- Every trade that leaves something takes off the size of the resting order only.
  induction queue generalizing incoming with
  | nil =>
    obtain rfl := Option.some.inj rest
    exact ⟨rfl, positive, UInt64.le_refl _⟩
  | cons resting waiting ih =>
    unfold sweep at rest
    split at rest
    · -- The first resting order crosses, and it is traded with.
      dsimp only at rest
      split at rest
      · simp at rest
      · next reduced isReduced =>
        obtain ⟨isLess, positive'⟩ := Order.reduced?_eq_some isReduced
        have less : reduced.remaining ≤ incoming.remaining := by
          rw [isLess, UInt64.le_iff_toNat_le,
            UInt64.toNat_sub_of_le _ _ OrderBook.fillOf_quantity_le_incoming]
          omega
        obtain ⟨same, positiveLeft, lessLeft⟩ := ih rest (by rw [isLess]; exact positive')
        refine ⟨?_, positiveLeft, UInt64.le_trans lessLeft less⟩
        rw [same, isLess]
    · -- Nothing is traded when the first one is out of reach.
      obtain rfl := Option.some.inj rest
      exact ⟨rfl, positive, UInt64.le_refl _⟩

/-- Whoever still faces a swept side stood there before, with as much left or a part of it. -/
theorem mem_sweep_faced {order : Order} (member : order ∈ (sweep side incoming queue).faced) :
    order ∈ queue ∨ ∃ stood ∈ queue, ∃ quantity ≤ stood.remaining, stood.reduced? quantity = some order := by
  -- Those that are swept away leave the queue from its front, so the induction is on the queue.
  induction queue generalizing incoming with
  | nil => simp [sweep] at member
  | cons resting waiting ih =>
    unfold sweep at member
    split at member
    · dsimp only at member
      split at member
      · -- Only the last order that traded may have kept a part.
        rcases List.mem_append.mp member with part | later
        · exact .inr ⟨resting, List.mem_cons_self, _, OrderBook.fillOf_quantity_le_resting, Option.mem_toList.mp part⟩
        · exact .inl (List.mem_cons_of_mem _ later)
      · -- The first order is gone, and the others are judged by the rest of the sweep.
        rcases ih member with stays | ⟨stood, stands, part⟩
        · exact .inl (List.mem_cons_of_mem _ stays)
        · exact .inr ⟨stood, List.mem_cons_of_mem _ stands, part⟩
    · exact .inl member

/-- What is left of an incoming order crosses nobody who still faces it. -/
theorem sweep_apart (own : incoming.side = side) (sorted : Queue.InPriority side.opposite queue) {left : Order}
    (rest : (sweep side incoming queue).left = some left) :
    ∀ order ∈ (sweep side incoming queue).faced, ¬left.Crosses order.price := by
  unfold Queue.InPriority at sorted
  induction queue generalizing incoming with
  | nil => simp [sweep]
  | cons resting waiting ih =>
    obtain ⟨ahead, sorted⟩ := List.pairwise_cons.mp sorted
    unfold sweep at rest ⊢
    split at rest
    · next crossing =>
      rw [if_pos crossing]
      dsimp only at rest ⊢
      split at rest
      · simp at rest
      · next reduced isReduced =>
        simp only
        -- After a trade the rest of the order goes on in the same way.
        exact ih (by rw [(Order.reduced?_eq_some isReduced).1]; exact own) sorted rest
    · next apart =>
      -- The sweep stopped at the best price it faced, and all others are no better.
      rw [if_neg apart]
      obtain rfl := Option.some.inj rest
      intro order member
      rcases List.mem_cons.mp member with rfl | later
      · -- The first one is the one that stopped the sweep.
        exact apart
      · have noBetter := ahead order later
        rw [Side.opposite_better] at noBetter
        unfold Order.Crosses at apart ⊢
        rw [own, Side.crosses_iff_not_better, Classical.not_not] at apart ⊢
        exact Side.better_of_not_better_of_better noBetter apart

/-- An order that does not cross the best price it faces is left as it came. -/
theorem sweep_of_apart (apart : ∀ resting, queue.head? = some resting → ¬incoming.Crosses resting.price) :
    sweep side incoming queue = ⟨[], some incoming, queue⟩ := by
  -- There is nobody, or the first does not cross.
  cases queue with
  | nil => rfl
  | cons resting waiting => rw [sweep, if_neg (apart resting rfl)]

end Sweep

namespace OrderBook

/-- Everybody bids less than anybody asks. -/
def Uncrossed (book : OrderBook) : Prop :=
  ∀ bid ∈ book.orders .buy, ∀ ask ∈ book.orders .sell, bid.price < ask.price

variable {book : OrderBook} {order : Order}

/-- Seen from either side, nobody crosses anybody. -/
theorem uncrossed_iff (side : Side) :
    book.Uncrossed ↔
      ∀ own ∈ book.orders side, ∀ faced ∈ book.orders side.opposite, ¬side.Crosses own.price faced.price := by
  unfold Uncrossed
  cases side with
  | buy => simp only [Side.opposite, Side.Crosses, Price.le_iff_toNat_le, Price.lt_iff_toNat_lt, Nat.not_le]
  | sell =>
    -- The two sides change places, and the condition is the same.
    simp only [Side.opposite, Side.Crosses, Price.le_iff_toNat_le, Price.lt_iff_toNat_lt, Nat.not_le]
    exact ⟨fun all ask isAsk bid isBid => all bid isBid ask isAsk,
      fun all bid isBid ask isAsk => all ask isAsk bid isBid⟩

/-- A newcomer that crosses somebody on an uncrossed book is better than everybody on its own side. -/
theorem better_of_crossing (uncrossed : book.Uncrossed) {resting : Order}
    (faced : resting ∈ book.orders order.side.opposite) (crossing : order.Crosses resting.price) :
    ∀ other ∈ book.orders order.side, order.side.Better order.price other.price := by
  intro other member
  -- What the newcomer crosses is beyond the reach of everybody on its side.
  have apart := (uncrossed_iff order.side).mp uncrossed other member resting faced
  unfold Order.Crosses at crossing
  rw [Side.crosses_iff_not_better] at crossing
  rw [Side.crosses_iff_not_better, Classical.not_not] at apart
  exact Side.better_of_not_better_of_better crossing apart

/-- A crossing newcomer goes straight to the front of its side and sweeps the other. -/
theorem join_match_crossing (uncrossed : book.Uncrossed) {inserted : OrderBook}
    (joined : Requeued book order.side (Queue.join order.side order (book.orders order.side)) inserted)
    (positive : order.remaining ≠ 0) {resting : Order}
    (front : (book.orders order.side.opposite).head? = some resting) (crossing : order.Crosses resting.price) :
    ∃ last, inserted.matchCrossed order.id =
        ((sweep order.side order (book.orders order.side.opposite)).fills, last) ∧
      Arranged book order.side
        (Queue.rejoin order.side (sweep order.side order (book.orders order.side.opposite)).left
          (book.orders order.side))
        (sweep order.side order (book.orders order.side.opposite)).faced last := by
  -- So it stands in front, which is where matching looks for it.
  have best := better_of_crossing uncrossed (List.mem_of_head? front) crossing
  have own : inserted.orders order.side = order :: book.orders order.side := by
    rw [joined.own, Queue.join_eq_cons best]
  obtain ⟨last, trades, arranged⟩ := joined.sound.matchCrossed_front own
  rw [joined.other] at trades arranged
  refine ⟨last, trades, arranged.sound, arranged.market.trans joined.market, ?_, arranged.faced⟩
  rw [arranged.own]
  cases rest : (sweep order.side order (book.orders order.side.opposite)).left with
  | none => rfl
  | some left =>
    -- What is left has the newcomer's price, so it would join in front as well.
    have price : left.price = order.price := by rw [(sweep_left rest positive).1]
    have bestLeft : ∀ other ∈ book.orders order.side, order.side.Better left.price other.price := by
      rw [price]
      exact best
    simp only [Queue.rejoin, Queue.join_eq_cons bestLeft, Option.toList_some, List.cons_append, List.nil_append]

/-- A newcomer that crosses nobody joins its queue and trades with nobody. -/
theorem join_match_apart {inserted : OrderBook}
    (joined : Requeued book order.side (Queue.join order.side order (book.orders order.side)) inserted)
    (apart : ∀ resting, (book.orders order.side.opposite).head? = some resting → ¬order.Crosses resting.price) :
    inserted.matchCrossed order.id = ([], inserted) := by
  have member : order ∈ inserted.orders order.side := by
    rw [joined.own]
    exact Queue.mem_join.mpr (.inl rfl)
  have rests : order ∈ inserted.resting := mem_resting.mpr ⟨_, member⟩
  -- The newcomer is found by its number, wherever it stands.
  unfold matchCrossed
  simp only [joined.sound.find?_eq_some.mpr ⟨rests, rfl⟩]
  apply matchFrom_of_none
  cases own : inserted.orders order.side with
  | nil => exact joined.sound.trade?_of_empty own
  | cons front behind =>
    by_cases isFront : front.id = order.id
    · -- The newcomer itself is in front, and does not cross what it faces.
      have frontRests : front ∈ inserted.resting :=
        mem_resting.mpr ⟨order.side, by rw [own]; exact List.mem_cons_self⟩
      obtain rfl := List.inj_on_of_nodup_map joined.sound.distinct frontRests rests isFront
      cases faced : inserted.orders front.side.opposite with
      | nil => exact joined.sound.trade?_of_unfaced faced
      | cons resting waiting =>
        refine joined.sound.trade?_of_apart own faced (apart resting ?_)
        rw [← joined.other, faced]
        rfl
    · -- Somebody else is in front, and the newcomer waits behind.
      exact joined.sound.trade?_of_behind own isFront

/--
A fresh order for which there is room is taken in by an uncrossed book as if it first swept the other side.

Joining its queue before it trades makes no difference, since a crossing order is the best of its side.
-/
theorem Sound.insert_match (sound : book.Sound) (uncrossed : book.Uncrossed) (positive : order.remaining ≠ 0)
    (fresh : ¬book.Rests order.id)
    (room : restingSize (Queue.atPrice (book.orders order.side) order.price) + order.remaining.toNat
      < UInt64.size) :
    ∃ inserted last, book.insert order = .ok inserted ∧
      inserted.matchCrossed order.id =
        ((sweep order.side order (book.orders order.side.opposite)).fills, last) ∧
      Arranged book order.side
        (Queue.rejoin order.side (sweep order.side order (book.orders order.side.opposite)).left
          (book.orders order.side))
        (sweep order.side order (book.orders order.side.opposite)).faced last := by
  obtain ⟨inserted, accepted, joined⟩ := sound.insert_ok fresh room
  -- Whether the newcomer crosses is settled by the best order opposite.
  by_cases crosses : ∃ resting, (book.orders order.side.opposite).head? = some resting ∧
      order.Crosses resting.price
  · obtain ⟨resting, front, crossing⟩ := crosses
    obtain ⟨last, trades, arranged⟩ := join_match_crossing uncrossed joined positive front crossing
    exact ⟨inserted, last, accepted, trades, arranged⟩
  · have apart : ∀ resting, (book.orders order.side.opposite).head? = some resting →
        ¬order.Crosses resting.price := fun resting front crossing => crosses ⟨resting, front, crossing⟩
    rw [sweep_of_apart apart]
    exact ⟨inserted, inserted, accepted, join_match_apart joined apart, joined.sound, joined.market, joined.own,
      joined.other⟩

/-- The book that a newcomer leaves behind is uncrossed again. -/
theorem Sound.uncrossed_swept (sound : book.Sound) (uncrossed : book.Uncrossed) (order : Order) {last : OrderBook}
    (arranged : Arranged book order.side
      (Queue.rejoin order.side (sweep order.side order (book.orders order.side.opposite)).left
        (book.orders order.side))
      (sweep order.side order (book.orders order.side.opposite)).faced last) : last.Uncrossed := by
  have before := (uncrossed_iff order.side).mp uncrossed
  rw [uncrossed_iff order.side, arranged.own, arranged.faced]
  intro own member faced facing
  rcases Queue.mem_rejoin.mp member with rest | stood
  · -- What is left of the newcomer stopped because it crosses nobody any more.
    have side : own.side = order.side := by
      have here : own ∈ last.orders order.side := by rw [arranged.own]; exact member
      exact arranged.sound.side_eq here
    have apart := sweep_apart rfl (sound.levels order.side.opposite).inPriority rest faced facing
    unfold Order.Crosses at apart
    rwa [side] at apart
  · -- Whoever faces the others stood there before at the same price.
    rcases mem_sweep_faced facing with stays | ⟨stands, stand, quantity, -, part⟩
    · exact before own stood faced stays
    · rw [(Order.reduced?_eq_some part).1]
      exact before own stood stands stand

/-- Taking an order out of an uncrossed book leaves it uncrossed. -/
theorem Requeued.uncrossed {side : Side} {id : OrderId} {next : OrderBook} (uncrossed : book.Uncrossed)
    (requeued : Requeued book side ((book.orders side).filter (·.id ≠ id)) next) : next.Uncrossed := by
  rw [uncrossed_iff side] at uncrossed ⊢
  rw [requeued.own, requeued.other]
  -- Whoever is left stood there before.
  intro own member faced facing
  exact uncrossed own (List.mem_filter.mp member).1 faced facing

/-- In an uncrossed book no order trades, whoever it is. -/
theorem Sound.matchCrossed_of_uncrossed (sound : book.Sound) (uncrossed : book.Uncrossed) (taker : OrderId) :
    book.matchCrossed taker = ([], book) := by
  unfold OrderBook.matchCrossed
  -- The taker rests on one side, and it is compared with the front of the other.
  cases found : book.find? taker with
  | none => rfl
  | some order =>
    apply matchFrom_of_none
    cases own : book.orders order.side with
    | nil => exact sound.trade?_of_empty own
    | cons front behind =>
      cases faced : book.orders order.side.opposite with
      | nil => exact sound.trade?_of_unfaced faced
      | cons resting waiting =>
        -- Even the best prices are apart, so whoever is in front makes no trade.
        refine sound.trade?_of_apart own faced ?_
        have isFront : front ∈ book.orders order.side := by rw [own]; exact List.mem_cons_self
        have isFaced : resting ∈ book.orders order.side.opposite := by rw [faced]; exact List.mem_cons_self
        have apart := (uncrossed_iff order.side).mp uncrossed front isFront resting isFaced
        unfold Order.Crosses
        rw [sound.side_eq isFront]
        exact apart

end OrderBook

end LimitBook
