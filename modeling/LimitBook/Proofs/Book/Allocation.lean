import LimitBook.Proofs.Book.Refusal
import LimitBook.Proofs.OrderBook.Allocation
import LimitBook.Proofs.Queue.Precedence

/-!
The outcome of a new order, read off the book before it. What is in its reach decides who trades how much with it and
what of it comes to rest; and only a size that would really come to rest can make it too much for its level.
-/

namespace LimitBook.Book

/-- The orders that a new order may trade with, the first served first. -/
def inReach (book : Book) (new : NewOrder) : List Order :=
  Queue.inReach new.side new.price (book.orders.orders new.side.opposite)

/-- How much of a new order is left when everybody in its reach has traded all they have. -/
def unmatched (book : Book) (new : NewOrder) : Nat := new.size.toNat - restingSize (book.inReach new)

/--
A new order comes to rest with what was left unmatched, as the last order of its level.

Everybody at its price or a better one stays ahead of it, and everybody else stays behind.
-/
structure ComesToRest (book : Book) (event : Event) (new : NewOrder) (rest : Order) (next : Book) : Prop where
  order : rest = { book.arriving event.sequence new with remaining := rest.remaining }
  unmatched : rest.remaining.toNat = book.unmatched new
  place : ∃ ahead behind, book.orders.orders new.side = ahead ++ behind ∧
    next.orders.orders new.side = ahead ++ rest :: behind ∧
    (∀ other ∈ ahead, ¬new.side.Better new.price other.price) ∧
    ∀ other ∈ behind, new.side.Better new.price other.price
  level : ∃ level, (next.orders.levels new.side).level? new.price = some level ∧ level.orders.getLast? = some rest

variable {book next : Book} {event : Event} {new : NewOrder} {report : Report}

/-- Nobody is in reach of a new order exactly if its limit does not cross the best price opposite. -/
theorem Sound.inReach_eq_nil_iff (sound : book.Sound) :
    book.inReach new = [] ↔ ∀ best, (book.orders.levels new.side.opposite).bestPrice? = some best →
      ¬new.side.Crosses new.price best := by
  unfold inReach
  rw [Queue.inReach_eq_nil_iff, (sound.orders.levels new.side.opposite).bestPrice?]
  -- The best price is that of the order served first.
  constructor
  · intro apart best isBest
    obtain ⟨first, isFirst, rfl⟩ := Option.map_eq_some_iff.mp isBest
    exact apart first isFirst
  · intro apart first isFirst
    exact apart first.price (Option.map_eq_some_iff.mpr ⟨first, isFirst, rfl⟩)

section Left

/-- Something is left of a new order exactly if it is larger than everybody in its reach together. -/
theorem sweepOf_left_eq (sequence : Sequence) (positive : new.size ≠ 0) :
    (book.sweepOf sequence new).left =
      if restingSize (book.inReach new) < new.size.toNat then
        some { book.arriving sequence new with remaining := UInt64.ofNat (book.unmatched new) }
      else none :=
  sweep_left_eq rfl (Nat.pos_of_ne_zero fun zero => positive (UInt64.toNat_inj.mp zero))

/-- What is left of a new order in all is what was left unmatched. -/
theorem restingSize_sweepOf_left (sequence : Sequence) (positive : new.size ≠ 0) :
    restingSize (book.sweepOf sequence new).left.toList = book.unmatched new := by
  -- No more is left than came in, so it is still a word.
  have word := new.size.toNat_lt_size
  have within : book.unmatched new ≤ new.size.toNat := Nat.sub_le _ _
  rw [sweepOf_left_eq sequence positive]
  split
  · show (UInt64.ofNat (book.unmatched new)).toNat + 0 = book.unmatched new
    rw [UInt64.toNat_ofNat_of_lt' (by omega), Nat.add_zero]
  · show 0 = book.unmatched new
    unfold unmatched
    omega

end Left

section Outcome

/-- What is left of an accepted order comes to rest behind all others at its price. -/
theorem Adds.comesToRest (sound : book.Sound) (adds : book.Adds event new report next) {rest : Order}
    (left : (book.sweepOf event.sequence new).left = some rest) : book.ComesToRest event new rest next := by
  -- What is left of the newcomer has its price and is what found nobody.
  have isOrder := (sweep_left left adds.positive).1
  have price : rest.price = new.price := by rw [isOrder]; rfl
  have size : restingSize (book.sweepOf event.sequence new).left.toList = book.unmatched new :=
    restingSize_sweepOf_left event.sequence adds.positive
  rw [left, Option.toList_some, restingSize_cons, restingSize_nil, Nat.add_zero] at size
  have sorted : Queue.InPriority new.side (book.orders.orders new.side) :=
    (sound.orders.levels new.side).inPriority
  have joined : next.orders.orders new.side = Queue.join new.side rest (book.orders.orders new.side) := by
    rw [adds.queues.own, left]
    rfl
  refine ⟨isOrder, size, ?_, ?_⟩
  · obtain ⟨ahead, behind, own, place, notBetter, better⟩ := Queue.join_eq_append sorted rest
    rw [price] at notBetter better
    exact ⟨ahead, behind, own, joined.trans place, notBetter, better⟩
  · -- At its price it stands behind all others, and what rests at a price is the queue of one level.
    have behindAll : Queue.atPrice (next.orders.orders new.side) new.price =
        Queue.atPrice (book.orders.orders new.side) new.price ++ [rest] := by
      rw [joined, Queue.atPrice_join sorted, if_pos price]
    have cut := (adds.queues.sound.levels new.side).atPrice new.price
    cases found : (next.orders.levels new.side).level? new.price with
    | none =>
      rw [found] at cut
      exact absurd (behindAll.symm.trans cut) (by simp)
    | some level =>
      rw [found] at cut
      have queue : level.orders = Queue.atPrice (book.orders.orders new.side) new.price ++ [rest] :=
        cut.symm.trans behindAll
      exact ⟨level, rfl, by rw [queue, List.getLast?_concat]⟩

/-- Every fill of a new order trades something. -/
theorem Adds.quantity_ne_zero (sound : book.Sound) (adds : book.Adds event new report next) :
    ∀ fill ∈ report.fills, fill.quantity ≠ 0 := by
  have fills := adds.fills_eq
  rw [fills]
  -- Whoever rests has something left, and so has the newcomer.
  refine sweep_quantity_ne_zero adds.positive fun order faced => ?_
  exact (sound.live order (OrderBook.mem_resting.mpr ⟨_, faced⟩)).positive

/--
An accepted order trades its size along the orders in its reach, and only what is left of it comes to rest.

The fills hand its size out first come, first served. The other side afterwards is what they leave of it, and the own
side is as before unless the order is larger than its reach.
-/
theorem add_allocates (reached : book.Reachable) (brings : event.action = .add new)
    (accepted : book.apply event = .ok (report, next)) :
    Allocates (book.arriving event.sequence new) (book.inReach new) report.fills ∧
    (∀ fill ∈ report.fills, fill.quantity ≠ 0) ∧
    ((∃ fill ∈ report.fills, fill.takerFilled = true) ↔
      new.size.toNat ≤ restingSize (book.inReach new) ∧ 0 < restingSize (book.inReach new)) ∧
    next.orders.orders new.side.opposite =
      Queue.afterTrades (report.fills.map Fill.quantity) (book.orders.orders new.side.opposite) ∧
    (new.size.toNat ≤ restingSize (book.inReach new) →
      report.resting = none ∧ next.orders.orders new.side = book.orders.orders new.side) ∧
    (restingSize (book.inReach new) < new.size.toNat →
      ∃ rest, report.resting = some rest ∧ book.ComesToRest event new rest next) ∧
    next.key = book.key ∧ next.orders.market = book.orders.market := by
  -- The event was accepted, and so it brings a newcomer whose sweep tells the fills and what is left.
  have sound := reached.sound
  have takes := (sound.takes accepted).2
  have adds := takes.adds brings
  have fills := adds.fills_eq
  have resting : report.resting = (book.sweepOf event.sequence new).left := by rw [adds.reported]
  have allocates : Allocates (book.arriving event.sequence new) (book.inReach new) report.fills := by
    rw [fills]
    exact sweep_allocates rfl
  refine ⟨allocates, adds.quantity_ne_zero sound, allocates.exists_takerFilled_iff adds.positive, ?_,
    fun enough => ?_, fun larger => ?_, takes.key_eq, adds.queues.market⟩
  · rw [fills, adds.queues.faced]
    exact sweep_faced_eq _ _ _
  · have nothing : (book.sweepOf event.sequence new).left = none := by
      -- Whoever finds enough in reach is used up.
      rw [sweepOf_left_eq event.sequence adds.positive, if_neg (Nat.not_lt.mpr enough)]
    rw [resting, adds.queues.own, nothing]
    exact ⟨rfl, rfl⟩
  · -- Whoever finds too little comes to rest with what is left.
    have left := (sweepOf_left_eq event.sequence adds.positive).trans (if_pos larger)
    exact ⟨_, resting.trans left, adds.comesToRest sound left⟩

/-- Sellers at three prices, two of them at the best, and buyers at two prices below. -/
def layered : Book :=
  ((Book.startingAt ⟨⟨1⟩, ⟨7⟩⟩ 0).run
    [.apply ⟨⟨7⟩, 0, .add ⟨⟨1⟩, ⟨1⟩, 0, .sell, 5, ⟨100⟩⟩⟩, .apply ⟨⟨7⟩, 1, .add ⟨⟨2⟩, ⟨2⟩, 0, .sell, 3, ⟨100⟩⟩⟩,
      .apply ⟨⟨7⟩, 2, .add ⟨⟨3⟩, ⟨1⟩, 0, .sell, 4, ⟨102⟩⟩⟩, .apply ⟨⟨7⟩, 3, .add ⟨⟨4⟩, ⟨3⟩, 0, .sell, 9, ⟨105⟩⟩⟩,
      .apply ⟨⟨7⟩, 4, .add ⟨⟨5⟩, ⟨4⟩, 0, .buy, 2, ⟨98⟩⟩⟩, .apply ⟨⟨7⟩, 5, .add ⟨⟨6⟩, ⟨4⟩, 0, .buy, 1, ⟨99⟩⟩⟩]).2

/-- The layers are built by a run like any other. -/
theorem reachable_layered : layered.Reachable := (Reachable.start ⟨⟨1⟩, ⟨7⟩⟩ 0).run _

/-- A buyer of twenty takes the twelve in its reach, over two prices, and rests with eight. -/
theorem add_allocates_layered :
    ∃ report next, layered.apply ⟨⟨7⟩, 6, .add ⟨⟨7⟩, ⟨5⟩, 0, .buy, 20, ⟨103⟩⟩⟩ = .ok (report, next) ∧
      executedQuantity report.fills = 12 ∧ (¬∃ fill ∈ report.fills, fill.takerFilled = true) ∧
      ∃ rest, report.resting = some rest ∧ rest.remaining.toNat = 8 := by
  -- The newcomer finds twelve in reach and brings twenty.
  obtain ⟨report, next, accepted, -⟩ := reachable_layered.sound.apply_ok
    (show layered.refusal? ⟨⟨7⟩, 6, .add ⟨⟨7⟩, ⟨5⟩, 0, .buy, 20, ⟨103⟩⟩⟩ = none by decide +kernel)
  obtain ⟨allocates, -, usedUp, -, -, larger, -, -⟩ := add_allocates reachable_layered rfl accepted
  have inReach : restingSize (layered.inReach ⟨⟨7⟩, ⟨5⟩, 0, .buy, 20, ⟨103⟩⟩) = 12 := by decide +kernel
  obtain ⟨rest, isRest, comesToRest⟩ := larger (by rw [inReach]; decide)
  refine ⟨report, next, accepted, ?_, ?_, rest, isRest, ?_⟩
  · rw [allocates.executed, inReach]
    decide
  · rw [usedUp, inReach]
    decide
  · rw [comesToRest.unmatched, unmatched, inReach]
    decide

end Outcome

section Overflow

/-- Somebody in reach of a new order means that nobody rests at its own price. -/
theorem Sound.restingAt_of_inReach (sound : book.Sound) (reached : book.inReach new ≠ []) :
    book.restingAt new.side new.price = 0 := by
  -- The first of the other side is crossed, which puts the newcomer before everybody on its own.
  have notApart := mt Queue.inReach_eq_nil_iff.mpr reached
  -- Nobody can stand at the price of the newcomer.
  simp only [Classical.not_forall, Classical.not_not] at notApart
  obtain ⟨first, isFirst, crossing⟩ := notApart
  have best : ∀ other ∈ book.orders.orders new.side, new.side.Better new.price other.price :=
    @OrderBook.better_of_crossing _ (book.arriving 0 new) sound.uncrossed first (List.mem_of_head? isFirst) crossing
  have nobody : Queue.atPrice (book.orders.orders new.side) new.price = [] := by
    refine List.filter_eq_nil_iff.mpr fun other member here => ?_
    have better := best other member
    rw [of_decide_eq_true here] at better
    exact Side.better_irrefl _ _ better
  unfold restingAt
  rw [nobody, restingSize_nil]

/-- The whole of a new order is too much for its level exactly if what is left of it after trading is. -/
theorem Sound.overflows_iff (sound : book.Sound) (new : NewOrder) :
    UInt64.size ≤ book.restingAt new.side new.price + new.size.toNat ↔
      UInt64.size ≤ book.unmatched new + book.restingAt new.side new.price := by
  have word := new.size.toNat_lt_size
  unfold unmatched
  by_cases reached : book.inReach new = []
  · -- Nobody is in reach, so all of it would be left.
    rw [reached, restingSize_nil]
    omega
  · -- Its own level is empty, and for an empty level no size is too much.
    rw [sound.restingAt_of_inReach reached]
    omega

/-- The sum at its price is the only thing that speaks against a new order of a free number and some size. -/
theorem refusal?_of_fresh (own : event.market = book.market) (inPlace : event.sequence = book.nextSequence)
    (brings : event.action = .add new) (positive : new.size ≠ 0) (fresh : ¬book.orders.Rests new.id) :
    book.refusal? event =
      if UInt64.size ≤ book.restingAt new.side new.price + new.size.toNat then
        some (.levelOverflow new.id new.price)
      else none := by
  unfold refusal?
  -- Everything that is judged ahead of the room at the level is in order.
  rw [if_neg (Classical.not_not.mpr own), if_neg (Classical.not_not.mpr inPlace), brings]
  simp only [actionRefusal?, if_neg positive, if_neg fresh]

/-- A refusal for the sum at a price means that the newcomer's whole size is too much for its level. -/
theorem full_of_refusal? (brings : event.action = .add new) {id : OrderId} {price : Price}
    (refused : book.refusal? event = some (.levelOverflow id price)) :
    UInt64.size ≤ book.restingAt new.side new.price + new.size.toNat := by
  -- Of all refusals only this one names a price.
  obtain ⟨market, sequence, action⟩ := event
  subst brings
  grind [refusal?, actionRefusal?]

/--
A new order is refused for the sum at its price exactly if what it leaves untraded would make that sum too large.

The check comes before any trading and looks at the whole size. That is no stricter, since an order that trades finds
nobody at its own price; so one that crosses the best price opposite is never refused for this.
-/
theorem overflow_judged_exactly (reached : book.Reachable) :
    (∀ event new, event.market = book.market → event.sequence = book.nextSequence → event.action = .add new →
      new.size ≠ 0 → ¬book.orders.Rests new.id →
      (book.apply event = .error (.levelOverflow new.id new.price) ↔
        UInt64.size ≤ book.unmatched new + book.restingAt new.side new.price) ∧
      (book.unmatched new + book.restingAt new.side new.price < UInt64.size →
        ∃ report next, book.apply event = .ok (report, next) ∧
          restingSize report.resting.toList = book.unmatched new)) ∧
    ∀ event new best, event.action = .add new →
      (book.orders.levels new.side.opposite).bestPrice? = some best → new.side.Crosses new.price best →
      ∀ id price, book.apply event ≠ .error (.levelOverflow id price) := by
  have sound := reached.sound
  refine ⟨fun event new own inPlace brings positive fresh => ?_,
    fun event new best brings isBest crossing id price refused => ?_⟩
  · have judged := refusal?_of_fresh own inPlace brings positive fresh
    refine ⟨?_, fun fits => ?_⟩
    · rw [sound.apply_eq_error_iff, judged, ← sound.overflows_iff]
      simp
    · -- Nothing speaks against the order, and what rests of it is what its sweep has left.
      rw [if_neg (mt (sound.overflows_iff new).mp (by omega))] at judged
      obtain ⟨report, next, accepted, takes⟩ := sound.apply_ok judged
      have adds := takes.adds brings
      refine ⟨report, next, accepted, ?_⟩
      rw [adds.reported]
      exact restingSize_sweepOf_left event.sequence adds.positive
  · -- The best price is that of the first order opposite, which is therefore in reach.
    have inReach : book.inReach new ≠ [] :=
      mt sound.inReach_eq_nil_iff.mp fun apart => apart best isBest crossing
    have full := full_of_refusal? brings (sound.apply_eq_error_iff.mp refused)
    have word := new.size.toNat_lt_size
    rw [sound.restingAt_of_inReach inReach] at full
    omega

/-- A buyer of as much as a level can hold, with a seller of five above it. -/
def brimming : Book :=
  ((Book.startingAt ⟨⟨1⟩, ⟨7⟩⟩ 0).run
    [.apply ⟨⟨7⟩, 0, .add ⟨⟨1⟩, ⟨1⟩, 0, .buy, 18446744073709551615, ⟨90⟩⟩⟩,
      .apply ⟨⟨7⟩, 1, .add ⟨⟨2⟩, ⟨2⟩, 0, .sell, 5, ⟨95⟩⟩⟩]).2

/-- A full level is built by a run like any other. -/
theorem reachable_brimming : brimming.Reachable := (Reachable.start ⟨⟨1⟩, ⟨7⟩⟩ 0).run _

/-- One more unit at the full level is refused, and the largest order of all is not if it crosses the seller. -/
theorem overflow_judged_brimming :
    brimming.apply ⟨⟨7⟩, 2, .add ⟨⟨3⟩, ⟨3⟩, 0, .buy, 1, ⟨90⟩⟩⟩ = .error (.levelOverflow ⟨3⟩ ⟨90⟩) ∧
      ∀ id price, brimming.apply ⟨⟨7⟩, 2, .add ⟨⟨3⟩, ⟨3⟩, 0, .buy, 18446744073709551615, ⟨95⟩⟩⟩ ≠
        .error (.levelOverflow id price) := by
  -- The level is full, and the same order at a crossing price comes to rest nowhere.
  obtain ⟨judged, crossing⟩ := overflow_judged_exactly reachable_brimming
  obtain ⟨refused, -⟩ := judged ⟨⟨7⟩, 2, .add ⟨⟨3⟩, ⟨3⟩, 0, .buy, 1, ⟨90⟩⟩⟩ _ (by decide +kernel) (by decide +kernel)
    rfl (by decide) (by decide +kernel)
  exact ⟨refused.mpr (by decide +kernel), crossing _ _ ⟨95⟩ rfl (by decide +kernel) (by decide)⟩

end Overflow

end LimitBook.Book
