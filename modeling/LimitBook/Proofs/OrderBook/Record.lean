import LimitBook.Proofs.OrderBook.Reachable
import LimitBook.Proofs.OrderBook.Trades
import LimitBook.Proofs.Reference.Simulation

/-!
The orders of a book in the order in which they came to rest. Every operation lets one order come to rest behind all
others, or changes what is left of those who rest already, who keep their places; so the record holds every queue.
-/

namespace LimitBook.OrderBook

/-- The record after an operation: those who still rest, as they are now and where they stood, then whoever is new. -/
def recorded (record : List Order) (next : OrderBook) : List Order :=
  record.filterMap (fun known => next.resting.find? (·.id = known.id)) ++
    next.resting.filter fun order => ∀ known ∈ record, known.id ≠ order.id

/-- The resting orders of a book that operations build from an empty one, in the order in which they came to rest. -/
inductive Recorded : List Order → OrderBook → Prop
  | empty (market : MarketId) : Recorded [] (OrderBook.empty market)
  | step {record : List Order} {book : OrderBook} {operation : Operation} (before : Recorded record book)
    (allowed : book.Allows operation) : Recorded (recorded record (book.perform operation)) (book.perform operation)

/-- A change that takes an order out, or leaves it under its number, on its side, at its price. -/
def InPlace (change : Order → Option Order) : Prop :=
  ∀ before after, change before = some after →
    after.id = before.id ∧ after.side = before.side ∧ after.price = before.price

/-- Nobody comes to rest: those who are still there have kept their places. -/
def Thins (book next : OrderBook) : Prop :=
  next.Sound ∧ ∃ change, InPlace change ∧ ∀ side, next.orders side = (book.orders side).filterMap change

variable {book next last : OrderBook} {side : Side} {order front : Order} {waiting record : List Order}
  {quantity : Quantity} {taker id : OrderId} {operation : Operation} {change : Order → Option Order}

section Changes

/-- Among different numbers an order is found after a change in place just as the change leaves it. -/
theorem InPlace.find?_filterMap (inPlace : InPlace change) {orders : List Order}
    (distinct : (orders.map Order.id).Nodup) (member : order ∈ orders) :
    (orders.filterMap change).find? (·.id = order.id) = change order := by
  -- The change leaves numbers alone, and so they are still distinct.
  have distinct' := distinct.sublist (Reference.ids_filterMap_sublist (fun _ _ kept => (inPlace _ _ kept).1) orders)
  cases changed : change order with
  | none =>
    -- Somebody found under the number would be what is left of the order itself, and nothing is.
    refine List.find?_eq_none.mpr fun left member' same => ?_
    obtain ⟨before, stood, kept⟩ := List.mem_filterMap.mp member'
    have number : before.id = order.id := (inPlace before left kept).1.symm.trans (of_decide_eq_true same)
    have found := find?_id_eq_some distinct stood
    rw [number, find?_id_eq_some distinct member] at found
    obtain rfl := Option.some.inj found
    rw [changed] at kept
    simp at kept
  | some left =>
    have stays := find?_id_eq_some distinct' (List.mem_filterMap.mpr ⟨order, member, changed⟩)
    rwa [(inPlace order left changed).1] at stays

end Changes

section Thinning

/-- Where nothing happens everybody keeps the place. -/
theorem Sound.thins_self (sound : book.Sound) : Thins book book := by
  -- Every order stays as it is.
  refine ⟨sound, some, fun before after same => ?_, fun side => List.filterMap_some.symm⟩
  obtain rfl := Option.some.inj same
  exact ⟨rfl, rfl, rfl⟩

/-- Whoever keeps a place twice keeps it. -/
theorem Thins.trans (first : Thins book next) (second : Thins next last) : Thins book last := by
  -- The first changes are followed by the second ones, and neither moves an order.
  obtain ⟨-, change, inPlace, queues⟩ := first
  obtain ⟨sound, change', inPlace', queues'⟩ := second
  refine ⟨sound, fun order => (change order).bind change', fun before after both => ?_, fun side => ?_⟩
  · obtain ⟨middle, kept, kept'⟩ := Option.bind_eq_some_iff.mp both
    obtain ⟨id, side, price⟩ := inPlace before middle kept
    obtain ⟨id', side', price'⟩ := inPlace' middle after kept'
    exact ⟨id'.trans id, side'.trans side, price'.trans price⟩
  · rw [queues', queues, List.filterMap_filterMap]

/-- Taking an order out leaves all others in their places. -/
theorem Sound.thins_cancel (sound : book.Sound) (id : OrderId) : Thins book (book.perform (.cancel id)) := by
  simp only [OrderBook.perform]
  by_cases rests : book.Rests id
  · -- The order that is withdrawn is left out, and any other stays as it is.
    obtain ⟨order, rests, rfl⟩ := rests
    obtain ⟨side, member⟩ := mem_resting.mp rests
    obtain ⟨next, removed, requeued⟩ := sound.cancel_ok member
    rw [removed]
    refine ⟨requeued.sound, fun other => if other.id ≠ order.id then some other else none,
      fun before after kept => ?_, fun any => ?_⟩
    · obtain rfl := Option.some.inj (Option.ite_none_right_eq_some.mp kept).2
      exact ⟨rfl, rfl, rfl⟩
    · have left_out : (book.orders any).filterMap (fun other => if other.id ≠ order.id then some other else none) =
          (book.orders any).filter (·.id ≠ order.id) := by
        rw [← List.filterMap_eq_filter]
        refine List.filterMap_congr fun other _ => ?_
        simp [Option.guard]
      rw [left_out, requeued.orders_eq]
      split
      · next here => rw [here]
      · next elsewhere =>
        -- Nobody on the other side has the number, so nobody is missing there.
        obtain rfl := (Side.eq_or_eq_opposite any side).resolve_left elsewhere
        exact (filter_id_eq_self fun other faced => (sound.id_ne_opposite member faced).symm).symm
  · rw [sound.cancel_absent rests]
    exact sound.thins_self

/-- Serving an order leaves everybody else in place, and the order too if anything is left of it. -/
theorem Sound.thins_fillBest (sound : book.Sound) (allowed : book.Allows (.fillBest side quantity)) :
    Thins book (book.perform (.fillBest side quantity)) := by
  simp only [OrderBook.perform]
  cases queue : book.orders side with
  | nil =>
    rw [sound.fillBest?_empty quantity queue]
    exact sound.thins_self
  | cons front waiting =>
    -- The front order is changed, and any other stays as it is.
    have isFront : book.bestOrder? side = some front := by rw [sound.bestOrder?, queue]; rfl
    obtain ⟨next, served, requeued⟩ := sound.fillBest?_front queue (allowed front isFront)
    rw [served]
    refine ⟨requeued.sound, fun other => if other.id = front.id then other.reduced? quantity else some other,
      fun before after kept => ?_, fun any => ?_⟩
    · -- What is left of the front order differs from it in the size only.
      dsimp only at kept
      split at kept
      · rw [(Order.reduced?_eq_some kept).1]
        exact ⟨rfl, rfl, rfl⟩
      · obtain rfl := Option.some.inj kept
        exact ⟨rfl, rfl, rfl⟩
    · have member : front ∈ book.orders side := by rw [queue]; exact List.mem_cons_self
      rcases Side.eq_or_eq_opposite any side with rfl | rfl
      · have distinct := sound.distinct_queue any
        rw [queue] at distinct
        rw [requeued.own, queue, Reference.filterMap_front fun other later => if_neg (id_ne_first distinct other later),
          if_pos rfl]
      · rw [requeued.other]
        have others : ∀ other ∈ book.orders side.opposite,
            (if other.id = front.id then other.reduced? quantity else some other) = some other := fun other faced =>
          if_neg (sound.id_ne_opposite member faced).symm
        exact ((List.filterMap_congr others).trans List.filterMap_some).symm

/-- A trade leaves everybody in place but those it uses up. -/
theorem Executes.thins {fill : Fill} {incoming resting : Order} {behind waiting : List Order}
    (executes : Executes book side fill incoming resting behind waiting next) (sound : book.Sound) :
    Thins book next := by
  -- The fill names two orders, each in front of its side.
  have maker : fill.maker = resting.id := by rw [executes.reported]; rfl
  have taker : fill.taker = incoming.id := by rw [executes.reported]; rfl
  have own : incoming ∈ book.orders side := by rw [executes.own]; exact List.mem_cons_self
  have faced : resting ∈ book.orders side.opposite := by rw [executes.faced]; exact List.mem_cons_self
  have distinct := sound.distinct_queue side
  have distinct' := sound.distinct_queue side.opposite
  rw [executes.own] at distinct
  rw [executes.faced] at distinct'
  refine ⟨executes.arranged.sound, Reference.settled? fill, fun before after => Reference.settled?_inPlace,
    fun any => ?_⟩
  rcases Side.eq_or_eq_opposite any side with rfl | rfl
  · -- On the taker's side only the taker is a party, and it stands in front.
    have others : ∀ other ∈ behind, Reference.settled? fill other = some other := by
      intro other later
      have stands : other ∈ book.orders any := by rw [executes.own]; exact List.mem_cons_of_mem _ later
      exact Reference.settled?_of_other (maker ▸ sound.id_ne_opposite stands faced)
        (taker ▸ id_ne_first distinct other later)
    have within : fill.quantity ≤ incoming.remaining := executes.reported ▸ fillOf_quantity_le_incoming
    rw [executes.arranged.own, executes.own, Reference.filterMap_front others,
      Reference.settled?_of_party (.inr taker.symm) within]
  · -- On the other side only the maker is a party, and it stands in front.
    have others : ∀ other ∈ waiting, Reference.settled? fill other = some other := by
      intro other later
      have stands : other ∈ book.orders side.opposite := by rw [executes.faced]; exact List.mem_cons_of_mem _ later
      exact Reference.settled?_of_other (maker ▸ id_ne_first distinct' other later)
        (taker ▸ (sound.id_ne_opposite own stands).symm)
    have within : fill.quantity ≤ resting.remaining := executes.reported ▸ fillOf_quantity_le_resting
    rw [executes.arranged.faced, executes.faced, Reference.filterMap_front others,
      Reference.settled?_of_party (.inl maker.symm) within]

/-- The trades of a match leave everybody in place but those they use up. -/
theorem Sound.thins_matchFrom (sound : book.Sound) (side : Side) (taker : OrderId) :
    Thins book (book.matchFrom side taker).2 := by
  -- The induction is along the trades, and each of them leaves a sound book for the next.
  fun_induction book.tradesFrom side taker with
  | case1 book none_left =>
    rw [matchFrom_of_none none_left]
    exact sound.thins_self
  | case2 book fill next trade ih =>
    obtain ⟨incoming, resting, behind, waiting, -, executes⟩ := sound.executes trade
    rw [matchFrom_of_some trade]
    exact (executes.thins sound).trans (ih executes.arranged.sound)

/-- Matching an order leaves everybody in place but those it uses up. -/
theorem Sound.thins_matchCrossed (sound : book.Sound) (taker : OrderId) : Thins book (book.matchCrossed taker).2 := by
  unfold OrderBook.matchCrossed
  -- Without a taker there is no round.
  cases book.find? taker with
  | none => exact sound.thins_self
  | some order => exact sound.thins_matchFrom order.side taker

/-- All that an operation does to the queues: an order of a free number joins one of them, or nobody comes to rest. -/
theorem Sound.perform_cases (sound : book.Sound) (allowed : book.Allows operation) :
    (∃ order, ¬book.Rests order.id ∧
      Requeued book order.side (Queue.join order.side order (book.orders order.side)) (book.perform operation)) ∨
    Thins book (book.perform operation) := by
  -- A newcomer either joins its queue or is refused; every other operation only takes orders away.
  cases operation with
  | insert order =>
    simp only [OrderBook.perform]
    by_cases rests : book.Rests order.id
    · rw [sound.insert_duplicate rests]
      exact .inr sound.thins_self
    · by_cases room : restingSize (Queue.atPrice (book.orders order.side) order.price) + order.remaining.toNat
          < UInt64.size
      · obtain ⟨next, accepted, requeued⟩ := sound.insert_ok rests room
        rw [accepted]
        exact .inl ⟨order, rests, requeued⟩
      · rw [sound.insert_overflow rests (Nat.not_lt.mp room)]
        exact .inr sound.thins_self
  | cancel id => exact .inr (sound.thins_cancel id)
  | fillBest side quantity => exact .inr (sound.thins_fillBest allowed)
  | matchCrossed taker => exact .inr (sound.thins_matchCrossed taker)

end Thinning

section Records

open Reference (Holds Lists)

/-- Where nobody comes to rest the record is changed as the queues are. -/
theorem Thins.holds (holds : Holds record book) (thins : Thins book next) : Holds (recorded record next) next := by
  obtain ⟨sound, change, inPlace, queues⟩ := thins
  have resting : next.resting = book.resting.filterMap change := by
    unfold OrderBook.resting
    rw [queues, queues, List.filterMap_append]
  -- Whoever is recorded is found as the change leaves it, and nobody is new.
  have kept : record.filterMap (fun known => next.resting.find? (·.id = known.id)) = record.filterMap change := by
    refine List.filterMap_congr fun known member => ?_
    rw [resting]
    exact inPlace.find?_filterMap holds.sound.distinct (holds.mem_iff.mp member)
  have nobody : (next.resting.filter fun order => ∀ known ∈ record, known.id ≠ order.id) = [] := by
    refine List.filter_eq_nil_iff.mpr fun order member isNew => ?_
    rw [resting] at member
    obtain ⟨before, stood, left⟩ := List.mem_filterMap.mp member
    exact of_decide_eq_true isNew before (holds.mem_iff.mpr stood) (inPlace before order left).1.symm
  unfold recorded
  rw [kept, nobody, List.append_nil]
  have ids := Reference.ids_filterMap_sublist (fun _ _ kept => (inPlace _ _ kept).1) record
  refine ⟨sound, holds.distinct.sublist ids, fun side => ?_⟩
  rw [queues side]
  exact (holds.lists side).filterMap fun before after left => (inPlace before after left).2

/-- An order that joins a queue is recorded behind all others. -/
theorem recorded_of_joined (holds : Holds record book) (fresh : ¬book.Rests order.id)
    (joined : Requeued book order.side (Queue.join order.side order (book.orders order.side)) next) :
    recorded record next = record ++ [order] := by
  have resting : next.resting.Perm (order :: book.resting) := by
    refine (resting_perm next order.side).trans ?_
    rw [joined.own, joined.other]
    exact (Queue.join_perm.append_right _).trans ((resting_perm book order.side).symm.cons order)
  have known : ∀ known ∈ record, next.resting.find? (·.id = known.id) = some known := by
    intro known member
    refine find?_id_eq_some joined.sound.distinct (resting.mem_iff.mpr ?_)
    exact List.mem_cons_of_mem _ (holds.mem_iff.mp member)
  -- Nobody on record has the free number, and everybody who rested is on record.
  have isNew : (order :: book.resting).filter (fun order => ∀ known ∈ record, known.id ≠ order.id) = [order] := by
    have others : book.resting.filter (fun order => ∀ known ∈ record, known.id ≠ order.id) = [] := by
      refine List.filter_eq_nil_iff.mpr fun other member isNew => ?_
      exact of_decide_eq_true isNew other (holds.mem_iff.mpr member) rfl
    have free : ∀ known ∈ record, known.id ≠ order.id := fun known member same =>
      fresh (holds.rests_iff.mp ⟨known, member, same⟩)
    rw [List.filter_cons, if_pos (decide_eq_true free), others]
  unfold recorded
  rw [(List.filterMap_congr known).trans List.filterMap_some]
  congr 1
  exact List.perm_singleton.mp (isNew ▸ resting.filter _)

/-- A record of the orders that rest holds the queues of both sides. -/
theorem Recorded.holds (recorded : Recorded record book) : Holds record book := by
  -- The induction is along the operations; only joining makes the record longer.
  induction recorded with
  | empty market =>
    refine ⟨sound_empty market, .nil, fun side => ?_⟩
    cases side <;> exact Lists.nil _
  | step before allowed ih =>
    rcases ih.sound.perform_cases allowed with ⟨order, fresh, joined⟩ | thins
    · -- A newcomer is put on record behind the others.
      rw [recorded_of_joined ih fresh joined]
      have absent : order.id ∉ List.map Order.id _ := fun member => by
        obtain ⟨known, isKnown, same⟩ := List.mem_map.mp member
        exact fresh (ih.rests_iff.mp ⟨known, isKnown, same⟩)
      refine ⟨joined.sound, ?_, fun side => ?_⟩
      · rw [List.map_append, List.map_singleton]
        exact List.nodup_append.mpr ⟨ih.distinct, List.nodup_singleton _, fun id member other isNew same =>
          absent (List.mem_singleton.mp isNew ▸ same ▸ member)⟩
      · rcases Side.eq_or_eq_opposite side order.side with rfl | rfl
        · rw [joined.own]
          exact (ih.lists order.side).append_own (ih.sound.levels order.side).inPriority
        · rw [joined.other]
          exact (ih.lists order.side.opposite).append_other (Side.ne_opposite order.side)
    · exact thins.holds ih

/-- Every book that operations build has a record. -/
theorem Reachable.exists_recorded (reached : book.Reachable) : ∃ record, Recorded record book := by
  -- The record is extended by each operation of the run.
  induction reached with
  | empty market => exact ⟨[], .empty market⟩
  | step _ allowed ih =>
    obtain ⟨record, before⟩ := ih
    exact ⟨_, .step before allowed⟩

end Records

end LimitBook.OrderBook
