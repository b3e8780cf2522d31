import LimitBook.Proofs.Book.Lifetime
import LimitBook.Proofs.Queue.Precedence
import Mathlib.Data.List.Induction

/-!
Who is served first. Along a whole run a better price comes before a worse one and, among equal prices, whoever was
accepted earlier comes first, whatever numbers the events carry; nobody is traded with while somebody before it rests.
-/

namespace LimitBook

/-- Number and price of an order: all that its place in a queue depends on. -/
def Order.standing (order : Order) : OrderId × Price := (order.id, order.price)

namespace Book

open OrderBook (Trade)

/-- The order that rests under a number when a run ends came in with the call at this position. -/
def CameInAt (start : Book) (calls : List Call) (id : OrderId) (position : Nat) : Prop :=
  ∃ front event back new, calls = front ++ .apply event :: back ∧ front.length = position ∧
    event.action = .add new ∧ new.id = id ∧ ((start.run front).2.apply event).isOk = true ∧
    (start.run (front ++ [.apply event])).2.RestsDuring id back

/-- The first of two orders is to be served before the second: at a better price, or earlier at the same one. -/
def Ranked (start : Book) (calls : List Call) (side : Side) (first second : OrderId × Price) : Prop :=
  ∀ i j, CameInAt start calls first.1 i → CameInAt start calls second.1 j →
    side.Better first.2 second.2 ∨ first.2 = second.2 ∧ i < j

variable {start book next : Book} {event : Event} {new : NewOrder} {report : Report} {id : OrderId} {x y left : Order}
  {first second : OrderId} {side any : Side} {call : Call} {calls more : List Call} {i j : Nat}

section CameInAt

/-- Whoever comes in has a number that nobody has. -/
theorem Sound.absent_of_accepted (sound : book.Sound) (action : event.action = .add new)
    (accepted : (book.apply event).isOk = true) : ¬book.orders.Rests new.id := by
  -- What is accepted is fresh.
  obtain ⟨report, outcome⟩ := apply_eq_ok accepted
  exact ((sound.takes outcome).2.adds action).fresh

/-- Orders come in during the run. -/
theorem CameInAt.lt_length (cameIn : CameInAt start calls id i) : i < calls.length := by
  -- The arrival is one of the calls.
  obtain ⟨front, event, back, new, rfl, rfl, -⟩ := cameIn
  simp

/-- Whoever goes on resting came in when it did. -/
theorem CameInAt.of_append (sound : start.Sound) (during : (start.run calls).2.RestsDuring id more)
    (cameIn : CameInAt start (calls ++ more) id i) : CameInAt start calls id i := by
  obtain ⟨front, event, back, new, split, position, action, rfl, accepted, since⟩ := cameIn
  have absent := (sound_run sound front).absent_of_accepted action accepted
  -- The order comes in either during the calls or after them, but then its number is taken.
  rcases List.append_eq_append_iff.mp split with ⟨between, rfl, further⟩ | ⟨between, rfl, further⟩
  · rw [further, restsDuring_append] at during
    rw [run_append] at absent
    exact absurd during.2.1 absent
  · cases between with
    | nil =>
      rw [List.nil_append] at further
      rw [← further, List.append_nil] at during
      exact absurd during.1 absent
    | cons first between =>
      obtain ⟨rfl, rfl⟩ := List.cons.inj further
      exact ⟨front, event, between, new, rfl, position, action, rfl, accepted, (restsDuring_append.mp since).1⟩

/-- Whoever has come in goes on resting. -/
theorem CameInAt.append (cameIn : CameInAt start calls id i) (during : (start.run calls).2.RestsDuring id more) :
    CameInAt start (calls ++ more) id i := by
  -- The later calls are put behind those since the arrival, and the order rests during both.
  obtain ⟨front, event, back, new, rfl, position, action, number, accepted, since⟩ := cameIn
  refine ⟨front, event, back ++ more, new, by simp, position, action, number, accepted, ?_⟩
  rw [restsDuring_append]
  have whole : front ++ Call.apply event :: back = (front ++ [.apply event]) ++ back := by simp
  rw [whole, run_append] at during
  exact ⟨since, during⟩

/-- A number that was free before the last call came in with it. -/
theorem CameInAt.eq_length (cameIn : CameInAt start (calls ++ [call]) id i)
    (absent : ¬(start.run calls).2.orders.Rests id) : i = calls.length := by
  obtain ⟨front, event, back, new, split, rfl, action, rfl, accepted, since⟩ := cameIn
  rcases List.eq_nil_or_concat back with rfl | ⟨back, last, rfl⟩
  · rw [(List.append_inj' split rfl).1]
  · -- Otherwise the order has rested since, and rested before the last call too.
    have whole : calls ++ [call] = (front ++ .apply event :: back) ++ [last] := by simpa using split
    have before : calls = (front ++ [.apply event]) ++ back := by
      simpa using (List.append_inj' whole rfl).1
    rw [List.concat_eq_append, restsDuring_append] at since
    rw [before, run_append] at absent
    exact absurd since.2.1 absent

/-- Whoever rests when a run from a fresh book ends has come in with one of its calls. -/
theorem exists_cameInAt (key : BookKey) (origin : Sequence) (calls : List Call)
    (rests : ((Book.startingAt key origin).run calls).2.orders.Rests id) :
    ∃ i, CameInAt (Book.startingAt key origin) calls id i := by
  -- The induction is on the run from its end: what its last call does to the book that the others leave.
  induction calls using List.reverseRecOn with
  | nil =>
    obtain ⟨order, member, -⟩ := rests
    simp [run, Book.startingAt, OrderBook.empty, OrderBook.resting, OrderBook.orders, OrderBook.levels] at member
  | append_singleton calls call ih =>
    have sound := sound_run (sound_startingAt key origin) calls
    have goesOn : ((Book.startingAt key origin).run calls).2.orders.Rests id →
        ∃ i, CameInAt (Book.startingAt key origin) (calls ++ [call]) id i := fun before =>
      (ih before).imp fun _ cameIn => cameIn.append (restsDuring_singleton.mpr before)
    have whole : ((Book.startingAt key origin).run (calls ++ [call])).2 =
        (((Book.startingAt key origin).run calls).2.call call).2 := by rw [run_append]; rfl
    rw [whole] at rests
    rcases sound.call_cases call with ⟨-, -, unchanged⟩ | ⟨event, report, next, rfl, accepted, takes, answer, -⟩
    · exact goesOn (unchanged ▸ rests)
    · rw [answer] at rests
      obtain ⟨order, rests, rfl⟩ := rests
      obtain ⟨any, member⟩ := OrderBook.mem_resting.mp rests
      rcases takes.stood member with ⟨new, action, -, isNew⟩ | ⟨stood, stands, isStood⟩
      · have number : order.id = new.id := by rw [isNew]; rfl
        exact ⟨calls.length, calls, event, [], new, rfl, rfl, action, number.symm, by rw [accepted]; rfl, trivial⟩
      · have number : order.id = stood.id := by rw [isStood]
        exact goesOn (number ▸ OrderBook.rests_of_mem stands)

end CameInAt

section Ranked

/-- A sweep leaves those whom it has not used up in their places. -/
theorem sweep_faced_sublist (side : Side) (incoming : Order) (queue : List Order) :
    ((sweep side incoming queue).faced.map Order.standing).Sublist (queue.map Order.standing) := by
  induction queue generalizing incoming with
  | nil => exact .refl _
  | cons resting waiting ih =>
    unfold sweep
    split
    · dsimp only
      split
      · -- What is left of the resting order has its number and its price.
        cases rest : resting.reduced? (OrderBook.fillOf side incoming resting).quantity with
        | none => exact List.sublist_cons_self _ _
        | some left =>
          rw [(Order.reduced?_eq_some rest).1]
          exact .refl _
      · next left _ => exact (ih left).trans (List.sublist_cons_self _ _)
    · exact .refl _

/-- Two orders that rest keep their ranks with every further call. -/
theorem Ranked.append {first second : OrderId × Price} (ranked : Ranked start calls side first second)
    (sound : start.Sound) (firstRests : (start.run calls).2.orders.Rests first.1)
    (secondRests : (start.run calls).2.orders.Rests second.1) (call : Call) :
    Ranked start (calls ++ [call]) side first second := by
  -- Both orders have come in before the last call, and so they came in at the same places.
  intro i j firstIn secondIn
  exact ranked i j (firstIn.of_append sound (restsDuring_singleton.mpr firstRests))
    (secondIn.of_append sound (restsDuring_singleton.mpr secondRests))

/-- If every order ranks before those behind it, it does so after a further call. -/
theorem ranked_call (sound : start.Sound) (call : Call) (side : Side)
    (ranked : ((start.run calls).2.orders.orders side).Pairwise fun x y =>
      Ranked start calls side x.standing y.standing) :
    (((start.run calls).2.call call).2.orders.orders side).Pairwise fun x y =>
      Ranked start (calls ++ [call]) side x.standing y.standing := by
  have kept : ((start.run calls).2.orders.orders side).Pairwise fun x y =>
      Ranked start (calls ++ [call]) side x.standing y.standing :=
    ranked.imp_of_mem fun isFirst isSecond rank =>
      rank.append sound (OrderBook.rests_of_mem isFirst) (OrderBook.rests_of_mem isSecond) call
  have soundNow := sound_run sound calls
  rcases soundNow.call_cases call with ⟨-, -, unchanged⟩ | ⟨event, report, next, rfl, -, takes, answer, -⟩
  · rw [unchanged]
    exact kept
  · rw [answer]
    rcases takes.effect with ⟨new, adds⟩ | ⟨other, order, removes⟩
    · rcases Side.eq_or_eq_opposite side new.side with rfl | rfl
      · rw [adds.queues.own]
        cases rest : ((start.run calls).2.sweepOf event.sequence new).left with
        | none => exact kept
        | some left =>
          obtain ⟨isNew, -, -⟩ := sweep_left rest adds.positive
          have absent : ¬(start.run calls).2.orders.Rests left.id := by rw [isNew]; exact adds.fresh
          refine Queue.pairwise_join (soundNow.orders.levels new.side).inPriority kept ?_ ?_
          · intro other member notBetter i j otherIn newIn
            -- Whoever rested came in before the last call, and is at least as good.
            have rested := OrderBook.rests_of_mem member
            have earlier := (otherIn.of_append sound (restsDuring_singleton.mpr rested)).lt_length
            have last : j = calls.length := CameInAt.eq_length newIn absent
            by_cases better : new.side.Better other.price left.price
            · exact .inl better
            · exact .inr ⟨Side.eq_of_not_better better notBetter, last ▸ earlier⟩
          · intro other member better i j newIn otherIn
            exact .inl better
      · rw [adds.queues.faced]
        -- Nobody comes in on the other side, and those who stay keep their places.
        have shrinks := sweep_faced_sublist new.side ((start.run calls).2.arriving event.sequence new)
          ((start.run calls).2.orders.orders new.side.opposite)
        exact List.pairwise_map.mp ((List.pairwise_map.mpr kept).sublist shrinks)
    · rw [removes.queues.orders_eq]
      split
      · next here =>
        subst here
        exact kept.filter _
      · exact kept

/-- After every run from a fresh book each order ranks before those behind it. -/
theorem ranked_run (key : BookKey) (origin : Sequence) (calls : List Call) (side : Side) :
    (((Book.startingAt key origin).run calls).2.orders.orders side).Pairwise fun x y =>
      Ranked (Book.startingAt key origin) calls side x.standing y.standing := by
  induction calls using List.reverseRecOn with
  | nil =>
    -- Nobody rests in a fresh book.
    have empty : ((Book.startingAt key origin).run []).2.orders.orders side = [] := by cases side <;> rfl
    rw [empty]
    exact .nil
  | append_singleton calls call ih =>
    have whole : ((Book.startingAt key origin).run (calls ++ [call])).2 =
        (((Book.startingAt key origin).run calls).2.call call).2 := by rw [run_append]; rfl
    rw [whole]
    exact ranked_call (sound_startingAt key origin) call side ih

/-- Of two resting orders the one to be served first stands before the other. -/
theorem precedes_iff (key : BookKey) (origin : Sequence) (calls : List Call)
    (isFirst : x ∈ ((Book.startingAt key origin).run calls).2.orders.orders side)
    (isSecond : y ∈ ((Book.startingAt key origin).run calls).2.orders.orders side) (differs : x.id ≠ y.id)
    (firstIn : CameInAt (Book.startingAt key origin) calls x.id i)
    (secondIn : CameInAt (Book.startingAt key origin) calls y.id j) :
    Queue.Precedes (((Book.startingAt key origin).run calls).2.orders.orders side) x.id y.id ↔
      side.Better x.price y.price ∨ x.price = y.price ∧ i < j := by
  have distinct := (sound_run (sound_startingAt key origin) calls).orders.distinct_queue side
  have ranked := ranked_run key origin calls side
  constructor
  · intro precedes
    exact precedes.rel distinct ranked isFirst isSecond i j firstIn secondIn
  · intro served
    refine (Queue.precedes_or_precedes (List.mem_map_of_mem isFirst) (List.mem_map_of_mem isSecond)
      differs).resolve_right fun reversed => ?_
    -- The other way round, the second would have to be served first.
    have wrong : side.Better y.price x.price ∨ y.price = x.price ∧ j < i :=
      reversed.rel distinct ranked isSecond isFirst j i secondIn firstIn
    rcases served with better | ⟨same, earlier⟩
    · rcases wrong with worse | ⟨same, -⟩
      · exact Side.better_asymm better worse
      · exact Side.better_irrefl _ _ (same ▸ better)
    · rcases wrong with worse | ⟨-, later⟩
      · exact Side.better_irrefl _ _ (same ▸ worse)
      · omega

end Ranked

section Served

/-- At a trade with somebody nobody rests who stood before it. -/
theorem Takes.absent_before (sound : book.Sound) (takes : book.Takes event report next)
    (precedes : Queue.Precedes (book.orders.orders side) first second) {trade : Trade}
    (member : trade ∈ book.tradesOf event) (maker : trade.fill.maker = second) : ¬trade.before.Rests first := by
  obtain ⟨new, inserted, adds, joined, follows⟩ := takes.follows sound member
  intro stillRests
  have front := follows.front_maker
  rw [maker] at front
  -- The maker stands on the side that the newcomer faces, which the newcomer has not changed.
  have stands : second ∈ (inserted.orders new.side.opposite).map Order.id :=
    (follows.shrinks _).subset (List.mem_of_head? front)
  have faced : inserted.orders new.side.opposite = book.orders.orders new.side.opposite := joined.other
  obtain rfl : side = new.side.opposite := by
    rw [faced] at stands
    exact sound.orders.side_unique precedes.mem_second stands
  rw [← faced] at precedes
  -- Somebody who stood before the maker stands before it still, but the maker is in front.
  have firstStays : first ∈ (trade.before.orders new.side.opposite).map Order.id := by
    obtain ⟨any, member⟩ := OrderBook.rests_iff_mem_ids.mp stillRests
    obtain rfl := joined.sound.side_unique ((follows.shrinks any).subset member) precedes.mem_first
    exact member
  exact Queue.not_precedes_front (follows.sound.distinct_queue _) front
    (precedes.of_shrinks (joined.sound.distinct_queue _) (follows.shrinks _) firstStays (List.mem_of_head? front))

/-- Whoever stood before the maker of a fill was used up by an earlier one. -/
theorem Takes.used_up_before (sound : book.Sound) (takes : book.Takes event report next)
    (precedes : Queue.Precedes (book.orders.orders side) first second) {fill : Fill} {earlier later : List Fill}
    (fills : report.fills = earlier ++ fill :: later) (maker : fill.maker = second) :
    ∃ other ∈ earlier, other.maker = first ∧ other.makerFilled = true := by
  rcases takes.effect with ⟨new, adds⟩ | ⟨any, order, removes⟩
  · obtain ⟨inserted, joined, unfolded, chain, reported⟩ := adds.tradesOf sound
    -- The fill is that of a trade, and the fills before it are those of the trades before.
    rw [fills] at reported
    obtain ⟨tradesBefore, rest, split, rfl, onward⟩ := List.map_eq_append_iff.mp reported
    obtain ⟨trade, tradesAfter, rfl, rfl, rfl⟩ := List.map_eq_cons_iff.mp onward
    rw [split] at chain
    have gone := takes.absent_before sound precedes (split ▸ by simp) maker
    have rested : book.orders.Rests first := OrderBook.rests_iff_mem_ids.mpr ⟨side, precedes.mem_first⟩
    -- Whoever stood before the maker has left by then, with a trade that used it up.
    obtain ⟨other, member, out⟩ := chain.split.1.exists_takesOut (rests_of_joined joined rested) gone
    have follows : other.Follows inserted new.side new.id := by
      refine joined.sound.follows ?_
      rw [← unfolded, split]
      exact List.mem_append_left _ member
    have differs : first ≠ new.id := fun same => adds.fresh (same ▸ rested)
    exact ⟨other.fill, List.mem_map_of_mem member, follows.maker_of_takesOut out differs⟩
  · simp [removes.reported] at fills

end Served

/-- How the orders of a side stand and are served, seen from the book that a run from a fresh one has left. -/
structure Prioritized (start : Book) (before : List Call) (side : Side) : Prop where
  /-- Everybody who rests has come in with a call of the run. -/
  accepted : ∀ x ∈ (start.run before).2.orders.orders side, ∃ i, CameInAt start before x.id i
  /-- One order stands before another exactly if its price is better, or the same and it came in earlier. -/
  standing : ∀ x ∈ (start.run before).2.orders.orders side, ∀ y ∈ (start.run before).2.orders.orders side,
    x.id ≠ y.id → ∀ i j, CameInAt start before x.id i → CameInAt start before y.id j →
      (Queue.Precedes ((start.run before).2.orders.orders side) x.id y.id ↔
        side.Better x.price y.price ∨ x.price = y.price ∧ i < j)
  /-- Two orders stand as they do for as long as both rest. -/
  kept : ∀ first second, Queue.Precedes ((start.run before).2.orders.orders side) first second →
    ∀ calls, (start.run before).2.RestsDuring first calls → (start.run before).2.RestsDuring second calls →
      ((start.run before).2.run calls).2.orders.Rests first → ((start.run before).2.run calls).2.orders.Rests second →
        Queue.Precedes (((start.run before).2.run calls).2.orders.orders side) first second
  /-- No trade is made with the second of two orders while the first rests. -/
  waits : ∀ first second, Queue.Precedes ((start.run before).2.orders.orders side) first second →
    ∀ calls event, (start.run before).2.RestsDuring first (calls ++ [.apply event]) →
      (start.run before).2.RestsDuring second (calls ++ [.apply event]) →
        ∀ trade ∈ ((start.run before).2.run calls).2.tradesOfCall (.apply event),
          trade.fill.maker = second → ¬trade.before.Rests first
  /-- Before there is a fill of the second, the first has left, or an earlier fill has used it up. -/
  served : ∀ first second, Queue.Precedes ((start.run before).2.orders.orders side) first second →
    ∀ calls event report next, (start.run before).2.RestsDuring second (calls ++ [.apply event]) →
      ((start.run before).2.run calls).2.apply event = .ok (report, next) →
        ∀ earlier fill later, report.fills = earlier ++ fill :: later → fill.maker = second →
          (start.run before).2.LeavesDuring first calls ∨
            (start.run before).2.RestsDuring first (calls ++ [.apply event]) ∧
              ∃ other ∈ earlier, other.maker = first ∧ other.makerFilled = true

/-- Two orders of a side that rest on stand as they did. -/
theorem precedes_kept (key : BookKey) (origin : Sequence) (before : List Call)
    (precedes : Queue.Precedes (((Book.startingAt key origin).run before).2.orders.orders side) first second)
    (firstDuring : ((Book.startingAt key origin).run before).2.RestsDuring first calls)
    (secondDuring : ((Book.startingAt key origin).run before).2.RestsDuring second calls)
    (firstRests : (((Book.startingAt key origin).run before).2.run calls).2.orders.Rests first)
    (secondRests : (((Book.startingAt key origin).run before).2.run calls).2.orders.Rests second) :
    Queue.Precedes ((((Book.startingAt key origin).run before).2.run calls).2.orders.orders side) first second := by
  have soundStart := sound_startingAt key origin
  have sound := sound_run soundStart before
  obtain ⟨x, isFirst, rfl⟩ := List.mem_map.mp precedes.mem_first
  obtain ⟨y, isSecond, rfl⟩ := List.mem_map.mp precedes.mem_second
  have differs := precedes.ne (sound.orders.distinct_queue side)
  -- Both are the orders that they were, on their side and at their prices.
  obtain ⟨x', isFirst', firstNumber, firstPrice⟩ := sound.exists_standing isFirst firstDuring firstRests
  obtain ⟨y', isSecond', secondNumber, secondPrice⟩ := sound.exists_standing isSecond secondDuring secondRests
  obtain ⟨i, firstIn⟩ := exists_cameInAt key origin before (OrderBook.rests_of_mem isFirst)
  obtain ⟨j, secondIn⟩ := exists_cameInAt key origin before (OrderBook.rests_of_mem isSecond)
  have served := (precedes_iff key origin before isFirst isSecond differs firstIn secondIn).mp precedes
  -- They came in when they did, so whoever was to be served first still is.
  have whole : (((Book.startingAt key origin).run before).2.run calls).2 =
      ((Book.startingAt key origin).run (before ++ calls)).2 := by rw [run_append]
  rw [whole] at isFirst' isSecond' ⊢
  rw [← firstNumber, ← secondNumber] at differs ⊢
  rw [← firstPrice, ← secondPrice] at served
  exact (precedes_iff key origin (before ++ calls) isFirst' isSecond' differs
    (firstNumber ▸ firstIn.append firstDuring) (secondNumber ▸ secondIn.append secondDuring)).mpr served

/--
Orders are served by price and then by time, at every moment of every stream.

The time of an order is the place of its event in the stream, and not the number that the event carries.
-/
theorem prioritized_run (key : BookKey) (origin : Sequence) (before : List Call) (side : Side) :
    Prioritized (Book.startingAt key origin) before side := by
  have sound := sound_run (sound_startingAt key origin) before
  refine ⟨fun x member => ?_, fun x isFirst y isSecond differs i j firstIn secondIn => ?_,
    fun first second precedes calls firstDuring secondDuring firstRests secondRests => ?_,
    fun first second precedes calls event firstDuring secondDuring trade member maker => ?_,
    fun first second precedes calls event report next during accepted earlier fill later fills maker => ?_⟩
  · exact exists_cameInAt key origin before (OrderBook.rests_of_mem member)
  · exact precedes_iff key origin before isFirst isSecond differs firstIn secondIn
  · exact precedes_kept key origin before precedes firstDuring secondDuring firstRests secondRests
  · obtain ⟨firstDuring, firstRests⟩ := restsDuring_append.mp firstDuring
    obtain ⟨secondDuring, secondRests⟩ := restsDuring_append.mp secondDuring
    have still := precedes_kept key origin before precedes firstDuring secondDuring firstRests.1 secondRests.1
    have soundNow := sound_run sound calls
    rcases soundNow.call_cases (.apply event) with ⟨-, none, -⟩ | ⟨_, _, _, ⟨⟩, -, takes, -, trades⟩
    · simp [none] at member
    · exact takes.absent_before soundNow still (trades ▸ member) maker
  · obtain ⟨secondDuring, secondRests⟩ := restsDuring_append.mp during
    have rested := OrderBook.rests_iff_mem_ids.mpr ⟨side, precedes.mem_first⟩
    rcases sound.stays_or_leaves rested calls with ⟨firstDuring, firstRests⟩ | leaves
    · -- The first is there until the event comes, so it is the event that uses it up.
      have still := precedes_kept key origin before precedes firstDuring secondDuring firstRests secondRests.1
      have soundNow := sound_run sound calls
      have usedUp := (soundNow.takes accepted).2.used_up_before soundNow still fills maker
      exact .inr ⟨restsDuring_append.mpr ⟨firstDuring, restsDuring_singleton.mpr firstRests⟩, usedUp⟩
    · exact .inl leaves

/-- Two sellers at one price: the earlier one stands before the other, and still does when part of it has traded. -/
theorem prioritized_opening :
    let start := Book.startingAt ⟨⟨1⟩, ⟨7⟩⟩ 0
    let before : List Call := opening.take 1 ++ [.apply ⟨⟨7⟩, 1, .add ⟨⟨3⟩, ⟨3⟩, 0, .sell, 4, ⟨100⟩⟩⟩]
    let calls : List Call := [.resync 0, .apply ⟨⟨7⟩, 0, .add ⟨⟨2⟩, ⟨2⟩, 0, .buy, 2, ⟨101⟩⟩⟩]
    Queue.Precedes ((start.run before).2.orders.orders .sell) ⟨1⟩ ⟨3⟩ ∧
      Queue.Precedes (((start.run before).2.run calls).2.orders.orders .sell) ⟨1⟩ ⟨3⟩ := by
  intro start before calls
  -- The first seller stands ahead, and later calls keep this although the cursor goes back.
  have precedes : Queue.Precedes ((start.run before).2.orders.orders .sell) ⟨1⟩ ⟨3⟩ := by decide +kernel
  exact ⟨precedes, (prioritized_run ⟨⟨1⟩, ⟨7⟩⟩ 0 before .sell).kept ⟨1⟩ ⟨3⟩ precedes calls (by decide +kernel)
    (by decide +kernel) (by decide +kernel) (by decide +kernel)⟩

end Book

end LimitBook
