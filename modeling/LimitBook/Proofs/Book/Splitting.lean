import LimitBook.Proofs.Book.Allocation
import LimitBook.Proofs.OrderBook.Splitting

/-!
An order that is sent in two parts. If a book accepts the whole order, it accepts both parts one after the other, and
nobody but their owner can tell afterwards which of the two has happened.
-/

namespace LimitBook

namespace Book

/-- Two new orders that ask together for what one asks for, at its price and on its side. -/
structure Splits (whole first second : NewOrder) : Prop where
  sideFirst : first.side = whole.side
  sideSecond : second.side = whole.side
  priceFirst : first.price = whole.price
  priceSecond : second.price = whole.price
  positiveFirst : first.size ≠ 0
  positiveSecond : second.size ≠ 0
  size : first.size.toNat + second.size.toNat = whole.size.toNat
  distinct : first.id ≠ second.id

variable {book middle next last : Book} {event : Event} {new whole first second : NewOrder}
  {report report₁ report₂ : Report} {id : OrderId}

/-- After a new order its side has at every price what it had, and at the order's own what is left of it besides. -/
theorem Adds.restingAt_eq (sound : book.Sound) (adds : book.Adds event new report next) (price : Price) :
    next.restingAt new.side price = book.restingAt new.side price +
      if new.price = price then restingSize (book.sweepOf event.sequence new).left.toList else 0 := by
  unfold restingAt
  rw [adds.queues.own]
  cases rest : (book.sweepOf event.sequence new).left with
  | none => simp [Queue.rejoin]
  | some left =>
    -- What is left of the order has its price, and stands behind all others there.
    have samePrice : left.price = new.price := by
      rw [(sweep_left rest adds.positive).1]
      rfl
    have sorted : Queue.InPriority new.side (book.orders.orders new.side) :=
      (sound.orders.levels new.side).inPriority
    show restingSize (Queue.atPrice (Queue.join new.side left (book.orders.orders new.side)) price) = _
    rw [Queue.atPrice_join sorted, samePrice]
    by_cases here : new.price = price <;> simp [here]

/-- A new order records its fills and nothing else that was traded. -/
theorem Adds.traded (adds : book.Adds event new report next) :
    next.stats.executedQuantity = book.stats.executedQuantity + executedQuantity report.fills ∧
      next.stats.volume = book.stats.volume + tradedVolume report.fills := by
  -- Adding counts the newcomer first, which changes nothing that was traded.
  have fills := adds.fills_eq
  rw [adds.kept, fills]
  obtain ⟨executed, -, volume⟩ := Stats.recordFills_traded (book.stats.recordAdded new.size) _
  exact ⟨executed, volume⟩

/-- A number that nobody has is free after a new order of another number. -/
theorem Takes.fresh (takes : book.Takes event report next) (brings : event.action = .add new) (differs : new.id ≠ id)
    (fresh : ¬book.orders.Rests id) : ¬next.orders.Rests id := by
  rintro ⟨order, rests, rfl⟩
  obtain ⟨any, member⟩ := OrderBook.mem_resting.mp rests
  rcases takes.stood member with ⟨newcomer, action, -, isNew⟩ | ⟨stood, stands, isStood⟩
  · -- The number would be that of the new order.
    obtain rfl := Action.add.inj (brings.symm.trans action)
    exact differs (by rw [isNew]; rfl)
  · have number : order.id = stood.id := by rw [isStood]
    rw [number] at fresh
    exact fresh (OrderBook.rests_of_mem stands)

/-- An event in place with an admissible new order is accepted. -/
theorem Sound.adds_of_admitted (sound : book.Sound) (own : event.market = book.market)
    (inPlace : event.sequence = book.nextSequence) (brings : event.action = .add new) (positive : new.size ≠ 0)
    (fresh : ¬book.orders.Rests new.id) (room : book.restingAt new.side new.price + new.size.toNat < UInt64.size) :
    ∃ report next, book.apply event = .ok (report, next) ∧ book.Takes event report next ∧
      book.Adds event new report next := by
  -- Nothing is wrong with the event, and so it is accepted.
  have admitted := refusal?_of_fresh own inPlace brings positive fresh
  rw [if_neg (Nat.not_le.mpr room)] at admitted
  obtain ⟨report, next, accepted, takes⟩ := sound.apply_ok admitted
  exact ⟨report, next, accepted, takes, takes.adds brings⟩

/-- The market after an order and after its two parts: what both have traded, and what they have left in the book. -/
structure Indistinguishable (side : Side) (fills parts : List Fill) (next last : Book) : Prop where
  faced : last.orders.levels side.opposite = next.orders.levels side.opposite
  received : received parts = received fills
  restingAt : ∀ price, last.restingAt side price = next.restingAt side price
  executedQuantity : last.stats.executedQuantity = next.stats.executedQuantity
  volume : last.stats.volume = next.stats.volume

/-- The two parts arrive as parts of the order that they make up. -/
theorem Splits.parts (splits : Splits whole first second) (book middle : Book) (sequence later : Sequence) :
    (book.arriving sequence first).Parts (middle.arriving later second) (book.arriving sequence whole) where
  -- The parts are those of the sizes; the place in the book and the sequence do not matter.
  sideFirst := splits.sideFirst
  sideSecond := splits.sideSecond
  priceFirst := splits.priceFirst
  priceSecond := splits.priceSecond
  positive := Nat.pos_of_ne_zero fun zero => splits.positiveSecond (UInt64.toNat_inj.mp zero)
  size := splits.size

/-- Both parts sweep the side that they face as the whole order does, and leave as much in all. -/
theorem Splits.sweeps (splits : Splits whole first second) (adds : book.Adds event whole report next)
    (adds₁ : book.Adds { event with action := .add first } first report₁ middle)
    (adds₂ : middle.Adds { event with sequence := event.sequence + 1, action := .add second } second report₂ last) :
    last.orders.orders whole.side.opposite = next.orders.orders whole.side.opposite ∧
      received (report₁.fills ++ report₂.fills) = received report.fills ∧
      restingSize (book.sweepOf event.sequence first).left.toList +
        restingSize (middle.sweepOf (event.sequence + 1) second).left.toList =
          restingSize (book.sweepOf event.sequence whole).left.toList := by
  have parts := splits.parts book middle event.sequence (event.sequence + 1)
  -- All three sweep the same side, the second part as the first has left it.
  have sweepWhole : book.sweepOf event.sequence whole = sweep whole.side (book.arriving event.sequence whole)
      (book.orders.orders whole.side.opposite) := rfl
  have sweepFirst : book.sweepOf event.sequence first = sweep whole.side (book.arriving event.sequence first)
      (book.orders.orders whole.side.opposite) := by
    unfold sweepOf
    rw [splits.sideFirst]
  have middleFaced : middle.orders.orders whole.side.opposite = (book.sweepOf event.sequence first).faced := by
    rw [← splits.sideFirst]
    exact adds₁.queues.faced
  have sweepSecond : middle.sweepOf (event.sequence + 1) second =
      sweep whole.side (middle.arriving (event.sequence + 1) second) (book.sweepOf event.sequence first).faced := by
    unfold sweepOf
    rw [splits.sideSecond, middleFaced]
    rfl
  have joins := sweep_parts whole.side parts (book.orders.orders whole.side.opposite)
  rw [← sweepFirst, ← sweepSecond, ← sweepWhole] at joins
  have fills := adds.fills_eq
  have fills₁ : report₁.fills = (book.sweepOf event.sequence first).fills := adds₁.fills_eq
  have fills₂ : report₂.fills = (middle.sweepOf (event.sequence + 1) second).fills := adds₂.fills_eq
  have same : received (report₁.fills ++ report₂.fills) = received report.fills := by
    rw [fills, fills₁, fills₂]
    exact joins.receipts []
  refine ⟨?_, same, ?_⟩
  · have lastFaced := adds₂.queues.faced
    rw [splits.sideSecond] at lastFaced
    exact lastFaced.trans (joins.faced.trans adds.queues.faced.symm)
  · -- Every traded size is taken off twice, so what is left is settled by what was there and what was traded.
    have executed := executedQuantity_eq_of_received same
    rw [executedQuantity_append, fills, fills₁, fills₂] at executed
    have twice := sweep_takes_twice whole.side (book.arriving event.sequence whole)
      (book.orders.orders whole.side.opposite)
    have twice₁ := sweep_takes_twice whole.side (book.arriving event.sequence first)
      (book.orders.orders whole.side.opposite)
    have twice₂ := sweep_takes_twice whole.side (middle.arriving (event.sequence + 1) second)
      (book.sweepOf event.sequence first).faced
    rw [← sweepWhole] at twice
    rw [← sweepFirst] at twice₁
    rw [← sweepSecond, joins.faced] at twice₂
    have size := parts.size
    simp only [restingSize_cons, restingSize_append] at twice twice₁ twice₂
    omega

/-- A book that accepts the whole order accepts its two parts. -/
theorem Splits.accepted (splits : Splits whole first second) (sound : book.Sound) (brings : event.action = .add whole)
    (takes : book.Takes event report next) (fresh₁ : ¬book.orders.Rests first.id)
    (fresh₂ : ¬book.orders.Rests second.id) :
    ∃ report₁ middle report₂ last,
      book.apply { event with action := .add first } = .ok (report₁, middle) ∧
      middle.apply { event with sequence := event.sequence + 1, action := .add second } = .ok (report₂, last) ∧
      middle.Sound ∧ last.Sound ∧ book.Adds { event with action := .add first } first report₁ middle ∧
      middle.Adds { event with sequence := event.sequence + 1, action := .add second } second report₂ last := by
  have room := (takes.adds brings).room
  have size := splits.size
  -- The first part needs less room than the whole order.
  have room₁ : book.restingAt first.side first.price + first.size.toNat < UInt64.size := by
    rw [splits.sideFirst, splits.priceFirst]
    omega
  obtain ⟨report₁, middle, accepted₁, takes₁, adds₁⟩ := @Sound.adds_of_admitted book { event with action := .add first }
    first sound takes.market takes.sequence rfl splits.positiveFirst fresh₁ room₁
  have sound₁ := takes₁.sound sound
  have own : event.market = middle.market := by
    unfold market
    rw [takes₁.key_eq]
    exact takes.market
  have inPlace : event.sequence + 1 = middle.nextSequence := by rw [takes₁.advances.1, takes.sequence]
  -- No more of the first part can rest than came in, so there is room for the second part too.
  have rested := adds₁.restingAt_eq sound first.price
  rw [if_pos rfl, restingSize_sweepOf_left event.sequence splits.positiveFirst] at rested
  have within : book.unmatched first ≤ first.size.toNat := Nat.sub_le _ _
  rw [splits.sideFirst, splits.priceFirst] at rested
  have room₂ : middle.restingAt second.side second.price + second.size.toNat < UInt64.size := by
    rw [splits.sideSecond, splits.priceSecond]
    omega
  have free : ¬middle.orders.Rests second.id := takes₁.fresh rfl splits.distinct fresh₂
  obtain ⟨report₂, last, accepted₂, takes₂, adds₂⟩ := @Sound.adds_of_admitted middle
    { event with sequence := event.sequence + 1, action := .add second } second sound₁ own inPlace rfl
    splits.positiveSecond free room₂
  exact ⟨report₁, middle, report₂, last, accepted₁, accepted₂, sound₁, takes₂.sound sound₁, adds₁, adds₂⟩

/--
Splitting an order changes nothing for the market, wherever the first part ends.

If the whole order is accepted, both parts are accepted one after the other. They leave the side that they face as the
whole order does, give every maker the same at the same price in the same order, and let as much rest on their own.
-/
theorem split_indistinguishable (reached : book.Reachable) (brings : event.action = .add whole)
    (accepted : book.apply event = .ok (report, next)) (splits : Splits whole first second)
    (fresh₁ : ¬book.orders.Rests first.id) (fresh₂ : ¬book.orders.Rests second.id) :
    ∃ report₁ middle report₂ last,
      book.apply { event with action := .add first } = .ok (report₁, middle) ∧
      middle.apply { event with sequence := event.sequence + 1, action := .add second } = .ok (report₂, last) ∧
      Indistinguishable whole.side report.fills (report₁.fills ++ report₂.fills) next last := by
  have sound := reached.sound
  have takes := (sound.takes accepted).2
  have adds := takes.adds brings
  obtain ⟨report₁, middle, report₂, last, accepted₁, accepted₂, sound₁, sound₂, adds₁, adds₂⟩ :=
    splits.accepted sound brings takes fresh₁ fresh₂
  obtain ⟨faced, same, left⟩ := splits.sweeps adds adds₁ adds₂
  refine ⟨report₁, middle, report₂, last, accepted₁, accepted₂, ?_, same, fun price => ?_, ?_, ?_⟩
  · -- The queue of a side determines its levels.
    exact (sound₂.orders.levels _).eq_of_orders_eq ((takes.sound sound).orders.levels _) faced
  · have rested := adds.restingAt_eq sound price
    have rested₁ := adds₁.restingAt_eq sound price
    have rested₂ := adds₂.restingAt_eq sound₁ price
    rw [splits.sideFirst, splits.priceFirst] at rested₁
    rw [splits.sideSecond, splits.priceSecond] at rested₂
    by_cases here : whole.price = price
    · simp only [if_pos here] at rested rested₁ rested₂
      omega
    · simp only [if_neg here] at rested rested₁ rested₂
      omega
  · rw [adds₂.traded.1, adds₁.traded.1, adds.traded.1, Nat.add_assoc, ← executedQuantity_append,
      executedQuantity_eq_of_received same]
  · have volume := tradedVolume_eq_of_received same
    unfold tradedVolume at volume
    rw [foldr_add_append] at volume
    rw [adds₂.traded.2, adds₁.traded.2, adds.traded.2, Nat.add_assoc]
    exact congrArg (book.stats.volume + ·) volume

/-- A buyer of twenty in parts of six and fourteen: the first part ends within the second seller, who trades twice. -/
theorem split_indistinguishable_layered :
    ∃ report next, layered.apply ⟨⟨7⟩, 6, .add ⟨⟨7⟩, ⟨5⟩, 0, .buy, 20, ⟨103⟩⟩⟩ = .ok (report, next) ∧
      received report.fills = [⟨⟨1⟩, ⟨100⟩, 5⟩, ⟨⟨2⟩, ⟨100⟩, 3⟩, ⟨⟨3⟩, ⟨102⟩, 4⟩] ∧
      ∃ report₁ middle report₂ last,
        layered.apply ⟨⟨7⟩, 6, .add ⟨⟨8⟩, ⟨5⟩, 0, .buy, 6, ⟨103⟩⟩⟩ = .ok (report₁, middle) ∧
        middle.apply ⟨⟨7⟩, 7, .add ⟨⟨9⟩, ⟨5⟩, 0, .buy, 14, ⟨103⟩⟩⟩ = .ok (report₂, last) ∧
        Indistinguishable .buy report.fills (report₁.fills ++ report₂.fills) next last := by
  -- The whole is accepted and its fills are computed; that the parts do the same follows from the law.
  obtain ⟨report, next, accepted, takes⟩ := reachable_layered.sound.apply_ok
    (show layered.refusal? ⟨⟨7⟩, 6, .add ⟨⟨7⟩, ⟨5⟩, 0, .buy, 20, ⟨103⟩⟩⟩ = none by decide +kernel)
  have fills := (takes.adds rfl).fills_eq
  refine ⟨report, next, accepted, by rw [fills]; decide +kernel, ?_⟩
  have splits : Splits ⟨⟨7⟩, ⟨5⟩, 0, .buy, 20, ⟨103⟩⟩ ⟨⟨8⟩, ⟨5⟩, 0, .buy, 6, ⟨103⟩⟩ ⟨⟨9⟩, ⟨5⟩, 0, .buy, 14, ⟨103⟩⟩ :=
    ⟨rfl, rfl, rfl, rfl, by decide, by decide, by decide, by decide⟩
  exact split_indistinguishable reachable_layered rfl accepted splits (by decide +kernel) (by decide +kernel)

end Book

end LimitBook
