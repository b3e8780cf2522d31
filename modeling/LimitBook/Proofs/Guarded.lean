import LimitBook.Proofs.OrderBook.Trades

/-!
The resting orders of a market with their arithmetic guarded. Each guarded operation takes the steps of the operation
that it is named after, but stops where a sum or a difference is not the number that a word should hold. On a sound
book none of them stops, so that words can be read as the numbers that they stand for.
-/

namespace LimitBook

/-- The outcome of guarded arithmetic: none if a number left the range of its word. -/
abbrev Guarded (α : Type) := Option α

namespace Guarded

/-- The sum of two words, if it is a word. -/
def add (a b : UInt64) : Guarded UInt64 := if a.toNat + b.toNat < UInt64.size then some (a + b) else none

/-- The difference of two words, if it is not below zero. -/
def sub (a b : UInt64) : Guarded UInt64 := if b ≤ a then some (a - b) else none

variable {a b c : UInt64}

/-- A guarded sum that is given is exact. -/
theorem add_eq_some : add a b = some c ↔ c.toNat = a.toNat + b.toNat := by
  have isWord := c.toNat_lt_size
  unfold add
  split
  · next fits =>
    -- Below the size of a word the sum of the words is that of the numbers.
    rw [Option.some.injEq, ← UInt64.toNat_inj, UInt64.toNat_add, Nat.mod_eq_of_lt fits, eq_comm]
  · next large =>
    simp only [reduceCtorEq, false_iff]
    omega

/-- A guarded difference that is given is exact. -/
theorem sub_eq_some : sub a b = some c ↔ a.toNat = b.toNat + c.toNat := by
  unfold sub
  split
  · next within =>
    -- There is a difference exactly if the second number is not above the first.
    have difference := UInt64.toNat_sub_of_le _ _ within
    rw [UInt64.le_iff_toNat_le] at within
    rw [Option.some.injEq, ← UInt64.toNat_inj]
    omega
  · next below =>
    rw [UInt64.le_iff_toNat_le] at below
    simp only [reduceCtorEq, false_iff]
    omega

/-- No more than there is may be taken off. -/
theorem sub_of_le (within : b ≤ a) : sub a b = some (a - b) := if_pos within

end Guarded

open Guarded

/-- How much has traded so far, with the arithmetic guarded. -/
def Order.filledGuarded (order : Order) : Guarded Quantity := sub order.quantity order.remaining

namespace Level

/-- An order joins the queue, unless the total is too large for a word. -/
def pushGuarded (level : Level) (order : Order) : Guarded Level :=
  (add level.total order.remaining).map fun total => { level with orders := level.orders ++ [order], total }

/-- The front order trades, unless it or the level has less than that. -/
def fillFrontGuarded (level : Level) (quantity : Quantity) : Guarded (Option (Quantity × Level)) :=
  match level.orders with
  | [] => some none
  | front :: waiting => do
    let left ← sub front.remaining quantity
    let total ← sub level.total quantity
    let orders := if left = 0 then waiting else { front with remaining := left } :: waiting
    return some (left, { level with orders, total })

/-- An order leaves the queue, unless the level has less than it. -/
def removeGuarded (level : Level) (id : OrderId) : Guarded (Option (Order × Level)) :=
  match level.find? id with
  | none => some none
  | some order => (sub level.total order.remaining).map fun total =>
    some (order, { level with orders := level.orders.eraseP (·.id = id), total })

variable {level : Level} {side : Side} {order front : Order} {waiting : List Order} {quantity : Quantity}

/-- A level that has room for an order takes it in. -/
theorem pushGuarded_eq (room : level.canAccept order.remaining = true) :
    level.pushGuarded order = some (level.push order) := by
  -- Having room means that the total of the level and of the order is a word.
  unfold pushGuarded add
  rw [if_pos (canAccept_iff.mp room)]
  rfl

/-- A trade that does not stop is the trade. -/
theorem fillFront?_of_guarded {outcome : Option (Quantity × Level)}
    (served : level.fillFrontGuarded quantity = some outcome) : level.fillFront? quantity = outcome := by
  unfold fillFrontGuarded at served
  unfold fillFront?
  cases queue : level.orders with
  | nil =>
    rw [queue] at served
    exact Option.some.inj served
  | cons front waiting =>
    -- Both differences were given, so they are those of the words.
    simp only [queue, sub, Option.bind_eq_bind, Option.bind_eq_some_iff, Option.pure_def, Option.some.injEq,
      Option.ite_none_right_eq_some] at served
    obtain ⟨left, ⟨-, rfl⟩, total, ⟨-, rfl⟩, rfl⟩ := served
    rfl

/-- A tidy level serves up to the size of its front order. -/
theorem Tidy.fillFrontGuarded_eq (tidy : level.Tidy side) (queue : level.orders = front :: waiting)
    (within : quantity ≤ front.remaining) : level.fillFrontGuarded quantity = some (level.fillFront? quantity) := by
  -- What the front order has is part of the total.
  have enough : quantity ≤ level.total := by
    have total := tidy.total
    rw [queue, restingSize_cons] at total
    rw [UInt64.le_iff_toNat_le] at within ⊢
    omega
  unfold fillFrontGuarded fillFront?
  rw [queue]
  simp only [sub_of_le within, sub_of_le enough]
  rfl

/-- A tidy level gives up any of its orders. -/
theorem Tidy.removeGuarded_eq (tidy : level.Tidy side) (id : OrderId) :
    level.removeGuarded id = some (level.remove? id) := by
  unfold removeGuarded remove?
  cases found : level.find? id with
  | none => rfl
  | some order =>
    -- What the order has is part of the total.
    have enough : order.remaining ≤ level.total := by
      have size := restingSize_eraseP found
      rw [UInt64.le_iff_toNat_le, tidy.total]
      omega
    simp only [sub_of_le enough]
    rfl

end Level

namespace BookSide

/-- An order joins the level of its price, unless that level would overflow. -/
def pushGuarded (side : Side) (order : Order) : BookSide → Guarded BookSide
  | [] => ((Level.empty order.price).pushGuarded order).map ([·])
  | level :: worse =>
    if level.price = order.price then (level.pushGuarded order).map (· :: worse)
    else if side.Better order.price level.price then
      ((Level.empty order.price).pushGuarded order).map (· :: level :: worse)
    else (pushGuarded side order worse).map (level :: ·)

/-- An order leaves the level of its price, unless that level has less than it. -/
def removeGuarded (price : Price) (id : OrderId) : BookSide → Guarded (Option (Order × BookSide))
  | [] => some none
  | level :: worse =>
    if level.price = price then
      (level.removeGuarded id).map (Option.map fun (order, level) => (order, keep level worse))
    else (removeGuarded price id worse).map (Option.map fun (order, worse) => (order, level :: worse))

/-- The front order of the best level trades, unless it or its level has less than that. -/
def fillBestGuarded : BookSide → Quantity → Guarded (Option (Quantity × BookSide))
  | [], _ => some none
  | level :: worse, quantity =>
    (level.fillFrontGuarded quantity).map (Option.map fun (left, level) => (left, keep level worse))

variable {levels : BookSide} {side : Side} {order front : Order} {waiting : List Order} {quantity : Quantity}

/-- A side that has room for an order takes it in. -/
theorem pushGuarded_eq (room : levels.canAccept order.price order.remaining = true) :
    pushGuarded side order levels = some (push side order levels) := by
  have opens := Level.pushGuarded_eq (Level.canAccept_empty order.price order.remaining)
  -- The induction follows the way of the order along the levels.
  induction levels with
  | nil => simp only [pushGuarded, opens, push, Option.map_some]
  | cons level worse ih =>
    rw [canAccept_cons] at room
    -- The newcomer joins the level of its price or passes on.
    unfold pushGuarded push
    by_cases here : level.price = order.price
    · rw [if_pos here] at room
      rw [if_pos here, if_pos here, Level.pushGuarded_eq room, Option.map_some]
    · rw [if_neg here] at room
      rw [if_neg here, if_neg here, opens, ih room]
      split <;> rfl

/-- A trade that does not stop is the trade. -/
theorem fillBest?_of_guarded {outcome : Option (Quantity × BookSide)}
    (served : levels.fillBestGuarded quantity = some outcome) : levels.fillBest? quantity = outcome := by
  -- Only the first level is filled, and its own guarded fill says what it did.
  cases levels with
  | nil => exact Option.some.inj served
  | cons level worse =>
    obtain ⟨first, own, rfl⟩ := Option.map_eq_some_iff.mp served
    rw [BookSide.fillBest?, Level.fillFront?_of_guarded own]

/-- A sound side serves up to the size of its front order. -/
theorem Sound.fillBestGuarded_eq (sound : Sound side levels) (queue : orders levels = front :: waiting)
    (within : quantity ≤ front.remaining) : levels.fillBestGuarded quantity = some (levels.fillBest? quantity) := by
  cases levels with
  | nil => rfl
  | cons level worse =>
    -- Somebody waits at the first level, and the first of them is the first of the side.
    obtain ⟨tidy, -, -⟩ := sound_cons.mp sound
    obtain ⟨first, behind, here⟩ := List.exists_cons_of_ne_nil tidy.occupied
    rw [orders_cons, here, List.cons_append] at queue
    obtain ⟨rfl, -⟩ := List.cons.inj queue
    rw [fillBestGuarded, tidy.toTidy.fillFrontGuarded_eq here within, Option.map_some, BookSide.fillBest?]

/-- A sound side gives up any of its orders. -/
theorem Sound.removeGuarded_eq (sound : Sound side levels) (price : Price) (id : OrderId) :
    removeGuarded price id levels = some (BookSide.remove? price id levels) := by
  -- The induction is on the levels; the guarded removal at the first one never fails.
  induction levels with
  | nil => rfl
  | cons level worse ih =>
    obtain ⟨tidy, -, rest⟩ := sound_cons.mp sound
    unfold removeGuarded BookSide.remove?
    rw [tidy.toTidy.removeGuarded_eq, ih rest, Option.map_some, Option.map_some]
    split <;> rfl

end BookSide

namespace OrderBook

/-- An order comes to rest or is refused, unless its level overflows. -/
def insertGuarded (book : OrderBook) (order : Order) : Guarded (Except BookError OrderBook) :=
  let levels := book.levels order.side
  if book.index.contains order.id then some (.error (.duplicateOrder order.id))
  else if levels.canAccept order.price order.remaining then
    let index := book.index.insert order.id (order.side, order.price)
    (levels.pushGuarded order.side order).map fun levels => .ok { book.setLevels order.side levels with index }
  else some (.error (.levelOverflow order.id order.price))

/-- An order is taken out or is unknown, unless its level has less than it. -/
def cancelGuarded (book : OrderBook) (id : OrderId) : Guarded (Except BookError (Order × OrderBook)) :=
  match book.index[id]? with
  | none => some (.error (.orderNotFound id))
  | some (side, price) => do
    match ← (book.levels side).removeGuarded price id with
    | none => return .error (.orderNotFound id)
    | some (order, levels) =>
      return .ok (order, { book.setLevels side levels with index := book.index.erase id })

/-- The next order of a side trades, unless it or its level has less than that. -/
def fillBestGuarded (book : OrderBook) (side : Side) (quantity : Quantity) : Guarded (Option (Quantity × OrderBook)) :=
  ((book.levels side).fillBestGuarded quantity).map fun served =>
    match book.bestOrder? side, served with
    | some front, some (left, levels) =>
      let index := if left = 0 then book.index.erase front.id else book.index
      some (left, { book.setLevels side levels with index })
    | _, _ => none

/-- The next trade of an incoming order, unless it takes more than there is. -/
def tradeGuarded (book : OrderBook) (side : Side) (taker : OrderId) : Guarded (Option (Fill × OrderBook)) :=
  match book.bestOrder? side, book.bestOrder? side.opposite with
  | some incoming, some resting =>
    if incoming.id = taker ∧ incoming.Crosses resting.price then do
      let fill := fillOf side incoming resting
      let some (_, book) ← book.fillBestGuarded side fill.quantity | return none
      let some (_, book) ← book.fillBestGuarded side.opposite fill.quantity | return none
      return some (fill, book)
    else some none
  | _, _ => some none

variable {book : OrderBook} {side : Side} {taker : OrderId} {front : Order} {waiting : List Order} {quantity : Quantity}

section Agreement

/-- A trade of one side that does not stop is the trade. -/
theorem fillBest?_of_guarded {outcome : Option (Quantity × OrderBook)}
    (served : book.fillBestGuarded side quantity = some outcome) : book.fillBest? side quantity = outcome := by
  obtain ⟨levels, own, rfl⟩ := Option.map_eq_some_iff.mp served
  -- What is given for the side is what its trade comes to.
  obtain rfl := BookSide.fillBest?_of_guarded own
  rfl

/-- A trade that does not stop is the trade. -/
theorem trade?_of_guarded {outcome : Option (Fill × OrderBook)}
    (trade : book.tradeGuarded side taker = some outcome) : book.trade? side taker = outcome := by
  unfold tradeGuarded at trade
  unfold trade?
  -- Both sides have somebody in front, or there is no trade.
  cases own : book.bestOrder? side with
  | none =>
    rw [own] at trade
    exact Option.some.inj trade
  | some incoming =>
    cases faced : book.bestOrder? side.opposite with
    | none =>
      rw [own, faced] at trade
      exact Option.some.inj trade
    | some resting =>
      rw [own, faced] at trade
      by_cases crossing : incoming.id = taker ∧ incoming.Crosses resting.price
      · -- Neither half of the trade has stopped.
        simp only [if_pos crossing] at trade ⊢
        obtain ⟨taken, takes, trade⟩ := Option.bind_eq_some_iff.mp trade
        rw [fillBest?_of_guarded takes]
        cases taken with
        | none => exact Option.some.inj trade
        | some taken =>
          obtain ⟨given, gives, trade⟩ := Option.bind_eq_some_iff.mp trade
          simp only [Option.bind_eq_bind, Option.bind_some, fillBest?_of_guarded gives]
          cases given <;> exact Option.some.inj trade
      · simp only [if_neg crossing] at trade ⊢
        exact Option.some.inj trade

end Agreement

/-- The trades of an incoming order one after another, unless one of them takes more than there is. -/
def matchFromGuarded (book : OrderBook) (side : Side) (taker : OrderId) : Guarded (List Fill × OrderBook) :=
  match _trade : book.tradeGuarded side taker with
  | none => none
  | some none => some ([], book)
  | some (some (fill, next)) =>
    (next.matchFromGuarded side taker).map fun (fills, last) => (fill :: fills, last)
termination_by book.queued
decreasing_by exact queued_trade? (trade?_of_guarded _trade)

/-- An order that rests trades for as long as it can, unless a trade takes more than there is. -/
def matchCrossedGuarded (book : OrderBook) (taker : OrderId) : Guarded (List Fill × OrderBook) :=
  match book.find? taker with
  | some order => book.matchFromGuarded order.side taker
  | none => some ([], book)

/-- A book takes an order in or refuses it. -/
theorem insertGuarded_eq (book : OrderBook) (order : Order) : book.insertGuarded order = some (book.insert order) := by
  unfold insertGuarded insert
  -- Only an order for which there is room gets to the sum.
  by_cases taken : book.index.contains order.id = true
  · simp only [if_pos taken]
  · by_cases room : (book.levels order.side).canAccept order.price order.remaining = true
    · simp only [if_neg taken, if_pos room, BookSide.pushGuarded_eq room, Option.map_some]
    · simp only [if_neg taken, if_neg room]

namespace Sound

/-- A sound book gives an order up or does not know it. -/
theorem cancelGuarded_eq (sound : book.Sound) (id : OrderId) : book.cancelGuarded id = some (book.cancel id) := by
  -- The index leads to one side only, and removing there never fails.
  unfold cancelGuarded cancel
  cases book.index[id]? with
  | none => rfl
  | some place =>
    simp only [(sound.levels place.1).removeGuarded_eq, Option.bind_eq_bind, Option.bind_some]
    cases BookSide.remove? place.2 id (book.levels place.1) <;> rfl

/-- A sound book serves up to the size of the front order. -/
theorem fillBestGuarded_eq (sound : book.Sound) (queue : book.orders side = front :: waiting)
    (within : quantity ≤ front.remaining) :
    book.fillBestGuarded side quantity = some (book.fillBest? side quantity) := by
  -- The side is filled as before, and what is reported does not compute anything.
  have served := (sound.levels side).fillBestGuarded_eq queue within
  exact congrArg (Option.map _) served

/-- No trade in a sound book takes more than there is. -/
theorem tradeGuarded_eq (sound : book.Sound) (side : Side) (taker : OrderId) :
    book.tradeGuarded side taker = some (book.trade? side taker) := by
  unfold tradeGuarded trade?
  rw [sound.bestOrder? side, sound.bestOrder? side.opposite]
  -- Both sides have somebody in front, or there is no trade.
  cases own : book.orders side with
  | nil => rfl
  | cons incoming behind =>
    cases faced : book.orders side.opposite with
    | nil => rfl
    | cons resting waiting =>
      simp only [List.head?_cons]
      split
      · -- The smaller size is traded, so neither side gives more than its front order has.
        have withinOwn : (fillOf side incoming resting).quantity ≤ incoming.remaining := fillOf_quantity_le_incoming
        obtain ⟨middle, takes, taken⟩ := sound.fillBest?_front own withinOwn
        have stands : middle.orders side.opposite = resting :: waiting := taken.other.trans faced
        rw [sound.fillBestGuarded_eq own withinOwn, takes]
        simp only [Option.bind_eq_bind, Option.bind_some,
          taken.sound.fillBestGuarded_eq stands fillOf_quantity_le_resting]
        cases middle.fillBest? side.opposite (fillOf side incoming resting).quantity <;> rfl
      · rfl

/-- No match in a sound book takes more than there is. -/
theorem matchFromGuarded_eq (sound : book.Sound) (side : Side) (taker : OrderId) :
    book.matchFromGuarded side taker = some (book.matchFrom side taker) := by
  -- The induction is along the trades, each of which leaves a sound book.
  fun_induction book.matchFrom side taker with
  | case1 book none_left =>
    have stops := sound.tradeGuarded_eq side taker
    rw [none_left] at stops
    rw [matchFromGuarded]
    split <;> simp_all
  -- After a trade the guarded rounds go on as the others do.
  | case2 book fill next trade fills last later ih =>
    obtain ⟨_, _, _, _, -, executes⟩ := sound.executes trade
    have goesOn := sound.tradeGuarded_eq side taker
    rw [trade] at goesOn
    have further := ih executes.arranged.sound
    rw [matchFromGuarded]
    split <;> simp_all

/-- No match in a sound book takes more than there is, whoever trades. -/
theorem matchCrossedGuarded_eq (sound : book.Sound) (taker : OrderId) :
    book.matchCrossedGuarded taker = some (book.matchCrossed taker) := by
  -- Without a taker there is nothing to match; with one the guarded rounds are those of the run.
  unfold matchCrossedGuarded OrderBook.matchCrossed
  cases book.find? taker with
  | none => rfl
  | some order => exact sound.matchFromGuarded_eq order.side taker

end Sound

end OrderBook

end LimitBook
