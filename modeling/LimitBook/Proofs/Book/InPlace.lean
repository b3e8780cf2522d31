import LimitBook.Book

/-!
Events carried out in place. The parts of a book are written one after another, and a refusal keeps whatever had
been written before it. The result is that of taking the event in as a whole: every refusal comes first.
-/

namespace LimitBook

/-- A change of a state in place, which may be refused half-way. -/
abbrev Change (State Answer : Type) := ExceptT BookError (StateM State) Answer

namespace Change

variable {State Answer Next : Type}

/-- The answer of a change, or why it was refused, and the state as the change left it. -/
def on (change : Change State Answer) (state : State) : Except BookError Answer × State := change.run.run state

/-- A change that happens as a whole: the new state is there at once, or the old one stays. -/
def whole (state : State) : Except BookError (Answer × State) → Except BookError Answer × State
  | .ok (answer, next) => (.ok answer, next)
  | .error error => (.error error, state)

/-- Reading the state changes nothing. -/
@[simp] theorem on_get_bind (next : State → Change State Next) (state : State) :
    (get >>= next : Change State Next).on state = (next state).on state := rfl

/-- After a change that was answered the next one starts from the state it left. -/
theorem on_bind_of_ok {change : Change State Answer} {next : Answer → Change State Next} {answer : Answer}
    {state after : State} (first : change.on state = (.ok answer, after)) :
    (change >>= next).on state = (next answer).on after := by
  -- Both monads are opened, since the state decides how the outer one goes on.
  simp only [on, ExceptT.run, StateT.run] at first
  simp only [on, ExceptT.run, Bind.bind, ExceptT.bind, ExceptT.mk, StateT.bind, StateT.run, first]
  rfl

/-- After a change that was refused nothing more happens. -/
theorem on_bind_of_error {change : Change State Answer} {next : Answer → Change State Next} {error : BookError}
    {state after : State} (first : change.on state = (.error error, after)) :
    (change >>= next).on state = (.error error, after) := by
  -- After a refusal the rest is not run.
  simp only [on, ExceptT.run, StateT.run] at first
  simp only [on, ExceptT.run, Bind.bind, ExceptT.bind, ExceptT.mk, StateT.bind, StateT.run, first]
  rfl

/-- A change that happens as a whole is answered with the new state. -/
theorem whole_eq_ok {state next : State} {outcome : Except BookError (Answer × State)} {answer : Answer} :
    whole state outcome = (.ok answer, next) ↔ outcome = .ok (answer, next) := by
  -- An outcome that is refused is no acceptance, and an accepted one holds its answer and its state.
  cases outcome with
  | error error => simp [whole]
  | ok taken => simp [whole, Prod.ext_iff]

/-- A change that happens as a whole is refused with the old state. -/
theorem whole_eq_error {state after : State} {outcome : Except BookError (Answer × State)} {error : BookError} :
    whole state outcome = (.error error, after) ↔ outcome = .error error ∧ after = state := by
  -- An outcome that is refused leaves the state of before.
  cases outcome with
  | error other => simp [whole, eq_comm]
  | ok taken => simp [whole]

end Change

namespace BookSide

/-- The level of a price is written back with another queue. -/
def rewrite (price : Price) (changed : Level) : BookSide → BookSide
  | [] => []
  | level :: worse => if level.price = price then changed :: worse else level :: rewrite price changed worse

/-- The level of a price is closed. -/
def close (price : Price) (levels : BookSide) : BookSide := levels.eraseP (·.price = price)

/-- Looking up the level, shortening its queue and closing it if need be is taking the order out at once. -/
theorem remove?_eq (price : Price) (id : OrderId) (levels : BookSide) :
    remove? price id levels = (levels.level? price).bind fun level => (level.remove? id).map fun (order, shorter) =>
      (order, if shorter.isEmpty then (levels.rewrite price shorter).close price
        else levels.rewrite price shorter) := by
  -- The induction is on the levels, up to the one of the price.
  induction levels with
  | nil => rfl
  | cons level worse ih =>
    by_cases here : level.price = price
    · -- The level found first is the one that is shortened, and its price does not change by that.
      simp only [remove?, level?, List.find?_cons, here, decide_true, if_true, Option.bind_some]
      refine Option.map_congr fun (order, shorter) removed => ?_
      obtain ⟨found, -, same⟩ := Option.map_eq_some_iff.mp removed
      have kept : shorter.price = price := by
        rw [← (Prod.mk.inj same).2]
        exact here
      unfold keep
      split <;> simp [rewrite, close, here, kept]
    · -- The first level is at another price, so both go on behind it.
      have further : level? (level :: worse) price = level? worse price := by
        simp [level?, here]
      rw [remove?, if_neg here, ih, further]
      cases level? worse price with
      | none => rfl
      | some found =>
        simp only [Option.bind_some, Option.map_map]
        refine Option.map_congr fun (order, shorter) _ => ?_
        simp only [Function.comp_apply, rewrite, if_neg here]
        split
        · simp [close, here]
        · rfl

end BookSide

namespace OrderBook

/-- An order comes to rest in place: the index is written first, then the level. -/
def insertInPlace (order : Order) : Change OrderBook Unit := do
  let book ← get
  if book.index.contains order.id then throw (.duplicateOrder order.id)
  else if (book.levels order.side).canAccept order.price order.remaining then
    -- From here on nothing is refused any more.
    modify fun book => { book with index := book.index.insert order.id (order.side, order.price) }
    modify fun book => book.setLevels order.side ((book.levels order.side).push order.side order)
  else throw (.levelOverflow order.id order.price)

/-- An order is taken out in place: its level is shortened, then closed if need be, then the index is written. -/
def cancelInPlace (id : OrderId) : Change OrderBook Order := do
  let some (side, price) := (← get).index[id]? | throw (.orderNotFound id)
  let some level := ((← get).levels side).level? price | throw (.orderNotFound id)
  let some (order, shorter) := level.remove? id | throw (.orderNotFound id)
  modify fun book => book.setLevels side ((book.levels side).rewrite price shorter)
  if shorter.isEmpty then
    modify fun book => book.setLevels side ((book.levels side).close price)
  modify fun book => { book with index := book.index.erase id }
  return order

/-- Inserting in place is inserting as a whole. -/
theorem on_insertInPlace (order : Order) (book : OrderBook) :
    (insertInPlace order).on book = Change.whole book ((book.insert order).map fun next => ((), next)) := by
  unfold insert insertInPlace
  rw [Change.on_get_bind]
  by_cases taken : book.index.contains order.id = true
  · -- The number is taken, and nothing has been written yet.
    rw [if_pos taken, if_pos taken]
    rfl
  · rw [if_neg taken, if_neg taken]
    by_cases room : (book.levels order.side).canAccept order.price order.remaining = true
    · -- The two writes touch different parts, so together they are one.
      simp only [if_pos room]
      cases order.side <;> rfl
    · -- The level is full, and nothing has been written yet.
      simp only [if_neg room]
      rfl

/-- Cancelling in place is cancelling as a whole. -/
theorem on_cancelInPlace (id : OrderId) (book : OrderBook) :
    (cancelInPlace id).on book = Change.whole book (book.cancel id) := by
  unfold cancel cancelInPlace
  rw [Change.on_get_bind]
  -- Three look-ups may fail, and all of them come before the first write.
  cases entry : book.index[id]? with
  | none => rfl
  | some place =>
    obtain ⟨side, price⟩ := place
    simp only [BookSide.remove?_eq, Change.on_get_bind]
    cases found : (book.levels side).level? price with
    | none => rfl
    | some level =>
      simp only [Option.bind_some]
      cases removed : level.remove? id with
      | none => rfl
      | some pair =>
        obtain ⟨order, shorter⟩ := pair
        simp only [Option.map_some]
        -- Whether or not the level closes, the side is written once in effect.
        by_cases closed : shorter.isEmpty = true
        · simp only [closed, if_true]
          cases side <;> rfl
        · simp only [closed]
          cases side <;> rfl

end OrderBook

namespace Book

/-- A change of the resting orders of a tracked book. -/
def inOrders {Answer : Type} (change : Change OrderBook Answer) : Change Book Answer := fun book =>
  -- The orders are written back even if the change was refused.
  let (answer, orders) := change.on book.orders
  (answer, { book with orders })

/-- A change of the resting orders leaves the rest of the book alone. -/
theorem on_inOrders {Answer : Type} {change : Change OrderBook Answer} {book : Book} {orders : OrderBook}
    {answer : Except BookError Answer} (changed : change.on book.orders = (answer, orders)) :
    (inOrders change).on book = (answer, { book with orders }) := by
  -- The orders are changed in their place, and the other parts are carried along.
  show (let (answer, orders) := change.on book.orders; (answer, ({ book with orders } : Book))) = _
  rw [changed]

/-- The totals of a tracked book are written. -/
def writeStats (write : Stats → Stats) : Change Book Unit :=
  modify fun book => { book with stats := write book.stats }

/-- An order comes in, in place: it is inserted and counted, it trades, and the trades are counted. -/
def addInPlace (sequence : Sequence) (new : NewOrder) : Change Book Report := do
  let book ← get
  if new.size = 0 then throw (.invalidSize new.id)
  else if book.orders.contains new.id then throw (.duplicateOrder new.id)
  else
    inOrders (OrderBook.insertInPlace (book.arriving sequence new))
    writeStats (·.recordAdded new.size)
    let fills ← inOrders (modifyGet (·.matchCrossed new.id))
    writeStats (·.recordFills fills)
    let orders := (← get).orders
    return ⟨sequence, fills, orders.find? new.id, none, orders.top⟩

/-- A resting order is taken out in place and counted. -/
def removeInPlace (sequence : Sequence) (id : OrderId) : Change Book Report := do
  let removed ← inOrders (OrderBook.cancelInPlace id)
  writeStats (·.recordRemoved removed.remaining)
  return ⟨sequence, [], none, some removed, (← get).orders.top⟩

/-- What an action does in place to the resting orders and the totals. -/
def actInPlace (sequence : Sequence) : Action → Change Book Report
  | .add new => addInPlace sequence new
  | .remove id => removeInPlace sequence id

/-- An event is checked and carried out in place; only then does the book move on in its stream. -/
def applyInPlace (event : Event) : Change Book Report := do
  let book ← get
  match book.cursor.check event with
  | .error error => throw error
  | .ok () =>
    let report ← actInPlace event.sequence event.action
    modify fun book => { book with cursor := book.cursor.advance }
    writeStats Stats.recordEvent
    return report

/-- Adding in place is adding as a whole. -/
theorem on_addInPlace (sequence : Sequence) (new : NewOrder) (book : Book) :
    (addInPlace sequence new).on book = Change.whole book (book.add sequence new) := by
  unfold add addInPlace
  rw [Change.on_get_bind]
  by_cases empty : new.size = 0
  · -- A size of zero is refused before anything else.
    rw [if_pos empty, if_pos empty]
    rfl
  · rw [if_neg empty, if_neg empty]
    have inserting := OrderBook.on_insertInPlace (book.arriving sequence new) book.orders
    by_cases taken : book.orders.contains new.id = true
    · -- The number is looked up twice, and the first time decides.
      have refused : book.orders.insert (book.arriving sequence new) = .error (.duplicateOrder new.id) :=
        if_pos taken
      rw [if_pos taken, refused]
      rfl
    · rw [if_neg taken]
      cases inserted : book.orders.insert (book.arriving sequence new) with
      | error error =>
        -- The only step that may still be refused comes before the first write.
        rw [inserted] at inserting
        rw [Change.on_bind_of_error (on_inOrders inserting)]
        rfl
      | ok orders =>
        rw [inserted] at inserting
        -- From here on every step is answered, so the writes add up.
        rw [Change.on_bind_of_ok (on_inOrders inserting)]
        rfl

/-- Removing in place is removing as a whole. -/
theorem on_removeInPlace (sequence : Sequence) (id : OrderId) (book : Book) :
    (removeInPlace sequence id).on book = Change.whole book (book.remove sequence id) := by
  unfold remove removeInPlace
  have cancelling := OrderBook.on_cancelInPlace id book.orders
  cases cancelled : book.orders.cancel id with
  | error error =>
    rw [cancelled] at cancelling
    -- Nothing comes before the cancelling, so a refusal there is one of the whole.
    rw [Change.on_bind_of_error (on_inOrders cancelling)]
    rfl
  -- The order is gone, and the totals are counted in place.
  | ok pair =>
    obtain ⟨removed, orders⟩ := pair
    rw [cancelled] at cancelling
    rw [Change.on_bind_of_ok (on_inOrders cancelling)]
    rfl

/-- Acting in place is acting as a whole. -/
theorem on_actInPlace (sequence : Sequence) (action : Action) (book : Book) :
    (actInPlace sequence action).on book = Change.whole book (book.act sequence action) := by
  -- Each action has its own law.
  cases action with
  | add new => exact on_addInPlace sequence new book
  | remove id => exact on_removeInPlace sequence id book

/-- Carrying an event out in place is taking it in as a whole: nothing is left behind by a refusal. -/
theorem on_applyInPlace (event : Event) (book : Book) :
    (applyInPlace event).on book = Change.whole book (book.apply event) := by
  unfold apply applyInPlace
  rw [Change.on_get_bind]
  -- The check only reads.
  cases checked : book.cursor.check event with
  | error error => rfl
  | ok _ =>
    simp only
    -- The position in the stream and the count are written after the action, so they do not change if it is refused.
    have acting := on_actInPlace event.sequence event.action book
    cases acted : book.act event.sequence event.action with
    | error error =>
      rw [acted] at acting
      rw [Change.on_bind_of_error acting]
      rfl
    | ok pair =>
      obtain ⟨report, next⟩ := pair
      rw [acted] at acting
      rw [Change.on_bind_of_ok acting]
      rfl

end Book

end LimitBook
