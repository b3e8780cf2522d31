import LimitBook.Proofs.Book.Census
import LimitBook.Proofs.Format.RoundTrip
import LimitBook.Proofs.Guarded
import LimitBook.Proofs.OrderBook.Withdrawal

/-!
A tracked book with its arithmetic guarded: totals, counts and the number of the next event stop where they leave the
words that hold them. A run of bounded length and volume never stops, whatever sizes and prices are fed to it, and
whatever is asked of the books on the way is within its words as well.
-/

namespace LimitBook

namespace Guarded

/-- A number below a limit. -/
def below (limit n : Nat) : Guarded Nat := if n < limit then some n else none

/-- A total that is kept in two words. -/
def wide (n : Nat) : Guarded Nat := below (UInt64.size * UInt64.size) n

/-- Sizes of some items are added up one after another, if every sum on the way is below a limit. -/
def sum {α : Type} (limit : Nat) (size : α → Nat) (items : List α) : Guarded Nat :=
  items.foldlM (fun n item => below limit (n + size item)) 0

/-- A number that is below the limit is itself. -/
theorem below_of_lt {limit n : Nat} (fits : n < limit) : below limit n = some n := if_pos fits

/-- No sum on the way is larger than the last one. -/
theorem foldlM_below {α : Type} {limit : Nat} {size : α → Nat} {items : List α} (n : Nat)
    (fits : n + items.foldr (fun item n => size item + n) 0 < limit) :
    items.foldlM (fun n item => below limit (n + size item)) n =
      some (n + items.foldr (fun item n => size item + n) 0) := by
  -- What has been added up so far varies along the items.
  induction items generalizing n with
  | nil => rfl
  | cons item items ih =>
    rw [List.foldr_cons, ← Nat.add_assoc] at fits ⊢
    rw [List.foldlM_cons, below_of_lt (by omega)]
    exact ih _ fits

/-- Sizes whose exact sum is below the limit are added up to it. -/
theorem sum_of_lt {α : Type} {limit : Nat} {size : α → Nat} {items : List α}
    (fits : items.foldr (fun item n => size item + n) 0 < limit) :
    sum limit size items = some (items.foldr (fun item n => size item + n) 0) := by
  -- The sum starts from nothing.
  have whole := foldlM_below 0 (by rwa [Nat.zero_add])
  rwa [Nat.zero_add] at whole

end Guarded

open Guarded

/-- The cursor moves on by one, unless it stands at the last number that there is. -/
def Cursor.advanceGuarded (cursor : Cursor) : Guarded Cursor :=
  (add cursor.next 1).map fun next => { cursor with next }

/-- Below the last number a cursor moves on. -/
theorem Cursor.advanceGuarded_eq {cursor : Cursor} (below : cursor.next.toNat + 1 < UInt64.size) :
    cursor.advanceGuarded = some cursor.advance :=
  congrArg (Option.map _) (if_pos below)

/-- The traded amount times its price, if it is within two words. -/
def Fill.notionalGuarded (fill : Fill) : Guarded Nat := wide fill.notional

namespace Stats

/-- An order of this size was accepted, unless the total leaves its words. -/
def recordAddedGuarded (stats : Stats) (size : Quantity) : Guarded Stats :=
  (wide (stats.addedQuantity + size.toNat)).map fun addedQuantity => { stats with addedQuantity }

/-- An order was taken out with this much left, unless the total leaves its words. -/
def recordRemovedGuarded (stats : Stats) (remaining : Quantity) : Guarded Stats :=
  (wide (stats.removedQuantity + remaining.toNat)).map fun removedQuantity => { stats with removedQuantity }

/-- A trade took place, unless a total leaves its words. -/
def recordFillGuarded (stats : Stats) (fill : Fill) : Guarded Stats := do
  let executedQuantity ← wide (stats.executedQuantity + fill.quantity.toNat)
  let fillCount ← below UInt64.size (stats.fillCount + 1)
  let notional ← fill.notionalGuarded
  let volume ← wide (stats.volume + notional)
  return { stats with executedQuantity, fillCount, volume, lastTradePrice := some fill.price }

/-- Several trades took place, unless a total leaves its words. -/
def recordFillsGuarded (stats : Stats) (fills : List Fill) : Guarded Stats := fills.foldlM recordFillGuarded stats

/-- One more event was accepted, unless there are too many to be counted. -/
def recordEventGuarded (stats : Stats) : Guarded Stats :=
  (below UInt64.size (stats.eventsApplied + 1)).map fun eventsApplied => { stats with eventsApplied }

variable {stats : Stats} {fill : Fill} {fills : List Fill} {size : Quantity}

/-- Totals that fit after a trade fit before it. -/
theorem Fits.of_recordFill (fits : (stats.recordFill fill).Fits) : stats.Fits := by
  -- A fill makes no total smaller.
  obtain ⟨added, removed, executed, count, volume, events⟩ := fits
  simp only [recordFill] at added removed executed count volume events
  constructor <;> omega

/-- Totals that fit after some trades fit before them. -/
theorem Fits.of_recordFills (fits : (stats.recordFills fills).Fits) : stats.Fits := by
  -- The totals vary along the fills, of which the last ones fit only if the first ones do.
  induction fills generalizing stats with
  | nil => exact fits
  | cons fill fills ih => exact (ih fits).of_recordFill

end Stats

/-- An amount times a price is always within two words. -/
theorem Fill.notionalGuarded_eq (fill : Fill) : fill.notionalGuarded = some fill.notional :=
  below_of_lt (Nat.mul_lt_mul'' fill.price.ticks.toNat_lt_size fill.quantity.toNat_lt_size)

namespace Stats

variable {stats : Stats} {fill : Fill} {fills : List Fill}

/-- A trade is recorded if the totals fit afterwards. -/
theorem Fits.recordFillGuarded_eq (fits : (stats.recordFill fill).Fits) :
    stats.recordFillGuarded fill = some (stats.recordFill fill) := by
  -- Every sum that the guarded operation forms is a total of the counters that it leads to.
  have executed : wide (stats.executedQuantity + fill.quantity.toNat) = some _ := below_of_lt fits.executedQuantity
  have count : below UInt64.size (stats.fillCount + 1) = some _ := below_of_lt fits.fillCount
  have volume : wide (stats.volume + fill.notional) = some _ := below_of_lt fits.volume
  simp only [recordFillGuarded, executed, count, fill.notionalGuarded_eq, volume, Option.bind_eq_bind, Option.bind_some]
  rfl

/-- Trades are recorded if the totals fit afterwards. -/
theorem Fits.recordFillsGuarded_eq (fits : (stats.recordFills fills).Fits) :
    stats.recordFillsGuarded fills = some (stats.recordFills fills) := by
  unfold recordFillsGuarded
  -- The totals after a first fill fit as well, since the later ones only add to them.
  induction fills generalizing stats with
  | nil => rfl
  | cons fill fills ih =>
    have later : ((stats.recordFill fill).recordFills fills).Fits := fits
    rw [List.foldlM_cons, later.of_recordFills.recordFillGuarded_eq]
    exact ih later

/-- A new order is recorded if the totals fit afterwards. -/
theorem Fits.recordAddedGuarded_eq {size : Quantity} (fits : (stats.recordAdded size).Fits) :
    stats.recordAddedGuarded size = some (stats.recordAdded size) :=
  congrArg (Option.map _) (below_of_lt fits.addedQuantity)

/-- A removal is recorded if the totals fit afterwards. -/
theorem Fits.recordRemovedGuarded_eq {remaining : Quantity} (fits : (stats.recordRemoved remaining).Fits) :
    stats.recordRemovedGuarded remaining = some (stats.recordRemoved remaining) :=
  congrArg (Option.map _) (below_of_lt fits.removedQuantity)

/-- An event is recorded if the totals fit afterwards. -/
theorem Fits.recordEventGuarded_eq (fits : stats.recordEvent.Fits) :
    stats.recordEventGuarded = some stats.recordEvent :=
  congrArg (Option.map _) (below_of_lt fits.eventsApplied)

/-- Totals that fit after an event fit before it is counted. -/
theorem Fits.of_recordEvent (fits : stats.recordEvent.Fits) : stats.Fits :=
  -- Counting the event leaves the other totals and makes its own one larger.
  ⟨fits.addedQuantity, fits.removedQuantity, fits.executedQuantity, fits.fillCount, fits.volume,
    Nat.lt_of_succ_lt fits.eventsApplied⟩

end Stats

/-- Whatever is asked of the report of an event is within the words of its answer. -/
structure Report.InRange (report : Report) (event : Event) : Prop where
  /-- The sizes of the fills are added up within a word. -/
  executed : sum UInt64.size (·.quantity.toNat) report.fills = some report.executedQuantity
  /-- An event trades no more than it brings in. -/
  within : report.executedQuantity ≤ event.addedSize
  /-- What a fill is worth is within two words. -/
  notional : ∀ fill ∈ report.fills, fill.notionalGuarded = some fill.notional
  /-- What is left of a new order is no more than was asked for, and so is what is left of one that is taken out. -/
  filled : ∀ order, report.resting = some order ∨ report.removed = some order →
    order.filledGuarded = some order.filledQuantity

/-- An event brings in less than a word can hold. -/
theorem Event.addedSize_lt (event : Event) : event.addedSize < UInt64.size := by
  unfold addedSize
  -- Whatever arrives has a size of one word, and a removal adds nothing.
  cases event.action with
  | add new => exact new.size.toNat_lt_size
  | remove id => exact Nat.zero_lt_of_lt (0 : UInt64).toNat_lt_size

namespace Book

/-- An order comes in and trades, with the arithmetic guarded. -/
def addGuarded (book : Book) (sequence : Sequence) (new : NewOrder) : Guarded (Except BookError (Report × Book)) :=
  if new.size = 0 then some (.error (.invalidSize new.id))
  else do
    match ← book.orders.insertGuarded (book.arriving sequence new) with
    | .error error => return .error error
    | .ok inserted =>
      let stats ← book.stats.recordAddedGuarded new.size
      let (fills, orders) ← inserted.matchCrossedGuarded new.id
      let stats ← stats.recordFillsGuarded fills
      return .ok (⟨sequence, fills, orders.find? new.id, none, orders.top⟩, { book with orders, stats })

/-- A resting order is taken out, with the arithmetic guarded. -/
def removeGuarded (book : Book) (sequence : Sequence) (id : OrderId) :
    Guarded (Except BookError (Report × Book)) := do
  match ← book.orders.cancelGuarded id with
  | .error error => return .error error
  | .ok (removed, orders) =>
    let stats ← book.stats.recordRemovedGuarded removed.remaining
    return .ok (⟨sequence, [], none, some removed, orders.top⟩, { book with orders, stats })

/-- What an action does, with the arithmetic guarded. -/
def actGuarded (book : Book) (sequence : Sequence) : Action → Guarded (Except BookError (Report × Book))
  | .add new => book.addGuarded sequence new
  | .remove id => book.removeGuarded sequence id

/-- An event that is in place is carried out and counted, with the arithmetic guarded. -/
def applyGuarded (book : Book) (event : Event) : Guarded (Except BookError (Report × Book)) :=
  match book.cursor.check event with
  | .error error => some (.error error)
  | .ok () => do
    match ← book.actGuarded event.sequence event.action with
    | .error error => return .error error
    | .ok (report, book) =>
      let cursor ← book.cursor.advanceGuarded
      let stats ← book.stats.recordEventGuarded
      return .ok (report, { book with cursor, stats })

/-- What a book answers to a call and the book afterwards, with the arithmetic guarded. -/
def callGuarded (book : Book) : Call → Guarded (Option (Except BookError Report) × Book)
  | .apply event => (book.applyGuarded event).map fun
    | .ok (report, next) => (some (.ok report), next)
    | .error error => (some (.error error), book)
  | .resync next => some (none, book.resync next)

/-- The answers to calls one after another and the book that they leave, with the arithmetic guarded. -/
def runGuarded (book : Book) : List Call → Guarded (List (Option (Except BookError Report)) × Book)
  | [] => some ([], book)
  | call :: calls => do
    let (answer, next) ← book.callGuarded call
    let (answers, last) ← next.runGuarded calls
    return (answer :: answers, last)

/-- Whatever is asked of a book is within the words of its answer. -/
structure InRange (book : Book) : Prop where
  /-- The totals are within their words. -/
  stats : book.stats.Fits
  /-- The size that rests is added up level by level. -/
  resting : sum (UInt64.size * UInt64.size) (·.total.toNat) (book.orders.bids ++ book.orders.asks) =
    some book.orders.restingQuantity
  /-- The sizes shown on either side are added up line by line, however many lines are shown. -/
  depth : ∀ levels, sum (UInt64.size * UInt64.size) (·.quantity.toNat) (book.depth levels).bids =
      some (book.depth levels).bidQuantity ∧
    sum (UInt64.size * UInt64.size) (·.quantity.toNat) (book.depth levels).asks = some (book.depth levels).askQuantity
  /-- Nobody who rests has more left than was asked for. -/
  filled : ∀ order ∈ book.orders.resting, order.filledGuarded = some order.filledQuantity

variable {book next : Book} {event : Event} {new : NewOrder} {report : Report} {sequence : Sequence} {id : OrderId}
  {calls : List Call} {call : Call}

section Steps

/-- A new order is taken in or refused if the totals fit afterwards. -/
theorem Sound.addGuarded_eq (sound : book.Sound)
    (fits : ∀ report next, book.add sequence new = .ok (report, next) → next.stats.Fits) :
    book.addGuarded sequence new = some (book.add sequence new) := by
  unfold addGuarded
  unfold add at fits ⊢
  -- Orders are refused ahead of any sum, and an accepted one goes through sums that end in totals that fit.
  by_cases empty : new.size = 0
  · rw [if_pos empty, if_pos empty]
    rfl
  · rw [if_neg empty] at fits
    rw [if_neg empty, if_neg empty, OrderBook.insertGuarded_eq]
    cases accepted : book.orders.insert (book.arriving sequence new) with
    | error error => rfl
    | ok inserted =>
      rw [accepted] at fits
      have soundInserted := (sound.orders.insert_eq_ok accepted).2.sound
      have last : ((book.stats.recordAdded new.size).recordFills (inserted.matchCrossed new.id).1).Fits :=
        fits _ _ rfl
      have first : (book.stats.recordAdded new.size).Fits := last.of_recordFills
      simp only [Option.bind_eq_bind, Option.bind_some, first.recordAddedGuarded_eq,
        soundInserted.matchCrossedGuarded_eq, last.recordFillsGuarded_eq]
      rfl

/-- A removal is carried out or refused if the totals fit afterwards. -/
theorem Sound.removeGuarded_eq (sound : book.Sound)
    (fits : ∀ report next, book.remove sequence id = .ok (report, next) → next.stats.Fits) :
    book.removeGuarded sequence id = some (book.remove sequence id) := by
  unfold removeGuarded
  unfold remove at fits ⊢
  -- A removal forms only one sum, and this is a total of the counters that it leads to.
  rw [sound.orders.cancelGuarded_eq]
  cases removed : book.orders.cancel id with
  | error error => rfl
  | ok taken =>
    rw [removed] at fits
    have last : (book.stats.recordRemoved taken.1.remaining).Fits := fits _ _ rfl
    simp only [Option.bind_eq_bind, Option.bind_some, last.recordRemovedGuarded_eq]
    rfl

/-- An action is carried out or refused if the totals fit afterwards. -/
theorem Sound.actGuarded_eq (sound : book.Sound) {action : Action}
    (fits : ∀ report next, book.act sequence action = .ok (report, next) → next.stats.Fits) :
    book.actGuarded sequence action = some (book.act sequence action) := by
  -- Each action has its own law.
  cases action with
  | add new => exact sound.addGuarded_eq fits
  | remove id => exact sound.removeGuarded_eq fits

/-- An event in place is carried out, and then the book moves on. -/
theorem apply_of_check (inPlace : book.cursor.check event = .ok ()) :
    book.apply event = (book.act event.sequence event.action).map fun (report, next) =>
      (report, { next with cursor := next.cursor.advance, stats := next.stats.recordEvent }) := by
  -- The cursor has judged the event already.
  unfold apply
  rw [inPlace]
  cases book.act event.sequence event.action <;> rfl

/-- An event is taken in or refused if the totals fit afterwards and its number is not the last. -/
theorem Sound.applyGuarded_eq (sound : book.Sound)
    (fits : ∀ report next, book.apply event = .ok (report, next) →
      next.stats.Fits ∧ event.sequence.toNat + 1 < UInt64.size) :
    book.applyGuarded event = some (book.apply event) := by
  unfold applyGuarded
  -- An event out of place is refused ahead of any sum.
  cases checked : book.cursor.check event with
  | error error =>
    unfold apply
    rw [checked]
    rfl
  | ok _ =>
    have outcomes := apply_of_check checked
    have carriedOut : book.actGuarded event.sequence event.action = some (book.act event.sequence event.action) := by
      refine sound.actGuarded_eq fun report next outcome => ?_
      rw [outcome] at outcomes
      exact (fits _ _ outcomes).1.of_recordEvent
    simp only [carriedOut, Option.bind_eq_bind, Option.bind_some]
    -- The action stops nowhere, and what it reports is counted.
    cases outcome : book.act event.sequence event.action with
    | error error =>
      rw [outcomes, outcome]
      rfl
    | ok taken =>
      rw [outcome] at outcomes
      obtain ⟨last, below⟩ := fits _ _ outcomes
      have takes := (sound.takes outcomes).2
      -- The action has left the cursor where it was, at the number of the event.
      have stands : taken.2.cursor.next = event.sequence := by
        rw [takes.sequence]
        exact (UInt64.add_left_inj 1).mp takes.advances.1
      have moves := Cursor.advanceGuarded_eq (stands.symm ▸ below)
      simp only [moves, last.recordEventGuarded_eq, Option.bind_some, outcomes]
      rfl

/-- A call is answered if the totals fit afterwards and no event with the last number is accepted. -/
theorem Sound.callGuarded_eq (sound : book.Sound) (fits : (book.call call).2.stats.Fits)
    (below : ∀ taken ∈ book.history [call], taken.1.sequence.toNat + 1 < UInt64.size) :
    book.callGuarded call = some (book.call call) := by
  -- A resync computes nothing; an event is in the history if it is accepted, and so its sequence has a successor.
  cases call with
  | resync next => rfl
  | apply event =>
    have applied : book.applyGuarded event = some (book.apply event) := by
      refine sound.applyGuarded_eq fun report next accepted => ?_
      simp only [history, run, Book.call, accepted] at fits below
      exact ⟨fits, below (event, report) List.mem_cons_self⟩
    rcases outcome : book.apply event with error | ⟨report, next⟩ <;>
      simp only [callGuarded, Book.call, applied, outcome, Option.map_some]

/-- A run goes through if the totals fit after each of its calls and no event with the last number is accepted. -/
theorem Sound.runGuarded_eq (sound : book.Sound) (fits : ∀ n, (book.run (calls.take n)).2.stats.Fits)
    (below : ∀ taken ∈ book.history calls, taken.1.sequence.toNat + 1 < UInt64.size) :
    book.runGuarded calls = some (book.run calls) := by
  induction calls generalizing book with
  | nil => rfl
  | cons call calls ih =>
    rw [history_cons] at below
    -- After the first call, the others lead through the same books.
    have first := sound.callGuarded_eq (fits 1) fun taken member => below taken (List.mem_append_left _ member)
    have others := ih (sound.call call) (fun n => fits (n + 1)) fun taken member =>
      below taken (List.mem_append_right _ member)
    rw [runGuarded, first, run_cons]
    simp only [Option.bind_eq_bind, Option.bind_some, others]
    rfl

end Steps

section Bounds

/-- Some events bring in no more than as many words can hold. -/
theorem addedSize_le (history : List (Event × Report)) : addedSize history ≤ history.length * UInt64.size := by
  -- Every event adds less than the limit of the words.
  induction history with
  | nil => exact Nat.le_refl _
  | cons taken history ih =>
    have first := taken.1.addedSize_lt
    have unfolded : addedSize (taken :: history) = taken.1.addedSize + addedSize history := rfl
    rw [unfolded, List.length_cons, Nat.succ_mul]
    omega

/-- The totals of a run fit if it accepts fewer events than a word counts and its volume is within two words. -/
theorem fits_run (key : BookKey) (origin : Sequence)
    (few : ((startingAt key origin).history calls).length < UInt64.size)
    (volume : tradedVolume (fillsOf ((startingAt key origin).history calls)) < UInt64.size * UInt64.size) :
    ((startingAt key origin).run calls).2.stats.Fits ∧
      ((startingAt key origin).run calls).2.orders.restingQuantity < UInt64.size * UInt64.size := by
  have sound := sound_startingAt key origin
  have reconciles := (reconciles_startingAt key origin).run sound calls
  have balanced := (balanced_startingAt key origin).run sound calls
  have paid := sound.length_fillsOf_le calls
  rw [List.nil_append] at reconciles balanced
  -- All sizes together came in with fewer events than a word counts.
  have added := addedSize_le ((startingAt key origin).history calls)
  have limit := Nat.mul_lt_mul_of_pos_right few (Nat.zero_lt_of_lt few)
  have balance := reconciles.balance
  rw [← reconciles.addedQuantity] at added
  -- Every fill uses up somebody who has come in.
  have count := reconciles.fills.fillCount
  have arrived : arrivals ((startingAt key origin).history calls) ≤ _ := List.countP_le_length
  unfold Balanced at balanced
  refine ⟨⟨?_, ?_, ?_, ?_, ?_, ?_⟩, ?_⟩
  · omega
  · omega
  · omega
  · omega
  · rw [reconciles.fills.volume]
    exact volume
  · rw [reconciles.eventsApplied]
    exact few
  · omega

/-- An event trades no more than it brings in. -/
theorem Takes.executedQuantity_le (takes : book.Takes event report next) :
    report.executedQuantity ≤ event.addedSize := by
  unfold Report.executedQuantity
  rcases takes.effect with ⟨new, adds⟩ | ⟨side, order, removes⟩
  · -- The fills hand out the size of the newcomer.
    have allocates : Allocates (book.arriving event.sequence new) (book.inReach new)
        (book.sweepOf event.sequence new).fills := sweep_allocates rfl
    rw [adds.fills_eq, allocates.executed, Event.addedSize, adds.action]
    exact Nat.min_le_left _ _
  · rw [removes.reported]
    exact Nat.zero_le _

/-- Whoever has no more left than was asked for has traded the difference. -/
theorem filledGuarded_eq {order : Order} (within : order.remaining ≤ order.quantity) :
    order.filledGuarded = some order.filledQuantity := sub_of_le within

/-- Whatever is asked of the report of an accepted event is within the words of its answer. -/
theorem Takes.inRange (sound : book.Sound) (takes : book.Takes event report next) : report.InRange event := by
  have within := takes.executedQuantity_le
  have isWord : event.addedSize < UInt64.size := event.addedSize_lt
  refine ⟨sum_of_lt (Nat.lt_of_le_of_lt within isWord), within, fun fill _ => fill.notionalGuarded_eq,
    fun order reported => filledGuarded_eq ?_⟩
  rcases takes.effect with ⟨new, adds⟩ | ⟨side, stood, removes⟩
  · -- What is left of the newcomer is no more than it came with.
    rw [adds.reported] at reported
    obtain ⟨same, -, less⟩ := sweep_left (reported.resolve_right (by simp)) adds.positive
    rw [same]
    exact less
  · -- Whoever is taken out has rested.
    rw [removes.reported] at reported
    obtain rfl := Option.some.inj (reported.resolve_left (by simp))
    exact (sound.live stood (OrderBook.mem_resting.mpr ⟨side, removes.member⟩)).within

/-- The best levels of a side have no more than all of them. -/
theorem foldr_take_le (levels : BookSide) (n : Nat) :
    (levels.take n).foldr (fun level n => level.total.toNat + n) 0 ≤
      levels.foldr (fun level n => level.total.toNat + n) 0 := by
  -- The levels that are left out add something or nothing.
  have split := foldr_add_append (fun level : Level => level.total.toNat) (levels.take n) (levels.drop n)
  rw [List.take_append_drop] at split
  omega

/-- Whatever is asked of a sound book is within the words of its answer, if its totals are. -/
theorem Sound.inRange (sound : book.Sound) (fits : book.stats.Fits)
    (resting : book.orders.restingQuantity < UInt64.size * UInt64.size) : book.InRange := by
  -- Whatever a view adds up is part of what rests on both sides.
  have bids := foldr_take_le book.orders.bids
  have asks := foldr_take_le book.orders.asks
  have sides : book.orders.restingQuantity = _ :=
    foldr_add_append (fun level : Level => level.total.toNat) book.orders.bids book.orders.asks
  refine ⟨fits, sum_of_lt resting, fun levels => ⟨sum_of_lt ?_, sum_of_lt ?_⟩, fun order rests => ?_⟩
  · -- The rows that are shown are some of the levels.
    have shown := bids levels
    simp only [Book.depth, OrderBook.depth, List.foldr_map, OrderBook.aggregate]
    omega
  · have shown := asks levels
    simp only [Book.depth, OrderBook.depth, List.foldr_map, OrderBook.aggregate]
    omega
  · exact filledGuarded_eq (sound.live order rests).within

end Bounds

/--
The arithmetic of a book is exact in every run of bounded length and volume, whatever sizes and prices are fed to it.

With its arithmetic guarded the run goes through and gives the same answers and the same book. Every book on the way
answers all questions within the words of the answers, and so does every report.
-/
theorem arithmetic_exact (key : BookKey) (origin : Sequence) (calls : List Call)
    (few : ((startingAt key origin).history calls).length < UInt64.size)
    (below : ∀ taken ∈ (startingAt key origin).history calls, taken.1.sequence.toNat + 1 < UInt64.size)
    (volume : tradedVolume (fillsOf ((startingAt key origin).history calls)) < UInt64.size * UInt64.size) :
    (startingAt key origin).runGuarded calls = some ((startingAt key origin).run calls) ∧
    (∀ n, ((startingAt key origin).run (calls.take n)).2.InRange) ∧
    ∀ taken ∈ (startingAt key origin).history calls, taken.2.InRange taken.1 := by
  have sound := sound_startingAt key origin
  -- The first calls accept no more and trade no more than all of them.
  have inRange : ∀ n, ((startingAt key origin).run (calls.take n)).2.InRange := by
    intro n
    have split : (startingAt key origin).history calls = (startingAt key origin).history (calls.take n) ++
        ((startingAt key origin).run (calls.take n)).2.history (calls.drop n) := by
      rw [← history_append, List.take_append_drop]
    rw [split, List.length_append] at few
    rw [split, fillsOf_append, tradedVolume, foldr_add_append] at volume
    obtain ⟨fits, resting⟩ := fits_run key origin (Nat.lt_of_le_of_lt (Nat.le_add_right _ _) few)
      (Nat.lt_of_le_of_lt (Nat.le_add_right _ _) volume)
    exact (sound_run sound _).inRange fits resting
  -- Each call is guarded at the book that it finds.
  refine ⟨sound.runGuarded_eq (fun n => (inRange n).stats) below, inRange, fun taken member => ?_⟩
  obtain ⟨before, next, soundBefore, takes⟩ := sound.takes_of_mem_history member
  exact takes.inRange soundBefore

/-- The largest size and the highest price that there are. -/
def most : UInt64 := 0xffffffffffffffff

/-- The largest sale at the highest price, one more there for which there is no room, and the largest purchase of it. -/
def brimful : List Call :=
  [.apply ⟨⟨7⟩, 0, .add ⟨⟨1⟩, ⟨1⟩, 0, .sell, most, ⟨most⟩⟩⟩, .apply ⟨⟨7⟩, 1, .add ⟨⟨2⟩, ⟨2⟩, 0, .sell, 1, ⟨most⟩⟩⟩,
    .apply ⟨⟨7⟩, 1, .add ⟨⟨2⟩, ⟨2⟩, 0, .sell, most, ⟨0⟩⟩⟩, .resync 5,
    .apply ⟨⟨7⟩, 5, .add ⟨⟨3⟩, ⟨3⟩, 0, .buy, most - 1, ⟨0⟩⟩⟩, .apply ⟨⟨7⟩, 6, .add ⟨⟨4⟩, ⟨4⟩, 0, .buy, most, ⟨most⟩⟩⟩,
    .apply ⟨⟨7⟩, 7, .remove ⟨1⟩⟩]

/-- Sizes and prices that fill their words are traded, added up and taken out without an overflow. -/
theorem arithmetic_exact_brimful :
    let start := startingAt ⟨⟨1⟩, ⟨7⟩⟩ 0
    (start.history brimful).length = 5 ∧
      start.runGuarded brimful = some (start.run brimful) ∧
      (start.run brimful).2.stats.executedQuantity + 1 = 2 * most.toNat ∧
      (start.run brimful).2.InRange ∧
      (start.run (brimful.take 3)).2.orders.restingQuantity = 2 * most.toNat ∧
      (start.run (brimful.take 3)).2.InRange := by
  intro start
  -- There are as many events as calls, and all bounds are met by computation.
  have accepted : (start.history brimful).length = 5 := by decide +kernel
  have few : (start.history brimful).length < UInt64.size := by
    rw [accepted]
    decide
  obtain ⟨goesThrough, inRange, -⟩ := arithmetic_exact ⟨⟨1⟩, ⟨7⟩⟩ 0 brimful few (by decide +kernel) (by decide +kernel)
  exact ⟨accepted, goesThrough, by decide +kernel, inRange 7, by decide +kernel, inRange 3⟩

/-- Twice the largest volume of a single fill is too much, so the bound on the volume is needed. -/
example : ((startingAt ⟨⟨1⟩, ⟨7⟩⟩ 0).runGuarded
    [.apply ⟨⟨7⟩, 0, .add ⟨⟨1⟩, ⟨1⟩, 0, .sell, most, ⟨most⟩⟩⟩, .apply ⟨⟨7⟩, 1, .add ⟨⟨2⟩, ⟨2⟩, 0, .buy, most, ⟨most⟩⟩⟩,
      .apply ⟨⟨7⟩, 2, .add ⟨⟨3⟩, ⟨3⟩, 0, .sell, most, ⟨most⟩⟩⟩,
      .apply ⟨⟨7⟩, 3, .add ⟨⟨4⟩, ⟨4⟩, 0, .buy, most, ⟨most⟩⟩⟩]).isNone = true := by decide +kernel

end Book

end LimitBook
