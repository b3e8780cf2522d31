import LimitBook.Proofs.Masked
import Mathlib.Data.List.Forall2

/-!
Matching is blind to identity. A run of masked calls does what the run itself does, masked; so two runs that differ only
in the numbers of their orders, in owners and in times answer alike and show the same market all along.
-/

namespace LimitBook.Book

/-- A book and a book of its masked orders, at the same place of the stream and with the same totals. -/
structure Masks (rename : OrderId → OrderId) (injective : Function.Injective rename) (book image : Book) : Prop where
  market : image.key.market = book.key.market
  cursor : image.cursor = book.cursor
  orders : (masking rename injective).Redraws book.orders image.orders
  stats : image.stats = book.stats

/-- The reports of two outcomes and the books they leave are masked, or their refusals are. -/
abbrev OutcomesMasked (rename : OrderId → OrderId) (injective : Function.Injective rename) :
    Except BookError (Report × Book) → Except BookError (Report × Book) → Prop :=
  (masking rename injective).Outcomes fun taken taken' =>
    taken'.1 = taken.1.masked rename ∧ Masks rename injective taken.2 taken'.2

/-- The answer to a call with its outcome masked. -/
def maskAnswer (rename : OrderId → OrderId) (answer : Option (Except BookError Report)) :
    Option (Except BookError Report) :=
  answer.map (maskOutcome rename)

variable {rename : OrderId → OrderId} {injective : Function.Injective rename} {book image : Book} {sequence : Sequence}

/-- A fresh book of a market masks every fresh book of the market. -/
theorem masks_startingAt {key key' : BookKey} (market : key'.market = key.market) (origin : Sequence) :
    Masks rename injective (startingAt key origin) (startingAt key' origin) where
  market := market
  cursor := congrArg (Cursor.mk · origin) market
  -- The empty orders depend on the market only, and the market is the same.
  orders := by
    show (masking rename injective).Redraws (OrderBook.empty key.market) (OrderBook.empty key'.market)
    rw [market]
    exact Redrawing.redraws_empty _ _
  stats := rfl

/-- The masked order arrives at the image as the order does at the book. -/
theorem Masks.arriving (masks : Masks rename injective book image) (new : NewOrder) :
    image.arriving sequence (new.masked rename) = (masking rename injective).order (book.arriving sequence new) := by
  -- The newcomer is masked in what the masking changes, and the market of the book is the same.
  unfold Book.arriving
  rw [masks.market]
  rfl

/-- A masked order is taken in and trades as the order does. -/
theorem Masks.add (masks : Masks rename injective book image) (new : NewOrder) :
    OutcomesMasked rename injective (book.add sequence new) (image.add sequence (new.masked rename)) := by
  -- The masked order is taken or refused by the orders of the image as the order is.
  have inserted := masks.orders.insert (book.arriving sequence new)
  unfold Book.add
  rw [masks.arriving]
  show OutcomesMasked rename injective _ (if new.size = 0 then _ else _)
  by_cases empty : new.size = 0
  · rw [if_pos empty, if_pos empty]
    exact .refused (.invalidSize new.id)
  · rw [if_neg empty, if_neg empty]
    generalize book.orders.insert (book.arriving sequence new) = outcome at inserted ⊢
    generalize image.orders.insert ((masking rename injective).order (book.arriving sequence new)) = outcome'
      at inserted ⊢
    cases inserted with
    | refused error => exact .refused error
    | @taken joined joined' redraws =>
      -- The fills and the rest are masked, and sizes and prices are not.
      obtain ⟨fills, left⟩ := redraws.matchCrossed new.id
      have rest := left.find? new.id
      have top := top_masking left
      refine .taken ⟨?_, masks.market, masks.cursor, left, ?_⟩
      · exact (Report.mk.injEq ..).mpr ⟨rfl, fills, rest, rfl, top⟩
      · show (image.stats.recordAdded new.size).recordFills _ = (book.stats.recordAdded new.size).recordFills _
        rw [masks.stats]
        exact (congrArg _ fills).trans (Stats.recordFills_masked _ _)

/-- An order is taken out of the image as it is taken out of the book. -/
theorem Masks.remove (masks : Masks rename injective book image) (id : OrderId) :
    OutcomesMasked rename injective (book.remove sequence id) (image.remove sequence (rename id)) := by
  -- The masked number is found or not, as the number is.
  have cancelled := masks.orders.cancel id
  unfold Book.remove
  show OutcomesMasked rename injective _ (image.orders.cancel ((masking rename injective).number id) >>= _)
  generalize book.orders.cancel id = outcome at cancelled ⊢
  generalize image.orders.cancel ((masking rename injective).number id) = outcome' at cancelled ⊢
  cases cancelled with
  | refused error => exact .refused error
  | @taken taken taken' same =>
    obtain ⟨removed, left⟩ := same
    refine .taken ⟨?_, masks.market, masks.cursor, left, ?_⟩
    · exact (Report.mk.injEq ..).mpr ⟨rfl, rfl, rfl, congrArg some removed, top_masking left⟩
    · -- As much is left of the masked order.
      have remaining : taken'.1.remaining = taken.1.remaining := (congrArg Order.remaining removed).trans rfl
      exact congrArg₂ Stats.recordRemoved masks.stats remaining

/-- A masked event is taken in as the event is, or refused for the same reason. -/
theorem Masks.apply (masks : Masks rename injective book image) (event : Event) :
    OutcomesMasked rename injective (book.apply event) (image.apply (event.masked rename)) := by
  have acted : OutcomesMasked rename injective (book.act event.sequence event.action)
      (image.act event.sequence (event.action.masked rename)) := by
    cases event.action with
    | add new => exact masks.add new
    | remove id => exact masks.remove id
  -- Market and sequence number are not masked, so both are in place or neither is.
  have checked : image.cursor.check (event.masked rename) = book.cursor.check event := by rw [masks.cursor]; rfl
  have action : image.act (event.masked rename).sequence (event.masked rename).action =
      image.act event.sequence (event.action.masked rename) := rfl
  unfold Book.apply
  rw [checked, action]
  generalize book.act event.sequence event.action = outcome at acted ⊢
  generalize image.act event.sequence (event.action.masked rename) = outcome' at acted ⊢
  unfold Cursor.check
  split
  · exact .refused (.marketMismatch _ _)
  · split
    · exact .refused (.sequence _ _)
    · cases acted with
      | refused error => exact .refused error
      | taken same =>
        obtain ⟨report, next⟩ := same
        exact .taken ⟨report, next.market, congrArg Cursor.advance next.cursor, next.orders,
          congrArg Stats.recordEvent next.stats⟩

/-- Every masked call has the masked answer, and leaves a book that masks the other. -/
theorem Masks.call (masks : Masks rename injective book image) (call : Call) :
    (image.call (call.masked rename)).1 = maskAnswer rename (book.call call).1 ∧
      Masks rename injective (book.call call).2 (image.call (call.masked rename)).2 := by
  -- An event is answered as the masked one is; a resync has no answer and moves both cursors alike.
  cases call with
  | apply event =>
    have outcomes := masks.apply event
    simp only [Call.masked, Book.call]
    generalize book.apply event = outcome at outcomes ⊢
    generalize image.apply (event.masked rename) = outcome' at outcomes ⊢
    cases outcomes with
    | refused error =>
      rw [refusal_masking]
      exact ⟨rfl, masks⟩
    | @taken taken taken' same => exact ⟨congrArg (some ∘ Except.ok) same.1, same.2⟩
  | resync next =>
    exact ⟨rfl, masks.market, congrArg (·.resync next) masks.cursor, masks.orders, masks.stats⟩

/-- Every masked run has the masked answers, and ends at a book that masks the other. -/
theorem Masks.run (masks : Masks rename injective book image) (calls : List Call) :
    (image.run (calls.map (Call.masked rename))).1 = (book.run calls).1.map (maskAnswer rename) ∧
      Masks rename injective (book.run calls).2 (image.run (calls.map (Call.masked rename))).2 := by
  -- Both books vary along the calls.
  induction calls generalizing book image with
  | nil => exact ⟨rfl, masks⟩
  | cons call calls ih =>
    obtain ⟨answer, next⟩ := masks.call call
    obtain ⟨answers, last⟩ := ih next
    simp only [List.map_cons, Book.run]
    exact ⟨congrArg₂ List.cons answer answers, last⟩

/-- What can be seen of the market in a book is the same in another. -/
structure ShowsSame (book other : Book) : Prop where
  nextSequence : other.nextSequence = book.nextSequence
  top : other.top = book.top
  spread : other.orders.spread? = book.orders.spread?
  depth : ∀ levels, other.depth levels = book.depth levels
  ladder : ∀ ticks, other.ladder ticks = book.ladder ticks
  stats : other.stats = book.stats

/-- A book of masked orders shows the same market. -/
theorem Masks.showsSame (masks : Masks rename injective book image) : book.ShowsSame image where
  -- Every view is drawn from the orders and the counters, of which masking changes nothing that is shown.
  nextSequence := congrArg Cursor.next masks.cursor
  top := top_masking masks.orders
  spread := spread?_masking masks.orders
  depth := depth_masking masks.orders
  ladder ticks := congrArg (Ladder.ofDepth · ticks) (depth_masking masks.orders ticks)
  stats := masks.stats

/-- Books that show the same market as a third show the same. -/
theorem ShowsSame.trans_symm {other : Book} (shows : book.ShowsSame image) (shows' : other.ShowsSame image) :
    book.ShowsSame other where
  -- Both runs show what the masked run shows.
  nextSequence := shows'.nextSequence.symm.trans shows.nextSequence
  top := shows'.top.symm.trans shows.top
  spread := shows'.spread.symm.trans shows.spread
  depth levels := (shows'.depth levels).symm.trans (shows.depth levels)
  ladder ticks := (shows'.ladder ticks).symm.trans (shows.ladder ticks)
  stats := shows'.stats.symm.trans shows.stats

/-- Two calls agree but for the numbers of their orders, which are renamed, and the owners and times of new orders. -/
inductive Call.Alike (rename : OrderId → OrderId) : Call → Call → Prop
  | resync (next : Sequence) : Alike rename (.resync next) (.resync next)
  | add (market : MarketId) (sequence : Sequence) {new other : NewOrder} (id : other.id = rename new.id)
      (side : other.side = new.side) (size : other.size = new.size) (price : other.price = new.price) :
      Alike rename (.apply ⟨market, sequence, .add new⟩) (.apply ⟨market, sequence, .add other⟩)
  | remove (market : MarketId) (sequence : Sequence) (id : OrderId) :
      Alike rename (.apply ⟨market, sequence, .remove id⟩) (.apply ⟨market, sequence, .remove (rename id)⟩)

/-- Calls that are alike are masked alike, the second without further renaming. -/
theorem Call.Alike.masked_eq {call other : Call} (alike : Call.Alike rename call other) :
    other.masked id = call.masked rename := by
  -- Alike calls differ only in owners, times and numbers, and these are what the masking takes away.
  cases alike with
  | resync next => rfl
  | @add market sequence new new' sameId side size price =>
    obtain ⟨id', owner, timestamp, side', size', price'⟩ := new'
    obtain rfl : id' = rename new.id := sameId
    obtain rfl : side' = new.side := side
    obtain rfl : size' = new.size := size
    obtain rfl : price' = new.price := price
    rfl
  | remove market sequence id => rfl

/-- Runs that are alike call by call are masked alike. -/
theorem map_masked_eq {calls others : List Call} (alike : List.Forall₂ (Call.Alike rename) calls others) :
    others.map (Call.masked id) = calls.map (Call.masked rename) := by
  -- Calls are compared one by one, in their places.
  induction alike with
  | nil => rfl
  | cons first _ ih => rw [List.map_cons, List.map_cons, first.masked_eq, ih]

/--
Matching does not look at who is who.

Two runs on fresh books of the same market and origin agree call by call but for the numbers of the orders, which the
second has renamed without confusing any two, and for owners and times. Then all answers agree but for these, and after
every call both books show the same best prices, views, ladders and totals.
-/
theorem blind_run (injective : Function.Injective rename) {key key' : BookKey} (market : key'.market = key.market)
    (origin : Sequence) {calls others : List Call} (alike : List.Forall₂ (Call.Alike rename) calls others) :
    ((startingAt key' origin).run others).1.map (maskAnswer id) =
        ((startingAt key origin).run calls).1.map (maskAnswer rename) ∧
      ∀ n, ((startingAt key origin).run (calls.take n)).2.ShowsSame
        ((startingAt key' origin).run (others.take n)).2 := by
  -- Both runs are compared with the masked run, which is the same for both.
  have first : Masks rename injective (startingAt key origin) (startingAt key origin) := masks_startingAt rfl origin
  have second : Masks id Function.injective_id (startingAt key' origin) (startingAt key origin) :=
    masks_startingAt market.symm origin
  refine ⟨?_, fun n => ?_⟩
  · rw [← (first.run calls).1, ← (second.run others).1, map_masked_eq alike]
  · have shown := (first.run (calls.take n)).2.showsSame
    have shown' := (second.run (others.take n)).2.showsSame
    rw [map_masked_eq (List.forall₂_take n alike)] at shown'
    exact shown.trans_symm shown'

/-- The opening with the two numbers exchanged, one owner for both orders and other times, and the seller leaves. -/
theorem blind_run_of_exchanged :
    let exchange : OrderId → OrderId := fun id => ⟨id.number ^^^ 3⟩
    let calls : List Call := opening ++ [.apply ⟨⟨7⟩, 2, .remove ⟨1⟩⟩]
    let others : List Call :=
      [.apply ⟨⟨7⟩, 0, .add ⟨⟨2⟩, ⟨8⟩, 5, .sell, 5, ⟨100⟩⟩⟩, .apply ⟨⟨7⟩, 1, .add ⟨⟨1⟩, ⟨8⟩, -5, .buy, 2, ⟨101⟩⟩⟩,
        .apply ⟨⟨7⟩, 2, .remove ⟨2⟩⟩]
    ((startingAt ⟨⟨3⟩, ⟨7⟩⟩ 0).run others).1.map (maskAnswer id) =
        ((startingAt ⟨⟨1⟩, ⟨7⟩⟩ 0).run calls).1.map (maskAnswer exchange) ∧
      ∀ n, ((startingAt ⟨⟨1⟩, ⟨7⟩⟩ 0).run (calls.take n)).2.ShowsSame
        ((startingAt ⟨⟨3⟩, ⟨7⟩⟩ 0).run (others.take n)).2 := by
  intro exchange calls others
  -- The renaming exchanges two numbers, and whatever is exchanged twice is as before.
  have injective : Function.Injective exchange := by
    rintro ⟨a⟩ ⟨b⟩ same
    simpa [exchange] using same
  have alike : List.Forall₂ (Call.Alike exchange) calls others :=
    .cons (.add ⟨7⟩ 0 rfl rfl rfl rfl) (.cons (.add ⟨7⟩ 1 rfl rfl rfl rfl) (.cons (.remove ⟨7⟩ 2 ⟨1⟩) .nil))
  have market : (⟨⟨3⟩, ⟨7⟩⟩ : BookKey).market = (⟨⟨1⟩, ⟨7⟩⟩ : BookKey).market := rfl
  exact blind_run injective market 0 alike

end LimitBook.Book
