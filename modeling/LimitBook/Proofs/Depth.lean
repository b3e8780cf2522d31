import LimitBook.Proofs.Book.Statistics

/-!
Views of a book cut to the best prices. The best levels of a side are a side by themselves, and the lines that show
them give the exact size at every price that the cut leaves in.
-/

namespace LimitBook

namespace BookSide

variable {side : Side} {level : Level} {levels : BookSide} {price best : Price} {n : Nat}

section Cut

/-- Some levels of a sound side in their order are a sound side. -/
theorem Sound.sublist {part : BookSide} (sound : levels.Sound side) (some_of : part.Sublist levels) : part.Sound side :=
  ⟨fun level member => sound.level level (some_of.subset member), sound.ordered.sublist some_of⟩

/-- The queue of a side is that of its best levels and then that of the others. -/
theorem orders_take_drop (levels : BookSide) (n : Nat) :
    orders levels = orders (levels.take n) ++ orders (levels.drop n) := by
  -- The levels are cut in two, and so are their orders.
  unfold orders
  rw [← List.flatMap_append, List.take_append_drop]

/-- No two levels share a price, so with every level passed the others are one tick further away. -/
theorem Sound.rank_of_mem_drop (sound : levels.Sound side) {base : Int}
    (beyond : ∀ level ∈ levels, base ≤ side.rank level.price) (member : level ∈ levels.drop n) :
    base + n ≤ side.rank level.price := by
  induction levels generalizing n base with
  | nil => simp at member
  | cons first worse ih =>
    obtain ⟨-, better, rest⟩ := sound_cons.mp sound
    have start := beyond first List.mem_cons_self
    -- Among the first levels nothing is cut off.
    cases n with
    | zero =>
      have here := beyond level (by simpa using member)
      simpa using here
    | succ n =>
      -- Behind the first level everybody is worse than it, by a tick at least.
      have further : ∀ other ∈ worse, base + 1 ≤ side.rank other.price := by
        intro other later
        have behind := Side.better_iff_rank_lt.mp (better other later)
        omega
      have rank := ih rest further (by simpa using member)
      omega

/-- Whoever stands fewer ticks from the best price than levels are kept is kept. -/
theorem Sound.atPrice_take (sound : levels.Sound side) (isBest : levels.bestPrice? = some best)
    (within : side.rank price < side.rank best + n) :
    Queue.atPrice (orders (levels.take n)) price = Queue.atPrice (orders levels) price := by
  -- No level is better than the best one.
  have beyond : ∀ level ∈ levels, side.rank best ≤ side.rank level.price := by
    intro level member
    cases levels with
    | nil => simp at member
    | cons first worse =>
      obtain ⟨-, better, -⟩ := sound_cons.mp sound
      obtain rfl : first.price = best := Option.some.inj isBest
      rcases List.mem_cons.mp member with rfl | later
      · exact Int.le_refl _
      · have behind := Side.better_iff_rank_lt.mp (better level later)
        omega
  -- A level that was cut off is too far away for anybody at it to have this price.
  have nobody : Queue.atPrice (orders (levels.drop n)) price = [] := by
    refine List.filter_eq_nil_iff.mpr fun order member here => ?_
    obtain ⟨level, isLevel, waits⟩ := mem_orders.mp member
    have far := sound.rank_of_mem_drop beyond isLevel
    have priced := (sound.level level (List.mem_of_mem_drop isLevel)).prices order waits
    rw [← priced, of_decide_eq_true here] at far
    omega
  -- The orders of the price are all among the levels that are kept.
  rw [orders_take_drop levels n, Queue.atPrice_append, nobody, List.append_nil]

end Cut

/-- The lines of a sound side show at every price what rests there. -/
theorem Sound.totalQuantity_filter (sound : levels.Sound side) (price : Price) :
    Depth.totalQuantity ((levels.map OrderBook.aggregate).filter (·.price = price)) =
      restingSize (Queue.atPrice (orders levels) price) := by
  unfold Depth.totalQuantity
  induction levels with
  | nil => rfl
  | cons level worse ih =>
    obtain ⟨first, -, rest⟩ := sound_cons.mp sound
    rw [orders_cons, Queue.atPrice_append, restingSize_append, ← ih rest, first.atPrice, List.map_cons,
      List.filter_cons]
    -- The line of the first level counts exactly if its orders do.
    by_cases here : level.price = price
    · simp [OrderBook.aggregate, here, first.total]
    · simp [OrderBook.aggregate, here]

/-- What rests at a price of a sound side is a word. -/
theorem Sound.restingSize_atPrice_lt (sound : levels.Sound side) (price : Price) :
    restingSize (Queue.atPrice (orders levels) price) < UInt64.size := by
  rw [sound.atPrice]
  cases found : levels.level? price with
  | none => decide
  | some level =>
    -- It is the total of a level.
    have isLevel := (sound.level?_eq_some.mp found).1
    rw [Option.map_some, Option.getD_some, ← (sound.level level isLevel).total]
    exact level.total.toNat_lt_size

end BookSide

namespace Depth

/-- The exact size that a view shows at a price on both sides. -/
def shownAt (depth : Depth) (price : Price) : Nat :=
  totalQuantity ((depth.bids ++ depth.asks).filter (·.price = price))

/-- Words whose exact sum is a word add up to it. -/
theorem toNat_quantityAt {depth : Depth} {price : Price} (fits : depth.shownAt price < UInt64.size) :
    (depth.quantityAt price).toNat = depth.shownAt price := by
  unfold shownAt totalQuantity at *
  unfold quantityAt
  -- Every sum on the way is part of the whole one, so none of them wraps around.
  generalize (depth.bids ++ depth.asks).filter (·.price = price) = lines at *
  induction lines with
  | nil => rfl
  | cons line lines ih =>
    rw [List.foldr_cons] at fits ⊢
    have further := ih (by omega)
    simp only [UInt64.size] at fits
    rw [UInt64.toNat_add, further, List.foldr_cons, Nat.mod_eq_of_lt fits]

end Depth

namespace OrderBook

variable {book : OrderBook} {side : Side} {own : Order} {price : Price} {n : Nat}

/-- A view shows at a price what its levels of either side have there, whichever is named first. -/
theorem Sound.shownAt_depth (sound : book.Sound) (side : Side) (n : Nat) (price : Price) :
    (book.depth n).shownAt price =
      restingSize (Queue.atPrice (BookSide.orders ((book.levels side).take n)) price) +
        restingSize (Queue.atPrice (BookSide.orders ((book.levels side.opposite).take n)) price) := by
  have own := fun side => ((sound.levels side).sublist (List.take_sublist n _)).totalQuantity_filter price
  unfold Depth.totalQuantity at own
  unfold Depth.shownAt Depth.totalQuantity
  rw [List.filter_append, foldr_add_append, ← own, ← own]
  -- The view names the buying side first.
  cases side with
  | buy => rfl
  | sell => exact Nat.add_comm _ _

/-- In an uncrossed book nobody faces anybody at a price that somebody crosses. -/
theorem Uncrossed.atPrice_opposite (uncrossed : book.Uncrossed) (rests : own ∈ book.orders side)
    (crosses : side.Crosses own.price price) : Queue.atPrice (book.orders side.opposite) price = [] := by
  -- An order of the other side at this price would be one that the resting order faces across the spread.
  refine List.filter_eq_nil_iff.mpr fun faced facing here => ?_
  have apart := (uncrossed_iff side).mp uncrossed own rests faced facing
  rw [of_decide_eq_true here] at apart
  exact apart crosses

/-- Where nobody is at a price, nobody is there at the best levels. -/
theorem atPrice_take_eq_nil (nobody : Queue.atPrice (book.orders side) price = []) :
    Queue.atPrice (BookSide.orders ((book.levels side).take n)) price = [] := by
  -- The levels of before are made of those that are taken and those that are dropped, in this order.
  unfold OrderBook.orders at nobody
  rw [BookSide.orders_take_drop _ n, Queue.atPrice_append] at nobody
  exact (List.append_eq_nil_iff.mp nobody).1

/-- In an uncrossed book a price is shown on one side at most, and so with a word. -/
theorem Sound.shownAt_lt (sound : book.Sound) (uncrossed : book.Uncrossed) (n : Nat) (price : Price) :
    (book.depth n).shownAt price < UInt64.size := by
  have word := fun side => ((sound.levels side).sublist (List.take_sublist n _)).restingSize_atPrice_lt price
  rw [sound.shownAt_depth .buy n price]
  by_cases bidden : Queue.atPrice (book.orders .buy) price = []
  · rw [atPrice_take_eq_nil bidden, restingSize_nil, Nat.zero_add]
    exact word _
  · -- Whoever bids this price crosses it, so nobody asks for it.
    obtain ⟨bid, member⟩ := List.exists_mem_of_ne_nil _ bidden
    obtain ⟨rests, here⟩ := List.mem_filter.mp member
    obtain rfl := of_decide_eq_true here
    have nobody := uncrossed.atPrice_opposite rests (Side.crosses_iff_rank_le.mpr (Int.le_refl _))
    rw [atPrice_take_eq_nil nobody, restingSize_nil, Nat.add_zero]
    exact word _

end OrderBook

end LimitBook
