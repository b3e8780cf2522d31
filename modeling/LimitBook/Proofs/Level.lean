import LimitBook.Proofs.Queue

/-! A level whose cached total is exactly what is left of its orders stays so through every operation. -/

namespace LimitBook.Level

/-- Everybody at a level belongs there, and the total is exactly what is left of them. -/
structure Tidy (side : Side) (level : Level) : Prop where
  sides : ∀ order ∈ level.orders, order.side = side
  prices : ∀ order ∈ level.orders, order.price = level.price
  total : level.total.toNat = restingSize level.orders

/-- A level of a book is tidy, and somebody waits at it. -/
structure Sound (side : Side) (level : Level) : Prop extends Tidy side level where
  occupied : level.orders ≠ []

variable {side : Side} {level : Level}

/-- A new level is tidy. -/
theorem Tidy.empty (side : Side) (price : Price) : (Level.empty price).Tidy side :=
  ⟨by simp [Level.empty], by simp [Level.empty], rfl⟩

/-- There is room exactly if the exact sum is still a word. -/
theorem canAccept_iff {quantity : Quantity} :
    level.canAccept quantity = true ↔ level.total.toNat + quantity.toNat < UInt64.size := by
  simp [canAccept]

/-- Everybody fits a new level. -/
theorem canAccept_empty (price : Price) (quantity : Quantity) :
    (Level.empty price).canAccept quantity = true := by
  -- The total is zero, and every quantity is a word.
  rw [canAccept_iff]
  have := quantity.toNat_lt_size
  simpa [Level.empty] using this

/-- Everybody at a level is at its price and nobody at any other. -/
theorem Tidy.atPrice (tidy : level.Tidy side) (price : Price) :
    Queue.atPrice level.orders price = if level.price = price then level.orders else [] := by
  -- All orders of a level stand at its price, so that the filter keeps all of them or none.
  unfold Queue.atPrice
  split
  · next here =>
    refine List.filter_eq_self.mpr fun order waits => ?_
    rw [tidy.prices order waits]
    exact decide_eq_true here
  · next elsewhere =>
    refine List.filter_eq_nil_iff.mpr fun order waits => ?_
    rw [tidy.prices order waits]
    simpa using elsewhere

/-- An order that belongs to the level and fits it leaves it occupied and tidy. -/
theorem Tidy.push {order : Order} (tidy : level.Tidy side) (own : order.side = side)
    (here : order.price = level.price) (room : level.canAccept order.remaining = true) :
    (level.push order).Sound side where
  sides := by
    -- Everybody at the level was there before or is the newcomer.
    intro other member
    rcases List.mem_append.mp member with old | new
    · exact tidy.sides other old
    · rw [List.mem_singleton.mp new, own]
  prices := by
    intro other member
    rcases List.mem_append.mp member with old | new
    · exact tidy.prices other old
    · rw [List.mem_singleton.mp new, here, Level.push]
  total := by
    -- Without an overflow the sum of the words is the sum of the numbers.
    have fits := canAccept_iff.mp room
    simp only [UInt64.size] at fits
    simp only [Level.push, UInt64.toNat_add, restingSize_append, restingSize_cons, restingSize_nil, tidy.total]
      at fits ⊢
    omega
  occupied := by simp [Level.push]

/-- A trade of the front order leaves a level with whatever is left of it in front. -/
theorem fillFront?_eq {front : Order} {waiting : List Order} {quantity : Quantity}
    (queue : level.orders = front :: waiting) :
    level.fillFront? quantity = some (front.remaining - quantity,
      ⟨level.price, (front.reduced? quantity).toList ++ waiting, level.total - quantity⟩) := by
  unfold fillFront? Order.reduced?
  rw [queue]
  -- The queue shortens just when nothing is left of its first order.
  by_cases usedUp : front.remaining - quantity = 0 <;> simp [usedUp]

/-- A trade within the size of the front order keeps the level tidy. -/
theorem Tidy.fillFront {front : Order} {waiting : List Order} {quantity : Quantity} (tidy : level.Tidy side)
    (queue : level.orders = front :: waiting) (within : quantity ≤ front.remaining) :
    Tidy side ⟨level.price, (front.reduced? quantity).toList ++ waiting, level.total - quantity⟩ := by
  -- The size taken off is no more than the front order has, and so no more than the level has.
  have size := tidy.total
  rw [queue, restingSize_cons] at size
  have enough : quantity ≤ level.total := by
    rw [UInt64.le_iff_toNat_le] at within ⊢
    omega
  have left := UInt64.toNat_sub_of_le _ _ within
  have total := UInt64.toNat_sub_of_le _ _ enough
  rw [UInt64.le_iff_toNat_le] at within
  obtain ⟨sides, prices, -⟩ := tidy
  rw [queue] at sides prices
  unfold Order.reduced?
  split
  · next usedUp =>
    -- Nothing is left of the front order, so the waiting ones have all that remains.
    rw [usedUp] at left
    refine ⟨fun order member => sides order (List.mem_cons_of_mem _ member),
      fun order member => prices order (List.mem_cons_of_mem _ member), ?_⟩
    simp only [Option.toList_none, List.nil_append, UInt64.toNat_zero] at left ⊢
    omega
  · -- Something is left, so the front order keeps its place, its side and its price.
    refine ⟨fun order member => ?_, fun order member => ?_, ?_⟩
    · rcases List.mem_cons.mp member with rfl | later
      · exact sides front List.mem_cons_self
      · exact sides order (List.mem_cons_of_mem _ later)
    · rcases List.mem_cons.mp member with rfl | later
      · exact prices front List.mem_cons_self
      · exact prices order (List.mem_cons_of_mem _ later)
    · simp only [Option.toList_some, List.cons_append, List.nil_append, restingSize_cons]
      omega

/-- An order found at a level leaves it tidy. -/
theorem Tidy.remove {order : Order} {id : OrderId} (tidy : level.Tidy side)
    (found : level.find? id = some order) :
    Tidy side ⟨level.price, level.orders.eraseP (·.id = id), level.total - order.remaining⟩ := by
  -- The others stay as they are, and the total loses just what the order had left.
  refine ⟨fun other member => tidy.sides other (List.mem_of_mem_eraseP member),
    fun other member => tidy.prices other (List.mem_of_mem_eraseP member), ?_⟩
  have size := restingSize_eraseP found
  have enough : order.remaining ≤ level.total := by
    rw [UInt64.le_iff_toNat_le, tidy.total]
    omega
  show (level.total - order.remaining).toNat = restingSize (level.orders.eraseP (·.id = id))
  rw [UInt64.toNat_sub_of_le _ _ enough, tidy.total]
  omega

/-- Without one of its orders a level closes up around that order's place, and the total is less by what it had. -/
theorem Tidy.without {order : Order} (tidy : level.Tidy side) (distinct : (level.orders.map Order.id).Nodup)
    (waits : order ∈ level.orders) :
    ∃ ahead behind, level.orders = ahead ++ order :: behind ∧ order.remaining ≤ level.total ∧
      Tidy side ⟨level.price, ahead ++ behind, level.total - order.remaining⟩ := by
  have shorter := tidy.remove (find?_id_eq_some distinct waits)
  obtain ⟨ahead, behind, queue⟩ := List.append_of_mem waits
  rw [eraseP_id_eq_filter distinct] at shorter
  rw [queue] at shorter distinct
  rw [filter_id_ne_middle distinct] at shorter
  -- What the order has left is part of the total.
  have enough : order.remaining ≤ level.total := by
    rw [UInt64.le_iff_toNat_le, tidy.total, queue, restingSize_append, restingSize_cons]
    omega
  exact ⟨ahead, behind, queue, enough, shorter⟩

/-- Two sound levels with the same queue are the same level. -/
theorem Sound.eq_of_orders_eq {other : Level} (sound : level.Sound side) (soundOther : other.Sound side)
    (same : level.orders = other.orders) : level = other := by
  -- Whoever waits at both has the price of both, and the total is what they have left.
  obtain ⟨order, waits⟩ := List.exists_mem_of_ne_nil _ sound.occupied
  have price : level.price = other.price := by
    rw [← sound.prices order waits, ← soundOther.prices order (same ▸ waits)]
  have total : level.total = other.total := by
    rw [← UInt64.toNat_inj, sound.total, soundOther.total, same]
  cases level; cases other
  simp_all

end LimitBook.Level
