import LimitBook.Proofs.Level

/-!
A side of a book whose levels are sound and strictly ordered is its queue, cut at the prices: every operation on
the levels is an operation on the queue, and the queue determines the levels.
-/

namespace LimitBook.BookSide

/-- Every level is sound, and each is better than those after it. -/
structure Sound (side : Side) (levels : BookSide) : Prop where
  level : ∀ level ∈ levels, level.Sound side
  ordered : levels.Pairwise fun better worse => side.Better better.price worse.price

variable {side : Side} {level : Level} {levels worse : BookSide}

/-- A side without levels is sound. -/
theorem sound_nil (side : Side) : Sound side [] := ⟨by simp, .nil⟩

/-- A sound side is a sound level before a sound side of worse levels. -/
theorem sound_cons :
    Sound side (level :: worse) ↔
      level.Sound side ∧ (∀ other ∈ worse, side.Better level.price other.price) ∧ Sound side worse := by
  constructor
  · intro ⟨sound, ordered⟩
    -- The order of the levels says that the first is better than all others.
    obtain ⟨best, ordered⟩ := List.pairwise_cons.mp ordered
    exact ⟨sound level List.mem_cons_self, best,
      fun other member => sound other (List.mem_cons_of_mem _ member), ordered⟩
  · intro ⟨first, best, sound⟩
    refine ⟨fun other member => ?_, List.pairwise_cons.mpr ⟨best, sound.ordered⟩⟩
    rcases List.mem_cons.mp member with rfl | later
    · exact first
    · exact sound.level other later

/-- The queue of a level stands before the queues of the worse ones. -/
@[simp] theorem orders_cons (level : Level) (worse : BookSide) :
    orders (level :: worse) = level.orders ++ orders worse := rfl

/-- A side without levels has no queue. -/
@[simp] theorem orders_nil : orders ([] : BookSide) = [] := rfl

/-- Everybody in a queue waits at one of the levels. -/
theorem mem_orders {order : Order} : order ∈ orders levels ↔ ∃ level ∈ levels, order ∈ level.orders :=
  List.mem_flatMap

/-- Everybody in the queue of a sound side is an order of that side. -/
theorem Sound.sides (sound : Sound side levels) : ∀ order ∈ orders levels, order.side = side := by
  intro order member
  -- An order waits at a level, and the level says whose side it is.
  obtain ⟨level, isLevel, waits⟩ := mem_orders.mp member
  exact (sound.level level isLevel).sides order waits

/-- Behind a level of a sound side everybody has a worse price. -/
theorem worse_of_mem {order : Order} (best : ∀ other ∈ worse, side.Better level.price other.price)
    (sound : Sound side worse) (member : order ∈ orders worse) : side.Better level.price order.price := by
  -- Every order of the worse levels stands at the price of one of them.
  obtain ⟨other, isLevel, waits⟩ := mem_orders.mp member
  rw [(sound.level other isLevel).prices order waits]
  exact best other isLevel

/-- The queue of a sound side is in priority. -/
theorem Sound.inPriority (sound : Sound side levels) : Queue.InPriority side (orders levels) := by
  induction levels with
  | nil => exact .nil
  | cons level worse ih =>
    obtain ⟨first, best, sound⟩ := sound_cons.mp sound
    -- Two orders wait at the first level, or both behind it, or one of them here and one there.
    refine List.pairwise_append.mpr ⟨?_, ih sound, fun ahead waits later member => ?_⟩
    · -- Within a level all prices are equal.
      refine List.pairwise_of_forall_mem_list fun ahead waits later waits' => ?_
      rw [first.prices ahead waits, first.prices later waits']
      exact Side.better_irrefl side level.price
    · -- Behind the first level everybody is worse.
      rw [first.prices ahead waits]
      exact Side.better_asymm (worse_of_mem best sound member)

/-- The orders at a price are those of its level, if there is one. -/
theorem Sound.atPrice (sound : Sound side levels) (price : Price) :
    Queue.atPrice (orders levels) price = ((levels.level? price).map Level.orders).getD [] := by
  induction levels with
  | nil => rfl
  | cons level worse ih =>
    obtain ⟨first, best, sound⟩ := sound_cons.mp sound
    have ih := ih sound
    unfold BookSide.level? at ih ⊢
    rw [orders_cons, Queue.atPrice_append, first.atPrice, ih, List.find?_cons]
    by_cases here : level.price = price
    · -- Everybody at the level has this price, and nobody behind it does.
      have nobody : worse.find? (·.price = price) = none := by
        rw [List.find?_eq_none]
        intro other member same
        have better := best other member
        rw [here, of_decide_eq_true same] at better
        exact Side.better_irrefl side price better
      rw [nobody]
      simp [here]
    · -- The first level is at another price, so nobody at it counts and the search passes it.
      simp [here]

/-- A level stands under its own price, and is found there. -/
theorem Sound.level?_eq_some (sound : Sound side levels) {price : Price} :
    levels.level? price = some level ↔ level ∈ levels ∧ level.price = price := by
  constructor
  · intro found
    -- The search stops at a level of the price, and only there.
    have named := List.find?_some found
    exact ⟨List.mem_of_find?_eq_some found, by simpa using named⟩
  · intro found
    obtain ⟨member, rfl⟩ := found
    induction levels with
    | nil => simp at member
    | cons first worse ih =>
      obtain ⟨-, best, sound⟩ := sound_cons.mp sound
      unfold BookSide.level? at ih ⊢
      rw [List.find?_cons]
      rcases List.mem_cons.mp member with rfl | later
      · simp
      · -- The first level is strictly better, so the search goes on.
        have differs : first.price ≠ level.price := by
          intro same
          have better := best level later
          rw [same] at better
          exact Side.better_irrefl side _ better
        simp [differs, ih sound later]

/-- Sound sides with the same orders at a price have the same level there, or none. -/
theorem Sound.level?_eq_of_atPrice_eq {other : BookSide} {price : Price} (sound : Sound side levels)
    (soundOther : Sound side other) (same : Queue.atPrice (orders levels) price = Queue.atPrice (orders other) price) :
    levels.level? price = other.level? price := by
  rw [sound.atPrice, soundOther.atPrice] at same
  cases found : levels.level? price with
  | none =>
    cases found' : other.level? price with
    | none => rfl
    | some level' =>
      -- Somebody waits at the level of one side and nobody at that price on the other.
      rw [found, found'] at same
      exact absurd same.symm (soundOther.level level' (soundOther.level?_eq_some.mp found').1).occupied
  -- Both sides have a level there, and a level is told by its orders.
  | some level =>
    have soundLevel := sound.level level (sound.level?_eq_some.mp found).1
    cases found' : other.level? price with
    | none =>
      rw [found, found'] at same
      exact absurd same soundLevel.occupied
    | some level' =>
      rw [found, found'] at same
      rw [soundLevel.eq_of_orders_eq (soundOther.level level' (soundOther.level?_eq_some.mp found').1) same]

/-- What rests at a price tells the level there, and that there is none if nothing rests. -/
theorem Sound.level?_eq_of_tidy (sound : Sound side levels) (tidy : level.Tidy side)
    (same : Queue.atPrice (orders levels) level.price = level.orders) :
    levels.level? level.price = if level.orders = [] then none else some level := by
  rw [sound.atPrice] at same
  cases found : levels.level? level.price with
  | none =>
    rw [found] at same
    exact (if_pos same.symm).symm
  | some other =>
    -- There is one sound level with that queue.
    have soundOther := sound.level other (sound.level?_eq_some.mp found).1
    rw [found, Option.map_some, Option.getD_some] at same
    have occupied : level.orders ≠ [] := same ▸ soundOther.occupied
    rw [if_neg occupied, soundOther.eq_of_orders_eq ⟨tidy, occupied⟩ same]

/-- There is room at a price exactly if what rests there and the newcomer make up a word. -/
theorem Sound.canAccept_iff (sound : Sound side levels) {price : Price} {quantity : Quantity} :
    levels.canAccept price quantity = true ↔
      restingSize (Queue.atPrice (orders levels) price) + quantity.toNat < UInt64.size := by
  rw [sound.atPrice]
  unfold BookSide.canAccept
  cases found : levels.level? price with
  | none =>
    -- Nothing rests at the price, and every quantity fits a new level.
    have := quantity.toNat_lt_size
    simpa using this
  | some level =>
    have isLevel := (sound.level?_eq_some.mp found).1
    simp only [Option.map_some, Option.getD_some, Level.canAccept_iff, (sound.level level isLevel).total]

/-- Room on a side is room at its first level, or further on if the price is another. -/
theorem canAccept_cons {price : Price} {quantity : Quantity} :
    BookSide.canAccept (level :: worse) price quantity =
      if level.price = price then level.canAccept quantity else BookSide.canAccept worse price quantity := by
  -- The search for the price either ends at the first level or goes on as if that were not there.
  unfold BookSide.canAccept BookSide.level?
  rw [List.find?_cons]
  by_cases here : level.price = price <;> simp [here]

/-- Whatever leaves a level, the side stays sound without the level if nobody is left at it. -/
theorem sound_keep (tidy : level.Tidy side) (best : ∀ other ∈ worse, side.Better level.price other.price)
    (sound : Sound side worse) : Sound side (keep level worse) := by
  unfold keep
  split
  · exact sound
  · next closed =>
    -- The level is kept because somebody still waits at it.
    have occupied : level.orders ≠ [] := by simpa [Level.isEmpty] using closed
    exact sound_cons.mpr ⟨⟨tidy, occupied⟩, best, sound⟩

section Push

variable {order : Order}

/-- Joining a side opens or extends one level, in its place. -/
theorem mem_push {other : Level} (member : other ∈ push side order levels) :
    other.price = order.price ∨ other ∈ levels := by
  induction levels with
  | nil => exact .inl (by rw [List.mem_singleton.mp member]; rfl)
  | cons level worse ih =>
    unfold push at member
    -- The order joins the first level, opens one before it, or goes on to the levels behind it.
    split at member
    · next here =>
      rcases List.mem_cons.mp member with rfl | later
      · exact .inl here
      · exact .inr (List.mem_cons_of_mem _ later)
    · split at member
      · rcases List.mem_cons.mp member with rfl | old
        · exact .inl rfl
        · exact .inr old
      · rcases List.mem_cons.mp member with rfl | later
        · exact .inr List.mem_cons_self
        · exact (ih later).imp_right (List.mem_cons_of_mem _)

/-- An order of the side for which there is room leaves the side sound. -/
theorem Sound.push (sound : Sound side levels) (own : order.side = side)
    (room : levels.canAccept order.price order.remaining = true) : Sound side (push side order levels) := by
  induction levels with
  | nil =>
    -- The first order of a side opens its first level.
    have opened := (Level.Tidy.empty side order.price).push own rfl (Level.canAccept_empty _ _)
    exact sound_cons.mpr ⟨opened, by simp, sound_nil side⟩
  | cons level worse ih =>
    obtain ⟨first, best, rest⟩ := sound_cons.mp sound
    rw [canAccept_cons] at room
    unfold BookSide.push
    split
    · next here =>
      rw [if_pos here] at room
      exact sound_cons.mpr ⟨first.toTidy.push own here.symm room, best, rest⟩
    · next elsewhere =>
      rw [if_neg elsewhere] at room
      split
      · next better =>
        -- The new level is better than the first one, and so than all others.
        have opened := (Level.Tidy.empty side order.price).push own rfl (Level.canAccept_empty _ _)
        refine sound_cons.mpr ⟨opened, fun other member => ?_, sound⟩
        rcases List.mem_cons.mp member with rfl | later
        · exact better
        · exact Side.better_trans better (best other later)
      · next notBetter =>
        -- The order goes on, and wherever it ends it is no better than the first level.
        refine sound_cons.mpr ⟨first, fun other member => ?_, ih rest room⟩
        rcases mem_push member with new | old
        · rw [new]
          by_cases behind : side.Better level.price order.price
          · exact behind
          · exact absurd (Side.eq_of_not_better behind notBetter) elsewhere
        · exact best other old

/-- Joining a side is joining its queue. -/
theorem Sound.orders_push (sound : Sound side levels) :
    orders (BookSide.push side order levels) = Queue.join side order (orders levels) := by
  induction levels with
  | nil => rfl
  | cons level worse ih =>
    obtain ⟨first, best, rest⟩ := sound_cons.mp sound
    unfold BookSide.push
    split
    · next here =>
      -- The order passes everybody at its price and stops before the first worse one.
      have passed : ∀ other ∈ level.orders, ¬side.Better order.price other.price := by
        intro other waits
        rw [first.prices other waits, here]
        exact Side.better_irrefl side order.price
      have stops : ∀ other ∈ orders worse, side.Better order.price other.price := by
        intro other member
        rw [← here]
        exact worse_of_mem best rest member
      rw [orders_cons, orders_cons, Queue.join_append passed, Queue.join_eq_cons stops]
      simp [Level.push]
    · split
      · next better =>
        -- The order opens a level before all others, so nobody in the queue is as good as it.
        have stops : ∀ other ∈ orders (level :: worse), side.Better order.price other.price := by
          intro other member
          rcases List.mem_append.mp member with waits | later
          · rw [first.prices other waits]
            exact better
          · exact Side.better_trans better (worse_of_mem best rest later)
        rw [Queue.join_eq_cons stops]
        simp [Level.push, Level.empty]
      · next notBetter =>
        -- The first level is better, so the order passes everybody at it.
        have passed : ∀ other ∈ level.orders, ¬side.Better order.price other.price := by
          intro other waits
          rw [first.prices other waits]
          exact notBetter
        rw [orders_cons, orders_cons, Queue.join_append passed, ih rest]

end Push

/-- A trade within the size of the front order leaves the side sound, with the rest of that order in front. -/
theorem Sound.fillBest? (sound : Sound side levels) {front : Order} {waiting : List Order}
    {quantity : Quantity} (queue : orders levels = front :: waiting) (within : quantity ≤ front.remaining) :
    ∃ next, BookSide.fillBest? levels quantity = some (front.remaining - quantity, next) ∧
      Sound side next ∧ orders next = (front.reduced? quantity).toList ++ waiting := by
  -- The front order of the side is the front order of its first level, where somebody waits.
  cases levels with
  | nil => simp at queue
  | cons level worse =>
    obtain ⟨first, best, rest⟩ := sound_cons.mp sound
    cases own : level.orders with
    | nil => exact absurd own first.occupied
    | cons head behind =>
      rw [orders_cons, own, List.cons_append] at queue
      obtain ⟨rfl, rfl⟩ := List.cons.inj queue
      refine ⟨_, ?_, sound_keep (first.toTidy.fillFront own within) best rest, ?_⟩
      · -- What is filled is the front order of the first level.
        simp [BookSide.fillBest?, Level.fillFront?_eq own]
      · rw [orders_keep, List.append_assoc]

/-- An order that waits on a side is taken out of the queue, and nobody else is. -/
theorem Sound.remove? (sound : Sound side levels) (distinct : ((orders levels).map Order.id).Nodup)
    {order : Order} (member : order ∈ orders levels) :
    ∃ next, BookSide.remove? order.price order.id levels = some (order, next) ∧
      Sound side next ∧ orders next = (orders levels).filter (·.id ≠ order.id) := by
  induction levels with
  | nil => simp at member
  | cons level worse ih =>
    obtain ⟨first, best, rest⟩ := sound_cons.mp sound
    rw [orders_cons, List.map_append] at distinct
    -- The numbers come once at the first level, once behind it, and none at both.
    obtain ⟨distinctHere, distinctBehind, apart⟩ := List.nodup_append.mp distinct
    rw [orders_cons, List.filter_append]
    rcases List.mem_append.mp member with waits | later
    · -- The order waits at the first level, and nobody behind that level has its number.
      have found : level.find? order.id = some order := find?_id_eq_some distinctHere waits
      have behind : (orders worse).filter (·.id ≠ order.id) = orders worse :=
        filter_id_eq_self fun other member =>
          (apart order.id (List.mem_map_of_mem waits) other.id (List.mem_map_of_mem member)).symm
      refine ⟨_, ?_, sound_keep (first.toTidy.remove found) best rest, ?_⟩
      · simp [BookSide.remove?, first.prices order waits, Level.remove?, found]
      · rw [orders_keep, behind, eraseP_id_eq_filter distinctHere]
    · -- The order waits further on, so the first level stays as it is.
      have elsewhere : level.price ≠ order.price := by
        intro same
        have better := worse_of_mem best rest later
        rw [same] at better
        exact Side.better_irrefl side _ better
      have ahead : level.orders.filter (·.id ≠ order.id) = level.orders :=
        filter_id_eq_self fun other waits =>
          apart other.id (List.mem_map_of_mem waits) order.id (List.mem_map_of_mem later)
      obtain ⟨next, removed, soundNext, queue⟩ := ih rest distinctBehind later
      refine ⟨level :: next, ?_, sound_cons.mpr ⟨first, fun other member => ?_, soundNext⟩, ?_⟩
      · simp [BookSide.remove?, elsewhere, removed]
      · -- A level that is left held its orders before, so it stood behind the first one then.
        obtain ⟨kept, waits⟩ := List.exists_mem_of_ne_nil _ (soundNext.level other member).occupied
        have stays : kept ∈ orders next := mem_orders.mpr ⟨other, member, waits⟩
        rw [queue] at stays
        rw [← (soundNext.level other member).prices kept waits]
        exact worse_of_mem best rest (List.mem_filter.mp stays).1
      · rw [ahead, orders_cons, queue]

/-- The best price of a side is that of the order served next. -/
theorem Sound.bestPrice? (sound : Sound side levels) :
    BookSide.bestPrice? levels = (orders levels).head?.map Order.price := by
  cases levels with
  | nil => rfl
  | cons level worse =>
    -- Somebody waits at the first level, and has its price.
    obtain ⟨first, -, -⟩ := sound_cons.mp sound
    cases own : level.orders with
    | nil => exact absurd own first.occupied
    | cons head behind =>
      have here := first.prices head (by simp [own])
      simp [BookSide.bestPrice?, own, here]

/-- The order served next on a side is the first of its queue. -/
theorem Sound.front? (sound : Sound side levels) : BookSide.front? levels = (orders levels).head? := by
  cases levels with
  | nil => rfl
  | cons level worse =>
    -- A level at which nobody waits is closed, so the first level has a front order.
    obtain ⟨first, -, -⟩ := sound_cons.mp sound
    cases own : level.orders with
    | nil => exact absurd own first.occupied
    | cons head behind => simp [BookSide.front?, Level.front?, own]

/-- The size at the best price is exactly what rests there. -/
theorem Sound.bestSize (sound : Sound side levels) {best : Order} (front : (orders levels).head? = some best) :
    (BookSide.bestSize levels).toNat = restingSize (Queue.atPrice (orders levels) best.price) := by
  have price := sound.bestPrice?
  rw [front] at price
  cases levels with
  | nil => simp at front
  | cons level worse =>
    -- The level of the best price is the first one.
    have here : level.price = best.price := by simpa [BookSide.bestPrice?] using price
    have found : BookSide.level? (level :: worse) best.price = some level :=
      sound.level?_eq_some.mpr ⟨List.mem_cons_self, here⟩
    rw [sound.atPrice, found]
    exact (sound.level level List.mem_cons_self).total

/-- Two sound sides with the same queue are the same side. -/
theorem Sound.eq_of_orders_eq {other : BookSide} (sound : Sound side levels) (soundOther : Sound side other)
    (same : orders levels = orders other) : levels = other := by
  induction levels generalizing other with
  | nil =>
    cases other with
    | nil => rfl
    | cons level worse =>
      -- A level of the other side would hold an order that this side lacks.
      have occupied := (soundOther.level level List.mem_cons_self).occupied
      simp [occupied] at same
  | cons level worse ih =>
    obtain ⟨first, best, rest⟩ := sound_cons.mp sound
    cases other with
    | nil => simp [first.occupied] at same
    | cons level' worse' =>
      obtain ⟨first', best', rest'⟩ := sound_cons.mp soundOther
      -- The first orders agree, so the first levels stand at one price.
      have price : level.price = level'.price := by
        have fronts := congrArg (fun queue => queue.head?.map Order.price) same
        simp only [← sound.bestPrice?, ← soundOther.bestPrice?] at fronts
        simpa [BookSide.bestPrice?] using fronts
      -- What rests at that price is the queue of the first level on either side.
      have queues : level.orders = level'.orders := by
        have cut := congrArg (Queue.atPrice · level.price) same
        have found := sound.level?_eq_some.mpr ⟨List.mem_cons_self, rfl⟩
        have found' := soundOther.level?_eq_some.mpr ⟨List.mem_cons_self, price.symm⟩
        simpa only [sound.atPrice, soundOther.atPrice, found, found', Option.map_some, Option.getD_some] using cut
      rw [orders_cons, orders_cons, queues] at same
      rw [first.eq_of_orders_eq first' queues, ih rest rest' (List.append_cancel_left same)]

end LimitBook.BookSide
