import LimitBook.OrderBook.Matching
import LimitBook.Proofs.Side

/-!
Queues of one side as plain lists of orders: how an order joins by price and time, what rests at a price, and
how an incoming order sweeps the queue it faces. Levels and the index are left out of the picture here.
-/

namespace LimitBook

/-- What is left of some orders in all, as an exact number. -/
def restingSize (orders : List Order) : Nat := orders.foldr (fun order n => order.remaining.toNat + n) 0

/-- No orders have nothing left. -/
@[simp] theorem restingSize_nil : restingSize [] = 0 := rfl

/-- The first order counts before the others. -/
@[simp] theorem restingSize_cons (order : Order) (orders : List Order) :
    restingSize (order :: orders) = order.remaining.toNat + restingSize orders := rfl

/-- Two lists of orders add up. -/
@[simp] theorem restingSize_append (front back : List Order) :
    restingSize (front ++ back) = restingSize front + restingSize back := by
  -- The sums are taken from the front, so the induction is on the list in front.
  induction front with
  | nil => simp
  | cons order front ih => simp only [List.cons_append, restingSize_cons, ih]; omega

/-- The order of a list does not matter for what is left in it. -/
theorem restingSize_perm {orders others : List Order} (same : orders.Perm others) :
    restingSize orders = restingSize others :=
  same.foldr_eq' (fun first _ second _ n => by omega) 0

/-- Which of the orders are kept decides the sum, whatever stands around the one that leaves. -/
theorem restingSize_eraseP {order : Order} {orders : List Order} {id : OrderId}
    (found : orders.find? (·.id = id) = some order) :
    restingSize (orders.eraseP (·.id = id)) + order.remaining.toNat = restingSize orders := by
  -- The search and the erasure stop at the same order, so both are followed along the list.
  induction orders with
  | nil => simp at found
  | cons first orders ih =>
    by_cases here : first.id = id
    · -- The order found is the first one, and it is the one erased.
      simp only [List.find?_cons, here, decide_true, Option.some.injEq] at found
      subst found
      simp only [List.eraseP_cons, here, decide_true, cond_true, restingSize_cons]
      omega
    · simp only [List.find?_cons, here, decide_false] at found
      have := ih found
      simp only [List.eraseP_cons, here, decide_false, cond_false, restingSize_cons]
      omega

/-- Behind the first of different numbers nobody has its number. -/
theorem id_ne_first {first : Order} {orders : List Order} (distinct : ((first :: orders).map Order.id).Nodup) :
    ∀ other ∈ orders, other.id ≠ first.id := by
  -- Otherwise the number of the first order would stand among the numbers behind it too.
  intro other later same
  have once := (List.nodup_cons.mp distinct).1
  rw [← same] at once
  exact once (List.mem_map_of_mem later)

/-- Leaving a number out changes nothing where nobody has it. -/
theorem filter_id_eq_self {orders : List Order} {id : OrderId} (absent : ∀ other ∈ orders, other.id ≠ id) :
    orders.filter (·.id ≠ id) = orders :=
  List.filter_eq_self.mpr fun other member => decide_eq_true (absent other member)

/-- Among different numbers only one order is left out by its number. -/
theorem filter_id_ne_middle {order : Order} {ahead behind : List Order}
    (distinct : ((ahead ++ order :: behind).map Order.id).Nodup) :
    (ahead ++ order :: behind).filter (·.id ≠ order.id) = ahead ++ behind := by
  rw [List.map_append] at distinct
  obtain ⟨-, rest, apart⟩ := List.nodup_append.mp distinct
  -- Neither those ahead of it nor those behind it have its number.
  have isAhead : ∀ other ∈ ahead, other.id ≠ order.id := fun other member =>
    apart other.id (List.mem_map_of_mem member) order.id List.mem_cons_self
  rw [List.filter_append, List.filter_cons, filter_id_eq_self isAhead, filter_id_eq_self (id_ne_first rest)]
  simp

/-- Among orders of different numbers an order is found by its number. -/
theorem find?_id_eq_some {order : Order} {orders : List Order} (distinct : (orders.map Order.id).Nodup)
    (member : order ∈ orders) : orders.find? (·.id = order.id) = some order := by
  induction orders with
  | nil => simp at member
  | cons first orders ih =>
    rw [List.find?_cons]
    -- Either the search stops at once, or it passes the first order.
    rcases List.mem_cons.mp member with rfl | later
    · simp
    · -- The first order has another number, since that of a later one does not come twice.
      have differs := (id_ne_first distinct order later).symm
      simp [differs, ih (List.nodup_cons.mp distinct).2 later]

/-- Among orders of different numbers the one erased is the only one of its number. -/
theorem eraseP_id_eq_filter {orders : List Order} (distinct : (orders.map Order.id).Nodup) {id : OrderId} :
    orders.eraseP (·.id = id) = orders.filter (·.id ≠ id) := by
  induction orders with
  | nil => rfl
  | cons first orders ih =>
    rw [List.eraseP_cons, List.filter_cons]
    by_cases here : first.id = id
    · -- Nobody later has the number, so filtering changes nothing more.
      rw [filter_id_eq_self (here ▸ id_ne_first distinct)]
      simp [here]
    · -- An order of another number is kept by both.
      rw [ih (List.nodup_cons.mp distinct).2]
      simp [here]

namespace Order

/-- The order after a trade, if anything is left of it. -/
def reduced? (order : Order) (quantity : Quantity) : Option Order :=
  if order.remaining - quantity = 0 then none else some { order with remaining := order.remaining - quantity }

/-- What is left of an order differs from it in the size only. -/
theorem reduced?_eq_some {order left : Order} {quantity : Quantity}
    (rest : order.reduced? quantity = some left) :
    left = { order with remaining := order.remaining - quantity } ∧ order.remaining - quantity ≠ 0 := by
  unfold reduced? at rest
  -- Only an order with something left is kept, so the first case is void.
  split at rest
  · simp at rest
  · next some_left => exact ⟨(Option.some.inj rest).symm, some_left⟩

end Order

namespace Queue

/-- Nobody stands behind an order of a worse price. -/
def InPriority (side : Side) (queue : List Order) : Prop :=
  queue.Pairwise fun first later => ¬side.Better later.price first.price

/-- An order joins a queue behind everybody whose price is as good as its own. -/
def join (side : Side) (order : Order) : List Order → List Order
  | [] => [order]
  | first :: later =>
    -- Equal prices are passed, so that the one who came first is served first.
    if side.Better order.price first.price then order :: first :: later else first :: join side order later

/-- The orders at one price keep their places among each other. -/
def atPrice (queue : List Order) (price : Price) : List Order := queue.filter (·.price = price)

/-- The orders at a price of two queues one after the other. -/
theorem atPrice_append (front back : List Order) (price : Price) :
    atPrice (front ++ back) price = atPrice front price ++ atPrice back price := List.filter_append _ _

section Join

variable {side : Side} {order : Order} {queue : List Order}

/-- A queue with a newcomer holds the newcomer and whoever stood there. -/
theorem join_perm : (join side order queue).Perm (order :: queue) := by
  induction queue with
  | nil => exact .refl _
  | cons first later ih =>
    unfold join
    split
    · -- The newcomer stands in front already.
      exact .refl _
    · -- The newcomer stands behind the first order, and changing their places is a permutation.
      exact (ih.cons first).trans (.swap order first later)

/-- The members of a queue with a newcomer. -/
@[simp] theorem mem_join {other : Order} : other ∈ join side order queue ↔ other = order ∨ other ∈ queue := by
  rw [join_perm.mem_iff, List.mem_cons]

/-- A newcomer passes everybody it is not better than. -/
theorem join_append {front back : List Order}
    (passed : ∀ other ∈ front, ¬side.Better order.price other.price) :
    join side order (front ++ back) = front ++ join side order back := by
  -- One after another those in front are passed, since the newcomer is better than none of them.
  induction front with
  | nil => rfl
  | cons first front ih =>
    rw [List.cons_append, join, if_neg (passed first List.mem_cons_self),
      ih fun other member => passed other (List.mem_cons_of_mem _ member), List.cons_append]

/-- A newcomer better than everybody stands in front. -/
theorem join_eq_cons (best : ∀ other ∈ queue, side.Better order.price other.price) :
    join side order queue = order :: queue := by
  -- There is nobody to get past, or the first is one that the newcomer gets past at once.
  cases queue with
  | nil => rfl
  | cons first later => rw [join, if_pos (best first List.mem_cons_self)]

/-- Behind all orders of its own price: that is where a newcomer stands at that price. -/
theorem atPrice_join (sorted : InPriority side queue) (price : Price) :
    atPrice (join side order queue) price =
      if order.price = price then atPrice queue price ++ [order] else atPrice queue price := by
  unfold InPriority at sorted
  induction queue with
  | nil => by_cases here : order.price = price <;> simp [Queue.join, atPrice, here]
  | cons first later ih =>
    obtain ⟨ahead, sorted'⟩ := List.pairwise_cons.mp sorted
    have ih := ih sorted'
    unfold atPrice at ih ⊢
    unfold Queue.join
    split
    · next better =>
      -- From here on everybody is worse, so nobody stands at the newcomer's price.
      by_cases here : order.price = price
      · have nobody : (first :: later).filter (·.price = price) = [] := by
          rw [List.filter_eq_nil_iff]
          intro other member at_price
          simp only [decide_eq_true_eq] at at_price
          have worse : side.Better order.price other.price := by
            rcases List.mem_cons.mp member with rfl | member
            · exact better
            · exact Side.better_of_better_of_not_better better (ahead other member)
          rw [here, at_price] at worse
          exact Side.better_irrefl side price worse
        rw [if_pos here, nobody, List.filter_cons, nobody]
        simp [here]
      · -- The newcomer is not at the price, so the filter passes it over.
        rw [if_neg here, List.filter_cons]
        simp [here]
    · -- The newcomer passes the first order, which is at the price or not in either queue.
      rw [List.filter_cons, List.filter_cons, ih]
      split <;> split <;> rfl

end Join

end Queue

end LimitBook
