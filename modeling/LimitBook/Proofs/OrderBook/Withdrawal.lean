import Mathlib.Data.List.Basic
import LimitBook.Proofs.Book.InPlace
import LimitBook.Proofs.OrderBook.Reachable

/-!
Taking an order out of a book takes out that order and nothing else, and an order that is taken out as soon as it has
come to rest leaves the book as it was in all its parts.
-/

namespace LimitBook

section Queues

variable {side : Side} {order : Order} {queue : List Order}

/-- Whoever joins a queue under a free number and leaves again leaves it as it was. -/
theorem Queue.filter_join (fresh : ∀ other ∈ queue, other.id ≠ order.id) :
    (Queue.join side order queue).filter (·.id ≠ order.id) = queue := by
  induction queue with
  | nil => simp [Queue.join]
  | cons first later ih =>
    have others := ih fun other member => fresh other (List.mem_cons_of_mem _ member)
    unfold Queue.join
    split
    · -- The order stands before everybody, so leaving it out gives the old queue.
      rw [List.filter_cons, filter_id_eq_self fresh]
      simp
    · -- The first order is passed and stays, and the others are left as they were.
      have differs := fresh first List.mem_cons_self
      rw [List.filter_cons, others]
      simp [differs]

/-- Leaving orders out of a queue leaves them out at every price. -/
theorem Queue.atPrice_filter (queue : List Order) (price : Price) (keep : Order → Bool) :
    Queue.atPrice (queue.filter keep) price = (Queue.atPrice queue price).filter keep :=
  List.filter_comm ..

end Queues

namespace OrderBook

/--
A book from which just one order was taken.

Its own queue has closed up, and its level with it unless it was alone there. All other levels with their totals and
all other entries of the index are as before.
-/
structure Withdrawn (book : OrderBook) (side : Side) (order : Order) (next : OrderBook) : Prop where
  sound : next.Sound
  market : next.market = book.market
  own : ∃ ahead behind, book.orders side = ahead ++ order :: behind ∧ next.orders side = ahead ++ behind
  other : next.orders side.opposite = book.orders side.opposite
  occupied : ∀ any, ∀ level ∈ next.levels any, level.orders ≠ []
  here : ∃ level ahead behind, (book.levels side).level? order.price = some level ∧
    level.orders = ahead ++ order :: behind ∧ order.remaining ≤ level.total ∧
    (next.levels side).level? order.price =
      if ahead ++ behind = [] then none else some ⟨order.price, ahead ++ behind, level.total - order.remaining⟩
  elsewhere : ∀ any price, any ≠ side ∨ price ≠ order.price →
    (next.levels any).level? price = (book.levels any).level? price
  forgotten : next.index[order.id]? = none
  entries : ∀ id, id ≠ order.id → next.index[id]? = book.index[id]?

variable {book next last : OrderBook} {side : Side} {order : Order} {id : OrderId}

section Cancel

/-- A level without one of its orders is what rests at its price afterwards. -/
theorem Requeued.level?_here (sound : book.Sound) (member : order ∈ book.orders side)
    (requeued : Requeued book side ((book.orders side).filter (·.id ≠ order.id)) next) :
    ∃ level ahead behind, (book.levels side).level? order.price = some level ∧
      level.orders = ahead ++ order :: behind ∧ order.remaining ≤ level.total ∧
      (next.levels side).level? order.price =
        if ahead ++ behind = [] then none
        else some ⟨order.price, ahead ++ behind, level.total - order.remaining⟩ := by
  -- The order waits at the level of its price.
  obtain ⟨level, isLevel, waits⟩ := BookSide.mem_orders.mp member
  have soundLevel := (sound.levels side).level level isLevel
  have price := soundLevel.prices order waits
  have found : (book.levels side).level? order.price = some level :=
    (sound.levels side).level?_eq_some.mpr ⟨isLevel, price.symm⟩
  have queue : Queue.atPrice (book.orders side) order.price = level.orders := by
    unfold OrderBook.orders
    rw [(sound.levels side).atPrice, found]
    rfl
  have distinct := sound.distinct_level isLevel
  obtain ⟨ahead, behind, split, enough, shorter⟩ := soundLevel.toTidy.without distinct waits
  -- What rests at the price afterwards is the queue of the level without the order.
  have rests : Queue.atPrice (next.orders side) order.price = ahead ++ behind := by
    rw [requeued.own, Queue.atPrice_filter, queue]
    rw [split] at distinct ⊢
    exact filter_id_ne_middle distinct
  rw [← price] at shorter
  exact ⟨level, ahead, behind, found, split, enough,
    (requeued.sound.levels side).level?_eq_of_tidy shorter rests⟩

/-- A level at another price, or on the other side, is the same afterwards. -/
theorem Requeued.level?_elsewhere (sound : book.Sound) (member : order ∈ book.orders side)
    (requeued : Requeued book side ((book.orders side).filter (·.id ≠ order.id)) next) {any : Side} {price : Price}
    (elsewhere : any ≠ side ∨ price ≠ order.price) :
    (next.levels any).level? price = (book.levels any).level? price := by
  refine (requeued.sound.levels any).level?_eq_of_atPrice_eq (sound.levels any) ?_
  show Queue.atPrice (next.orders any) price = Queue.atPrice (book.orders any) price
  rw [requeued.orders_eq any]
  split
  · next own =>
    -- On its own side the order was left out, but it did not stand at this price.
    subst own
    rw [Queue.atPrice_filter]
    refine filter_id_eq_self fun other here same => ?_
    obtain ⟨rests, here⟩ := List.mem_filter.mp here
    obtain rfl := (sound.eq_of_id_eq rests member same).2
    rcases elsewhere with otherSide | otherPrice
    · exact otherSide rfl
    · exact otherPrice (of_decide_eq_true here).symm
  · rfl

/-- Every number but that of the order leads where it led before. -/
theorem Requeued.entry_eq (sound : book.Sound)
    (requeued : Requeued book side ((book.orders side).filter (·.id ≠ order.id)) next) (differs : id ≠ order.id) :
    next.index[id]? = book.index[id]? := by
  refine Option.ext fun ⟨any, price⟩ => ?_
  rw [requeued.sound.indexed, sound.indexed, requeued.orders_eq any]
  split
  · next own =>
    -- An order of another number is left in the queue.
    subst own
    constructor
    · intro ⟨other, rests, found⟩
      exact ⟨other, (List.mem_filter.mp rests).1, found⟩
    · rintro ⟨other, rests, rfl, here⟩
      exact ⟨other, List.mem_filter.mpr ⟨rests, by simpa using differs⟩, rfl, here⟩
  · rfl

/-- A resting order is given up as it rests, and nothing else changes. -/
theorem Sound.cancel_withdraws (sound : book.Sound) (member : order ∈ book.orders side) :
    ∃ next, book.cancel order.id = .ok (order, next) ∧ Withdrawn book side order next := by
  -- Those ahead of the order and those behind it are left.
  obtain ⟨next, removed, requeued⟩ := sound.cancel_ok member
  obtain ⟨ahead, behind, queue⟩ := List.append_of_mem member
  have own : next.orders side = ahead ++ behind := by
    have distinct := sound.distinct_queue side
    rw [requeued.own]
    rw [queue] at distinct ⊢
    exact filter_id_ne_middle distinct
  have forgotten : next.index[order.id]? = none := by
    refine Option.eq_none_iff_forall_ne_some.mpr fun ⟨any, price⟩ entry => ?_
    -- An entry would mean that an order of this number is left, and only the one that left had it.
    obtain ⟨other, rests, same, -⟩ := (requeued.sound.indexed _ _ _).mp entry
    rw [requeued.orders_eq any] at rests
    split at rests
    · simp [same] at rests
    · next apart => exact apart (sound.eq_of_id_eq rests member same).1
  exact ⟨next, removed, {
    sound := requeued.sound
    market := requeued.market
    own := ⟨ahead, behind, queue, own⟩
    other := requeued.other
    occupied := fun any level isLevel => ((requeued.sound.levels any).level level isLevel).occupied
    here := requeued.level?_here sound member
    elsewhere := fun any price => requeued.level?_elsewhere sound member
    forgotten
    entries := fun id => requeued.entry_eq sound }⟩

/-- A number can be taken out exactly if it rests, and there is one way for it to be refused. -/
theorem Sound.cancel_eq_error_iff (sound : book.Sound) {error : BookError} :
    book.cancel id = .error error ↔ error = .orderNotFound id ∧ ¬book.Rests id := by
  by_cases rests : book.Rests id
  · -- The order is given up, so nothing is refused.
    have resting := rests
    obtain ⟨order, stands, rfl⟩ := resting
    obtain ⟨side, member⟩ := mem_resting.mp stands
    obtain ⟨next, removed, -⟩ := sound.cancel_ok member
    simp [removed, rests]
  · simp [sound.cancel_absent rests, rests, eq_comm]

end Cancel

section Undo

/-- An order that is accepted has a free number, and joins the queue of its side. -/
theorem Sound.insert_eq_ok (sound : book.Sound) (accepted : book.insert order = .ok next) :
    ¬book.Rests order.id ∧
      Requeued book order.side (Queue.join order.side order (book.orders order.side)) next := by
  -- A taken number or a full level would have been refused.
  by_cases rests : book.Rests order.id
  · simp [sound.insert_duplicate rests] at accepted
  · by_cases room : restingSize (Queue.atPrice (book.orders order.side) order.price) + order.remaining.toNat
        < UInt64.size
    · obtain ⟨next', accepted', requeued⟩ := sound.insert_ok rests room
      rw [accepted, Except.ok.injEq] at accepted'
      exact ⟨rests, accepted' ▸ requeued⟩
    · simp [sound.insert_overflow rests (Nat.not_lt.mp room)] at accepted

/-- Leaving right after joining gives the book as it was before, with its levels and its index. -/
theorem Requeued.undone (joins : Requeued book side (Queue.join side order (book.orders side)) next)
    (leaves : Requeued next side ((next.orders side).filter (·.id ≠ order.id)) last) (sound : book.Sound)
    (fresh : ¬book.Rests order.id) : last = book := by
  have both := joins.trans leaves
  rw [joins.own, Queue.filter_join fun other member => id_ne_of_fresh fresh member] at both
  -- The queues are the same as before, and they say everything about the book.
  refine both.sound.eq_of_orders_eq sound both.market fun any => ?_
  rw [both.orders_eq any]
  split
  · next own => rw [own]
  · rfl

/-- An accepted order may be taken out again, and then it is as if it had never come. -/
theorem Sound.cancel_insert (sound : book.Sound) (accepted : book.insert order = .ok next) :
    next.cancel order.id = .ok (order, book) := by
  obtain ⟨fresh, joins⟩ := sound.insert_eq_ok accepted
  -- The order waits where it has joined, and so it can be withdrawn again.
  have rests : order ∈ next.orders order.side := by
    rw [joins.own]
    exact Queue.mem_join.mpr (.inl rfl)
  obtain ⟨last, removed, leaves⟩ := joins.sound.cancel_ok rests
  rw [removed, joins.undone leaves sound fresh]

end Undo

end OrderBook

end LimitBook
