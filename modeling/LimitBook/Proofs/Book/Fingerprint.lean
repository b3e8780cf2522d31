import LimitBook.Proofs.Book.Run
import LimitBook.Proofs.Digest

/-!
What the fingerprint of a book is good for. Its bytes tell everything that the future of the book depends on: books with
the same bytes answer alike from then on, whatever led to them.
-/

namespace LimitBook.Book

/-- The bytes that are hashed for the fingerprint of a book. -/
def written (book : Book) : List UInt8 := Digest.book book.key book.nextSequence book.orders

/-- The book without its totals. -/
def forget (book : Book) : Book := { book with stats := Stats.empty }

/-- Two books are of the same key, stand at the same place of their stream, and hold the same orders. -/
structure Alike (a b : Book) : Prop where
  key : a.key = b.key
  nextSequence : a.nextSequence = b.nextSequence
  orders : ∀ side, a.orders.orders side = b.orders.orders side

variable {a b book : Book} {event : Event}

section Forget

/-- Books that agree but for their totals answer an action alike, and agree afterwards. -/
theorem act_of_forget_eq (same : a.forget = b.forget) (sequence : Sequence) (action : Action) :
    (a.act sequence action).map (fun taken => (taken.1, taken.2.forget)) =
      (b.act sequence action).map (fun taken => (taken.1, taken.2.forget)) := by
  -- The two books differ in their counters only, and nothing that is done looks at them.
  obtain ⟨key, cursor, orders, stats⟩ := a
  obtain ⟨key', cursor', orders', stats'⟩ := b
  obtain ⟨rfl, rfl, rfl, -⟩ := Book.mk.inj same
  cases action with
  | add new =>
    have arriving : Book.arriving ⟨key, cursor, orders, stats'⟩ sequence new =
        Book.arriving ⟨key, cursor, orders, stats⟩ sequence new := rfl
    simp only [forget, act, add]
    by_cases empty : new.size = 0
    · simp only [if_pos empty]
      rfl
    · simp only [if_neg empty, arriving]
      cases orders.insert (Book.arriving ⟨key, cursor, orders, stats⟩ sequence new) <;> rfl
  | remove id =>
    simp only [forget, act, remove]
    cases orders.cancel id <;> rfl

/-- Books that agree but for their totals answer a call alike, and agree afterwards. -/
theorem call_of_forget_eq (same : a.forget = b.forget) (call : Call) :
    (a.call call).1 = (b.call call).1 ∧ (a.call call).2.forget = (b.call call).2.forget := by
  cases call with
  | resync next => exact ⟨rfl, congrArg (·.resync next) same⟩
  | apply event =>
    have cursor : a.cursor = b.cursor := show a.forget.cursor = b.forget.cursor by rw [same]
    have acted := act_of_forget_eq same event.sequence event.action
    simp only [call, apply, cursor]
    cases b.cursor.check event with
    | error error => exact ⟨rfl, same⟩
    | ok _ =>
      -- The action is refused in both books, or carried out with the same report.
      simp only [Bind.bind, Except.bind]
      cases inFirst : a.act event.sequence event.action with
      | error error =>
        cases inSecond : b.act event.sequence event.action with
        | error error' =>
          rw [inFirst, inSecond] at acted
          exact ⟨by rw [Except.error.inj acted], same⟩
        | ok taken => simp [inFirst, inSecond, Except.map] at acted
      | ok taken =>
        cases inSecond : b.act event.sequence event.action with
        | error error => simp [inFirst, inSecond, Except.map] at acted
        | ok taken' =>
          rw [inFirst, inSecond] at acted
          obtain ⟨report, next⟩ := Prod.mk.inj (Except.ok.inj acted)
          -- Counting the event moves both on by one place.
          have advanced := congrArg (fun book : Book => { book with cursor := book.cursor.advance }) next
          exact ⟨congrArg (fun report => some (Except.ok report)) report, advanced⟩

/-- Books that agree but for their totals give the same answers to all calls, and agree afterwards. -/
theorem run_of_forget_eq (same : a.forget = b.forget) (calls : List Call) :
    (a.run calls).1 = (b.run calls).1 ∧ (a.run calls).2.forget = (b.run calls).2.forget := by
  -- Both books vary along the calls.
  induction calls generalizing a b with
  | nil => exact ⟨rfl, same⟩
  | cons call calls ih =>
    obtain ⟨answer, next⟩ := call_of_forget_eq same call
    obtain ⟨answers, last⟩ := ih next
    exact ⟨by simp only [run, answer, answers], last⟩

end Forget

section Alike

/-- Sound books that are alike agree but for their totals. -/
theorem Alike.forget_eq (alike : a.Alike b) (soundA : a.Sound) (soundB : b.Sound) : a.forget = b.forget := by
  have market : a.market = b.market := congrArg BookKey.market alike.key
  -- The queues say everything about the orders, and the cursor follows the market of the key.
  have orders : a.orders = b.orders :=
    soundA.orders.eq_of_orders_eq soundB.orders (soundA.market.trans (market.trans soundB.market.symm)) alike.orders
  have follows : a.cursor.market = b.cursor.market := soundA.follows.trans (market.trans soundB.follows.symm)
  have next : a.cursor.next = b.cursor.next := alike.nextSequence
  have cursor : a.cursor = b.cursor :=
    calc a.cursor = ⟨a.cursor.market, a.cursor.next⟩ := rfl
      _ = ⟨b.cursor.market, b.cursor.next⟩ := by rw [follows, next]
  unfold forget
  rw [alike.key, cursor, orders]

/-- Books that agree but for their totals are written alike. -/
theorem written_of_forget_eq (same : a.forget = b.forget) : a.written = b.written := by
  -- What is written is written from the book without its totals.
  show a.forget.written = b.forget.written
  rw [same]

/-- Books that agree but for their totals are alike. -/
theorem alike_of_forget_eq (same : a.forget = b.forget) : a.Alike b := by
  -- Without the totals the books are the same, and so is everything that makes them alike.
  obtain ⟨key, cursor, orders, -⟩ := Book.mk.inj same
  exact ⟨key, congrArg Cursor.next cursor, fun side => by rw [orders]⟩

/-- The bytes of a sound book tell everything but its totals, if a word counts its orders. -/
theorem Sound.alike_of_written_eq (soundA : a.Sound) (soundB : b.Sound) (few : a.orders.orderCount < UInt64.size)
    (same : a.written = b.written) : a.Alike b := by
  have own : ∀ {book : Book}, book.Sound → ∀ side, ∀ order ∈ book.orders.orders side,
      order.side = side ∧ order.market = book.key.market := fun sound side order member =>
    ⟨sound.orders.side_eq member, (sound.live order (OrderBook.mem_resting.mpr ⟨side, member⟩)).market⟩
  -- The index has as many entries as the queues have orders.
  unfold OrderBook.orderCount at few
  rw [soundA.orders.index_size] at few
  obtain ⟨key, next, orders⟩ := Digest.book_inj few (own soundA) (own soundB) same
  exact ⟨key, next, orders⟩

end Alike

/--
The fingerprint of a book identifies its behaviour.

Books of the same bytes answer all further calls alike, whatever their totals and their histories, and keep having the
same bytes. The number of orders of a side is written as a word, which is enough for every book that a machine can hold.
Fingerprints themselves can be compared as far as hashing does not make the two of them collide.
-/
theorem written_eq_iff_alike (reachedA : a.Reachable) (reachedB : b.Reachable)
    (few : a.orders.orderCount < UInt64.size) :
    (a.written = b.written ↔ a.Alike b) ∧
      (a.Alike b → ∀ calls, (a.run calls).1 = (b.run calls).1 ∧ (a.run calls).2.written = (b.run calls).2.written ∧
        (a.run calls).2.Alike (b.run calls).2) ∧
      ((Sha256.hash a.written = Sha256.hash b.written → a.written = b.written) →
        (a.digest = b.digest ↔ a.Alike b)) := by
  -- Alike books are the same but for their counters, so that they are written alike and go on alike.
  have agree := fun alike : a.Alike b => alike.forget_eq reachedA.sound reachedB.sound
  have same : a.written = b.written ↔ a.Alike b :=
    ⟨reachedA.sound.alike_of_written_eq reachedB.sound few, fun alike => written_of_forget_eq (agree alike)⟩
  refine ⟨same, fun alike calls => ?_, fun collisionFree => ?_⟩
  · obtain ⟨answers, last⟩ := run_of_forget_eq (agree alike) calls
    exact ⟨answers, written_of_forget_eq last, alike_of_forget_eq last⟩
  · exact ⟨fun digests => same.mp (collisionFree digests), fun alike => congrArg Sha256.hash (same.mpr alike)⟩

/-- The seller of the opening again, from whom two buyers take one each before the stream is set back. -/
def reopened : Book :=
  ((Book.startingAt ⟨⟨1⟩, ⟨7⟩⟩ 0).run (opening.take 1 ++ [.apply ⟨⟨7⟩, 1, .add ⟨⟨2⟩, ⟨2⟩, 0, .buy, 1, ⟨101⟩⟩⟩,
    .apply ⟨⟨7⟩, 2, .add ⟨⟨3⟩, ⟨2⟩, 0, .buy, 1, ⟨100⟩⟩⟩, .resync 2])).2

/-- Two histories that lead to the same orders at the same place: the fills were others, but the future is the same. -/
theorem written_eq_of_reopened :
    opened.orders.orderCount < UInt64.size ∧ opened.stats ≠ reopened.stats ∧ opened.written = reopened.written ∧
      ∀ calls, (opened.run calls).1 = (reopened.run calls).1 := by
  -- The second book was reached by reopening, and it is compared with the first one field by field.
  have reached : reopened.Reachable := (Reachable.start ⟨⟨1⟩, ⟨7⟩⟩ 0).run _
  have few : opened.orders.orderCount < UInt64.size := by decide +kernel
  have alike : opened.Alike reopened :=
    ⟨by decide +kernel, by decide +kernel, fun side => by cases side <;> decide +kernel⟩
  obtain ⟨same, future, -⟩ := written_eq_iff_alike reachable_opened reached few
  exact ⟨few, by decide +kernel, same.mpr alike, fun calls => (future alike calls).1⟩

end LimitBook.Book
