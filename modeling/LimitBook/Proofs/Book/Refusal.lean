import LimitBook.Proofs.Book.InPlace
import LimitBook.Proofs.Book.Run

/-!
When an event is refused, and that a refusal leaves no trace: the reason is the first that the queues give, the
book stays as it was in all its parts, and a stream may be replayed without its refused events.
-/

namespace LimitBook.Book

/-- Events carried out in place one after another, each on whatever the one before it has left. -/
def carryOut (book : Book) : List Event → List (Except BookError Report) × Book
  | [] => ([], book)
  | event :: events =>
    let (answer, next) := (applyInPlace event).on book
    let (answers, last) := next.carryOut events
    (answer :: answers, last)

/-- The events of a stream that are accepted when all of them are carried out in place. -/
def accepted (book : Book) : List Event → List Event
  | [] => []
  | event :: events =>
    match (applyInPlace event).on book with
    | (.ok _, next) => event :: next.accepted events
    -- The stream goes on from whatever the refused event has left.
    | (.error _, left) => left.accepted events

variable {book : Book} {event : Event} {error : BookError} {report : Report} {after : Book}

/-- In place or as a whole, an event is accepted with the same report and the same book. -/
theorem on_applyInPlace_ok :
    (applyInPlace event).on book = (.ok report, after) ↔ book.apply event = .ok (report, after) := by
  rw [on_applyInPlace, Change.whole_eq_ok]

/-- In place or as a whole, an event is refused for the same reason, and in place the book is left as it was. -/
theorem on_applyInPlace_error :
    (applyInPlace event).on book = (.error error, after) ↔ book.apply event = .error error ∧ after = book := by
  -- As a whole a refused event has no book to go on with, so in place it is the old one.
  rw [on_applyInPlace, Change.whole_eq_error]

/-- A book that carries an event out stays a book that follows the stream of its market. -/
theorem Reachable.carried (reached : book.Reachable) (event : Event) :
    ((applyInPlace event).on book).2.Reachable ∧ ((applyInPlace event).on book).2.market = book.market := by
  rw [on_applyInPlace]
  have called := reached.call (.apply event)
  simp only [Book.call] at called
  cases outcome : book.apply event with
  | error reason => exact ⟨reached, rfl⟩
  | ok taken =>
    -- Only an accepted event moves the book on, and it leaves the book its key.
    rw [outcome] at called
    exact ⟨called, congrArg BookKey.market (reached.sound.takes outcome).2.key_eq⟩

/-- A book never says of itself that it is not found. -/
theorem refusal?_ne_bookNotFound (book : Book) (event : Event) (market : MarketId) :
    book.refusal? event ≠ some (.bookNotFound market) := by
  -- Every rule gives a reason of its own.
  obtain ⟨addressed, sequence, action⟩ := event
  cases action with
  | add new => grind [refusal?, actionRefusal?]
  | remove id => grind [refusal?, actionRefusal?]

/-- An event of the book's own market is never taken for one of another. -/
theorem refusal?_ne_marketMismatch (own : event.market = book.market) (expected found : MarketId) :
    book.refusal? event ≠ some (.marketMismatch expected found) := by
  -- Only the first rule has this reason, and it does not apply.
  obtain ⟨addressed, sequence, action⟩ := event
  cases action with
  | add new => grind [refusal?, actionRefusal?]
  | remove id => grind [refusal?, actionRefusal?]

/-- An event is refused exactly if a rule speaks against it, and for the first reason. -/
theorem Sound.apply_eq_error_iff (sound : book.Sound) :
    book.apply event = .error error ↔ book.refusal? event = some error := by
  constructor
  · intro refused
    cases refusal : book.refusal? event with
    | none =>
      -- Without a reason the event would have been accepted.
      obtain ⟨report, next, accepted, -⟩ := sound.apply_ok refusal
      rw [refused] at accepted
      simp at accepted
    | some reason =>
      rw [sound.apply_error refusal] at refused
      rw [Except.error.inj refused]
  · exact sound.apply_error

end LimitBook.Book
