import LimitBook.Lane
import LimitBook.Proofs.Book.Refusal

/-!
The serial history of a lane: what its commands would be answered if the book were asked one after another by
somebody who stops at the first close. A lane that serves its mailbox in order gives exactly these answers.
-/

namespace LimitBook

namespace Book

/--
An action is reported under the number that it came with and moves neither the key nor the cursor, or it is refused
for a reason of the book.
-/
theorem act_cases (book : Book) (sequence : Sequence) (action : Action) :
    (∃ report next, book.act sequence action = .ok (report, next) ∧
      report.sequence = sequence ∧ next.key = book.key ∧ next.cursor = book.cursor) ∨
    ∃ error, book.act sequence action = .error error ∧ ∀ market, error ≠ .laneClosed market := by
  cases action with
  | add new =>
    simp only [act, add]
    split
    · -- An order over nothing is refused before anything is looked at.
      exact .inr ⟨.invalidSize new.id, rfl, by simp⟩
    · cases inserted : book.orders.insert (book.arriving sequence new) with
      | error error =>
        -- Its number is taken, or its level would overflow.
        refine .inr ⟨error, rfl, fun market same => ?_⟩
        grind [OrderBook.insert]
      | ok orders => exact .inl ⟨_, _, rfl, rfl, rfl, rfl⟩
  | remove id =>
    simp only [act, remove]
    cases removed : book.orders.cancel id with
    | error error =>
      -- There is no order of that number.
      refine .inr ⟨error, rfl, fun market same => ?_⟩
      grind [OrderBook.cancel]
    | ok pair => exact .inl ⟨_, _, rfl, rfl, rfl, rfl⟩

/-- An event that is in place carries the next number, and any other is refused for a reason of the stream. -/
theorem check_cases (cursor : Cursor) (event : Event) :
    (cursor.check event = .ok () ∧ event.sequence = cursor.next) ∨
    ∃ error, cursor.check event = .error error ∧ ∀ market, error ≠ .laneClosed market := by
  -- The cursor asks for its market first and for its next sequence then, and neither refusal is of a lane.
  unfold Cursor.check
  split
  · exact .inr ⟨_, rfl, nofun⟩
  · split
    · exact .inr ⟨_, rfl, nofun⟩
    · next same => exact .inl ⟨rfl, Classical.not_not.mp same⟩

/--
An event is accepted under the next number of the book, which moves on by one and keeps its key, or it is refused for
a reason of the book or its stream.
-/
theorem apply_cases (book : Book) (event : Event) :
    (∃ report next, book.apply event = .ok (report, next) ∧
      report.sequence = book.nextSequence ∧ next.key = book.key ∧ next.nextSequence = book.nextSequence + 1) ∨
    ∃ error, book.apply event = .error error ∧ ∀ market, error ≠ .laneClosed market := by
  unfold apply
  rcases check_cases book.cursor event with ⟨checked, numbered⟩ | ⟨error, checked, own⟩
  · -- The event is in place, and the action decides.
    rcases book.act_cases event.sequence event.action with
      ⟨report, next, acted, same, key, cursor⟩ | ⟨error, acted, own⟩
    · rw [checked]
      simp only [acted, Bind.bind, Except.bind, Pure.pure, Except.pure]
      refine .inl ⟨_, _, rfl, same.trans numbered, key, ?_⟩
      -- The cursor of before is advanced.
      show next.cursor.next + 1 = book.cursor.next + 1
      rw [cursor]
    · refine .inr ⟨error, ?_, own⟩
      rw [checked]
      simp only [acted, Bind.bind, Except.bind]
  · exact .inr ⟨error, by rw [checked]; rfl, own⟩

/-- Events carried out in two parts are carried out one part after the other. -/
theorem carryOut_append (book : Book) (earlier later : List Event) :
    (book.carryOut (earlier ++ later)).2 = ((book.carryOut earlier).2.carryOut later).2 := by
  -- The book varies along the earlier events.
  induction earlier generalizing book with
  | nil => rfl
  | cons event events ih => exact ih _

/-- Events leave a book its key, accepted or not. -/
theorem carryOut_key (book : Book) (events : List Event) : (book.carryOut events).2.key = book.key := by
  induction events generalizing book with
  | nil => rfl
  | cons event events ih =>
    simp only [carryOut]
    rw [ih, on_applyInPlace]
    -- Accepted or not, the first event leaves the key, and so do the others.
    rcases book.apply_cases event with ⟨report, next, accepted, -, key, -⟩ | ⟨error, refused, -⟩
    · rw [accepted]
      exact key
    · rw [refused]
      rfl

end Book

/-- The event that a command brings, if it brings one. -/
def Command.event? : Command → Option Event
  | .apply event => some event
  | .top | .depth _ | .stats | .close => none

/-- The report in an answer, if an event was accepted. -/
def report? : Except BookError Answer → Option Report
  | .ok (.report report) => some report
  | .ok (.top _) | .ok (.depth _) | .ok (.stats _) | .ok (.book _) | .error _ => none

/-- The book in an answer, if it was handed out. -/
def book? : Except BookError Answer → Option Book
  | .ok (.book book) => some book
  | .ok (.report _) | .ok (.top _) | .ok (.depth _) | .ok (.stats _) | .error _ => none

/-- What is published about a report. -/
def Update.about (market : MarketId) (report : Report) : Update :=
  ⟨market, report.sequence, report.fills, report.top⟩

namespace Lane

/-- A book after the events among some commands. -/
def bookAfter (book : Book) (commands : List Command) : Book :=
  (book.carryOut (commands.filterMap Command.event?)).2

/-- What a book itself answers to a command. -/
def answerOf (book : Book) : Command → Except BookError Answer
  | .apply event => ((Book.applyInPlace event).on book).1.map .report
  | .top => .ok (.top book.top)
  | .depth levels => .ok (.depth (book.depth levels))
  | .stats => .ok (.stats book.stats)
  | .close => .ok (.book book)

/-- What is published about a command: an update about its report, if there is one. -/
def updateOf (book : Book) (command : Command) : Option Update :=
  (report? (answerOf book command)).map (Update.about book.market)

/-- What a command is answered after others: whatever the book answers, unless it has been handed out. -/
def serialAnswer (book : Book) (before : List Command) (command : Command) : Except BookError Answer :=
  if .close ∈ before then .error (.laneClosed book.market) else answerOf (bookAfter book before) command

variable {book : Book} {command : Command} {commands : List Command}

/-- Commands in two parts change a book one part after the other. -/
theorem bookAfter_append (book : Book) (earlier later : List Command) :
    bookAfter book (earlier ++ later) = bookAfter (bookAfter book earlier) later := by
  -- The events of the commands are carried out in their order.
  unfold bookAfter
  rw [List.filterMap_append, Book.carryOut_append]

/-- Commands leave a book its market. -/
theorem market_bookAfter (book : Book) (commands : List Command) : (bookAfter book commands).market = book.market :=
  congrArg BookKey.market (book.carryOut_key _)

/-- A running lane answers as its book does, stops at a close, and publishes what has been reported. -/
theorem respond_eq (book : Book) (command : Command) :
    respond book command = (answerOf book command,
      if command = .close then none else some (bookAfter book [command]), updateOf book command) := by
  cases command with
  | apply event =>
    simp only [respond, updateOf, answerOf, bookAfter, List.filterMap_cons, Command.event?, List.filterMap_nil,
      Book.carryOut, Book.on_applyInPlace]
    -- An event that is refused leaves the book as it was, and nothing is published about it.
    cases book.apply event with
    | ok pair => rfl
    | error error => rfl
  | top => rfl
  | depth levels => rfl
  | stats => rfl
  | close => rfl

/-- Only a close is answered with the book. -/
theorem book?_answerOf (book : Book) (command : Command) :
    book? (answerOf book command) = if command = .close then some book else none := by
  -- Only the command to close hands the book out.
  cases command with
  | apply event =>
    simp only [answerOf, Book.on_applyInPlace]
    cases book.apply event with
    | ok pair => rfl
    | error error => rfl
  | top => rfl
  | depth levels => rfl
  | stats => rfl
  | close => rfl

/-- A command that is answered with a report is an event in its turn, after which the next one is due. -/
theorem numbered_of_report {report : Report} (reported : report? (answerOf book command) = some report) :
    report.sequence = book.nextSequence ∧ (bookAfter book [command]).nextSequence = book.nextSequence + 1 := by
  -- Only an event that was accepted is reported.
  cases command with
  | apply event =>
    simp only [answerOf, bookAfter, List.filterMap_cons, Command.event?, List.filterMap_nil, Book.carryOut,
      Book.on_applyInPlace] at reported ⊢
    rcases book.apply_cases event with ⟨own, next, accepted, numbered, -, moved⟩ | ⟨error, refused, -⟩
    · rw [accepted] at reported ⊢
      obtain rfl : own = report := Option.some.inj reported
      exact ⟨numbered, moved⟩
    · rw [refused] at reported
      simp [Change.whole, Except.map, report?] at reported
  | top => simp [answerOf, report?] at reported
  | depth levels => simp [answerOf, report?] at reported
  | stats => simp [answerOf, report?] at reported
  | close => simp [answerOf, report?] at reported

/-- A command that is not answered with a report leaves the same number due. -/
theorem numbered_of_none (unreported : report? (answerOf book command) = none) :
    (bookAfter book [command]).nextSequence = book.nextSequence := by
  -- Without a report nothing was accepted, and so the cursor has not moved.
  cases command with
  | apply event =>
    simp only [answerOf, bookAfter, List.filterMap_cons, Command.event?, List.filterMap_nil, Book.carryOut,
      Book.on_applyInPlace] at unreported ⊢
    rcases book.apply_cases event with ⟨report, next, accepted, -⟩ | ⟨error, refused, -⟩
    · rw [accepted] at unreported
      simp [Change.whole, Except.map, report?] at unreported
    · rw [refused]
      rfl
  | top => rfl
  | depth levels => rfl
  | stats => rfl
  | close => rfl

/-- A running lane serves a command as its book answers it. -/
theorem serve_of_running {lane : Lane} (runs : lane.book = some book) (command : Command) :
    lane.serve command = (answerOf book command, { lane with
      book := if command = .close then none else some (bookAfter book [command])
      feed := (updateOf book command).elim lane.feed lane.feed.publish }) := by
  simp only [serve, runs, respond_eq]

end Lane

end LimitBook
