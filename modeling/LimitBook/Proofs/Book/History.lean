import LimitBook.Proofs.Book.Lifetime

/-!
The history of a book: the events that it has accepted, each with its report. A refused event and a move along the
stream leave no trace in it.
-/

namespace LimitBook.Book

/-- What a call and its answer add to the history: an event that was accepted, with its report. -/
def acceptance? : Call × Option (Except BookError Report) → Option (Event × Report)
  | (.apply event, some (.ok report)) => some (event, report)
  | _ => none

/-- The events that a run accepts with their reports, in order. -/
def history (book : Book) (calls : List Call) : List (Event × Report) :=
  (calls.zip (book.run calls).1).filterMap acceptance?

variable {book next : Book} {event : Event} {report : Report} {call : Call}

/-- The answers of a run are that to its first call, and then those to the others. -/
theorem run_cons (book : Book) (call : Call) (calls : List Call) :
    book.run (call :: calls) =
      ((book.call call).1 :: ((book.call call).2.run calls).1, ((book.call call).2.run calls).2) := rfl

/-- Without calls nothing happens. -/
@[simp] theorem history_nil (book : Book) : book.history [] = [] := rfl

/-- The history of a run is that of its first call, and then that of the others. -/
theorem history_cons (book : Book) (call : Call) (calls : List Call) :
    book.history (call :: calls) = book.history [call] ++ (book.call call).2.history calls := by
  -- The answer of the first call is paired with it, and kept if it is a report.
  simp only [history, run, List.zip_cons_cons, List.filterMap_cons, List.zip_nil_right, List.filterMap_nil]
  split <;> rfl

/-- The history of a run in two parts is that of the first part, and then that of the second. -/
theorem history_append (book : Book) (front back : List Call) :
    book.history (front ++ back) = book.history front ++ (book.run front).2.history back := by
  -- The book varies along the calls in front.
  induction front generalizing book with
  | nil => rfl
  | cons call front ih =>
    rw [List.cons_append, history_cons, ih, history_cons book call front, List.append_assoc]
    rfl

/-- The reports of a history are the reports of its run. -/
theorem map_snd_history (book : Book) (calls : List Call) :
    (book.history calls).map Prod.snd = reports (book.run calls).1 := by
  -- Each call adds its report to both lists, if it has one.
  induction calls generalizing book with
  | nil => rfl
  | cons call calls ih =>
    rw [history_cons, List.map_append, ih, reports_run_cons]
    congr 1
    cases call with
    | resync next => rfl
    | apply event =>
      simp only [history, run, Book.call]
      cases book.apply event <;> rfl

/-- All that feeding an event does: it is refused and leaves the book as it was, or it is taken in. -/
theorem Sound.call_apply_cases (sound : book.Sound) (event : Event) :
    (∃ error, book.apply event = .error error ∧ book.call (.apply event) = (some (.error error), book) ∧
      book.history [.apply event] = []) ∨
    ∃ report next, book.Takes event report next ∧ book.call (.apply event) = (some (.ok report), next) ∧
      book.history [.apply event] = [(event, report)] := by
  -- An event is accepted with a report, or refused without a trace.
  simp only [history, run, Book.call]
  cases outcome : book.apply event with
  | error error => exact .inl ⟨error, rfl, rfl, rfl⟩
  | ok taken => exact .inr ⟨taken.1, taken.2, (sound.takes outcome).2, rfl, rfl⟩

/-- All that a call does: it takes in an event of its own, or adds nothing to the history and touches no order. -/
theorem Sound.history_cases (sound : book.Sound) (call : Call) :
    (book.history [call] = [] ∧ (book.call call).2.orders = book.orders ∧ (book.call call).2.stats = book.stats) ∨
      ∃ event report next, call = .apply event ∧ book.Takes event report next ∧
        book.call call = (some (.ok report), next) ∧ book.history [call] = [(event, report)] := by
  -- Only an event that is accepted stands in the history.
  cases call with
  | resync next => exact .inl ⟨rfl, rfl, rfl⟩
  | apply event =>
    rcases sound.call_apply_cases event with ⟨error, -, answer, none⟩ | ⟨report, next, takes, answer, some⟩
    · rw [answer]
      exact .inl ⟨none, rfl, rfl⟩
    · exact .inr ⟨event, report, next, rfl, takes, answer, some⟩

/-- What a book has of its queues, its totals and its history holds along every run, if accepted events keep it. -/
theorem Sound.run_keeps {Holds : Book → List (Event × Report) → Prop} {history : List (Event × Report)}
    (unmoved : ∀ {book next : Book} {history : List (Event × Report)}, next.orders = book.orders →
      next.stats = book.stats → Holds book history → Holds next history)
    (accepts : ∀ {book next : Book} {event : Event} {report : Report} {history : List (Event × Report)},
      book.Sound → book.Takes event report next → Holds book history → Holds next (history ++ [(event, report)]))
    (sound : book.Sound) (start : Holds book history) (calls : List Call) :
    Holds (book.run calls).2 (history ++ book.history calls) := by
  -- The induction is on the calls; the book and what has happened so far vary along them.
  induction calls generalizing book history with
  | nil => rwa [history_nil, List.append_nil]
  | cons call calls ih =>
    rw [history_cons, ← List.append_assoc]
    show Holds ((book.call call).2.run calls).2 _
    refine ih (sound.call call) ?_
    rcases sound.history_cases call with ⟨none, orders, stats⟩ | ⟨event, report, next, rfl, takes, answer, some⟩
    · rw [none, List.append_nil]
      exact unmoved orders stats start
    · rw [answer, some]
      exact accepts sound takes start

/-- Every event of a history was taken in by some sound book on the way. -/
theorem Sound.takes_of_mem_history (sound : book.Sound) {calls : List Call} {taken : Event × Report}
    (member : taken ∈ book.history calls) :
    ∃ before next : Book, before.Sound ∧ before.Takes taken.1 taken.2 next := by
  -- The event is taken by the first call or by a later one.
  induction calls generalizing book with
  | nil => simp at member
  | cons call calls ih =>
    rw [history_cons] at member
    rcases List.mem_append.mp member with first | later
    · rcases sound.history_cases call with ⟨none, -, -⟩ | ⟨event, report, next, -, takes, -, some⟩
      · simp [none] at first
      · rw [some, List.mem_singleton] at first
        exact ⟨book, next, sound, first ▸ takes⟩
    · exact ih (sound.call call) later

end LimitBook.Book
