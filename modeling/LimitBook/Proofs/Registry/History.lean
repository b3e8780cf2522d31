import LimitBook.Proofs.Registry.Step

/-!
Histories of a registry. Whatever is asked of it and of its handles, and in whatever order, the book behind a
handle is the one that was registered after the events that reached the handle, as if it had been alone; and which
events reach it follows from the answers given so far.
-/

namespace LimitBook.Registry

/-- Operations one after another, each with its answer, and the registry that they leave. -/
def run (registry : Registry) : List Operation → List Entry × Registry
  | [] => ([], registry)
  | operation :: operations =>
    let (answer, next) := registry.perform operation
    let (entries, last) := next.run operations
    (⟨operation, answer⟩ :: entries, last)

/-- The events that reach a handle during a history, each with its answer. -/
def deliveries (handle : BookHandle) : Listing → List Entry → List (Event × Except BookError Answer)
  | _, [] => []
  | listing, entry :: entries =>
    let later := deliveries handle (listing.after entry) entries
    match entry.operation.reaching? handle listing with
    | some event => (event, entry.answer) :: later
    | none => later

variable {registry : Registry} {handle : BookHandle} {book : Book} {listing : Listing}

/-- During a history the book behind a handle carries out the events that reach the handle, and nothing else. -/
theorem run_book? (operations : List Operation) (lists : registry.Lists listing)
    (held : registry.book? handle = some book) :
    let taken := deliveries handle listing (registry.run operations).1
    (registry.run operations).2.book? handle = some (book.carryOut (taken.map Prod.fst)).2 ∧
      taken.map Prod.snd = (book.carryOut (taken.map Prod.fst)).1.map (Except.map Answer.report) := by
  induction operations generalizing registry listing book with
  | nil => exact ⟨held, rfl⟩
  | cons operation operations ih =>
    have step := step_perform registry operation
    have lists' := step.lists lists
    have reached := step.book? lists held
    simp only [run, deliveries]
    -- Either the first operation brings the book its next event, or the book is as it was.
    cases reaching : operation.reaching? handle listing with
    | none =>
      -- Nothing has reached the handle, and its book goes on as it was.
      rw [reaching] at reached
      exact ih lists' reached
    | some event =>
      -- The event is the next of those that the book carries out, and the others come after it.
      rw [reaching] at reached
      obtain ⟨answered, left⟩ := reached
      obtain ⟨last, later⟩ := ih lists' left
      simp only [List.map_cons, Book.carryOut]
      exact ⟨last, congrArg₂ List.cons answered later⟩

/-- What is listed after a history can be told from its answers. -/
theorem run_lists (operations : List Operation) (lists : registry.Lists listing) :
    (registry.run operations).2.Lists ((registry.run operations).1.foldl Listing.after listing) := by
  -- One operation keeps the listing; the registry and the listing vary along the rest.
  induction operations generalizing registry listing with
  | nil => exact lists
  | cons operation operations ih => exact ih ((step_perform registry operation).lists lists)

/-- A history keeps the books in step with the markets that they are listed for. -/
theorem run_tracks (operations : List Operation) (brings : ∀ operation ∈ operations, operation.Brings)
    (tracks : registry.Tracks) : (registry.run operations).2.Tracks := by
  -- The registry varies along the operations, and each of them brings a book that is fit to be registered.
  induction operations generalizing registry with
  | nil => exact tracks
  | cons operation operations ih =>
    obtain ⟨first, rest⟩ := List.forall_mem_cons.mp brings
    exact ih rest ((step_perform registry operation).tracks first tracks)

/-- Behind every handle that was ever answered there is a book. -/
theorem run_answered (operations : List Operation) (brings : ∀ operation ∈ operations, operation.Brings)
    (tracks : registry.Tracks) :
    ∀ entry ∈ (registry.run operations).1, entry.answer = .ok (.handle handle) →
      ∃ book, (registry.run operations).2.book? handle = some book := by
  induction operations generalizing registry with
  | nil => intro entry member; simp [run] at member
  | cons operation operations ih =>
    obtain ⟨first, rest⟩ := List.forall_mem_cons.mp brings
    have step := step_perform registry operation
    have tracks' := step.tracks first tracks
    intro entry member answered
    rcases List.mem_cons.mp member with rfl | later
    · -- A book that is behind the handle after the first operation stays there.
      have led : ∃ book, (registry.perform operation).2.book? handle = some book := by
        rcases step.gives answered with ⟨book, -, held⟩ | ⟨market, listed, same⟩
        · exact ⟨book, held⟩
        · obtain ⟨book, held, -⟩ := tracks.listed market handle listed
          exact ⟨book, by rw [Registry.book?, same]; exact held⟩
      obtain ⟨book, held⟩ := led
      exact ⟨_, (run_book? operations (fun _ => rfl) held).1⟩
    · -- A later answer leads to a book of the later history.
      exact ih rest tracks' entry later answered

/-- Every handle that was answered had been given to a book at its registration, or was listed before. -/
theorem run_origin (operations : List Operation) (lists : registry.Lists listing) :
    ∀ entry ∈ (registry.run operations).1, entry.answer = .ok (.handle handle) →
      (∃ book, ⟨.register book, .ok (.handle handle)⟩ ∈ (registry.run operations).1) ∨
        ∃ market, listing market = some handle := by
  induction operations generalizing registry listing with
  | nil => intro entry member; simp [run] at member
  | cons operation operations ih =>
    have step := step_perform registry operation
    intro entry member answered
    simp only [run] at member ⊢
    rcases List.mem_cons.mp member with rfl | later
    · -- The first operation registers a book or gives the handle of one that is listed.
      rcases step.gives answered with ⟨book, rfl, -⟩ | ⟨market, listed, -⟩
      · exact .inl ⟨book, List.mem_cons.mpr (.inl (congrArg (Entry.mk _) answered.symm))⟩
      · exact .inr ⟨market, (lists market).symm.trans listed⟩
    · -- A handle that is given later was given at a registration behind, or was listed after the first operation.
      rcases ih (step.lists lists) entry later answered with ⟨book, registered⟩ | ⟨market, listed⟩
      · exact .inl ⟨book, List.mem_cons_of_mem _ registered⟩
      · -- It was listed after the first operation: by this operation, or before it.
        rcases Listing.origin listed with ⟨book, same⟩ | before
        · exact .inl ⟨book, List.mem_cons.mpr (.inl same.symm)⟩
        · exact .inr ⟨market, before⟩

/-- How events of a market are answered one after another, and what becomes of the market's book. -/
def takeAll (book : Option Book) : List Event → List (Except BookError Answer) × Option Book
  | [] => ([], book)
  | event :: events =>
    let (answer, next) := takeIn book event
    let (answers, last) := takeAll next events
    (answer :: answers, last)

/-- The answer to an event, if it is one of a market. -/
def Entry.answerFor? (market : MarketId) : Entry → Option (Except BookError Answer)
  | ⟨.apply event, answer⟩ => if event.market = market then some answer else none
  | _ => none

/-- The answers to the events of a market. -/
def answersFor (market : MarketId) (entries : List Entry) : List (Except BookError Answer) :=
  entries.filterMap (Entry.answerFor? market)

/-- A market sees of a stream of events only its own: they are answered as if there were no others. -/
theorem run_lookup (events : List Event) (tracks : registry.Tracks) (market : MarketId) :
    answersFor market (registry.run (events.map .apply)).1 =
        (takeAll (registry.lookup market) (events.filter (·.market = market))).1 ∧
      (registry.run (events.map .apply)).2.lookup market =
        (takeAll (registry.lookup market) (events.filter (·.market = market))).2 := by
  induction events generalizing registry with
  | nil => exact ⟨rfl, rfl⟩
  | cons event events ih =>
    -- The first event is delivered, and the others go on from the registry that it leaves.
    have step := step_perform registry (.apply event)
    obtain ⟨answered, moved, others⟩ := step.lookup tracks
    obtain ⟨answers, last⟩ := ih (step.tracks nofun tracks)
    by_cases concerns : event.market = market
    · -- The market's own event comes first, and its book goes on from there.
      subst concerns
      have here : (event :: events).filter (·.market = event.market) =
          event :: events.filter (·.market = event.market) := List.filter_cons_of_pos (decide_eq_true rfl)
      rw [moved] at answers last
      rw [here]
      refine ⟨?_, last⟩
      have own : Entry.answerFor? event.market ⟨.apply event, (registry.perform (.apply event)).1⟩ =
          some (registry.perform (.apply event)).1 := if_pos rfl
      simp only [List.map_cons, run, takeAll, answersFor, List.filterMap_cons_some own]
      exact congrArg₂ List.cons answered answers
    · -- The event is one of another market and leaves this one alone.
      have elsewhere : (event :: events).filter (·.market = market) = events.filter (·.market = market) :=
        List.filter_cons_of_neg (by simpa using concerns)
      rw [elsewhere]
      rw [others market (Ne.symm concerns)] at answers last
      refine ⟨?_, last⟩
      have foreign : Entry.answerFor? market ⟨.apply event, (registry.perform (.apply event)).1⟩ = none :=
        if_neg concerns
      simp only [List.map_cons, run, answersFor, List.filterMap_cons_none foreign]
      exact answers

/--
Books are kept apart, and events find theirs.

Whatever has been asked of a registry before, a book that is registered gets a handle of its own, and from then on is
what it would be after the events that reach the handle, with the same answers; a handle comes from a registration.
What a registry answers follows from what its answers so far have listed. In place an operation does what it does as
a whole, and a refusal changes nothing. Streams that agree on the order within each market have the same answers and
lead to the same books.
-/
theorem history_isolated (operations : List Operation) (brings : ∀ operation ∈ operations, operation.Brings) :
    let entries := (empty.run operations).1
    let registry := (empty.run operations).2
    let listing := entries.foldl Listing.after .empty
    (∀ book handle next, registry.perform (.register book) = (.ok (.handle handle), next) →
      (∀ entry ∈ entries, entry.answer ≠ .ok (.handle handle)) ∧
      ∀ later,
        let taken := deliveries handle (listing.after ⟨.register book, .ok (.handle handle)⟩) (next.run later).1
        (next.run later).2.book? handle = some (book.carryOut (taken.map Prod.fst)).2 ∧
          taken.map Prod.snd = (book.carryOut (taken.map Prod.fst)).1.map (Except.map Answer.report)) ∧
    (∀ entry ∈ entries, ∀ handle, entry.answer = .ok (.handle handle) →
      ∃ book, ⟨.register book, .ok (.handle handle)⟩ ∈ entries) ∧
    registry.Routes listing ∧
    (∀ operation, registry.perform operation = Change.whole registry (registry.attempt operation)) ∧
    (∀ operation error next, registry.perform operation = (.error error, next) → next = registry) ∧
    ∀ events events' : List Event,
      (∀ market, events.filter (·.market = market) = events'.filter (·.market = market)) →
      ∀ market, answersFor market (registry.run (events.map .apply)).1 =
          answersFor market (registry.run (events'.map .apply)).1 ∧
        (registry.run (events.map .apply)).2.lookup market = (registry.run (events'.map .apply)).2.lookup market := by
  intro entries registry listing
  have tracks : registry.Tracks := run_tracks operations brings tracks_empty
  -- Everything is said about the registry that the history has left, which lists what its answers say.
  have unlisted : empty.Lists .empty := fun market => by simp [empty, Listing.empty]
  have lists : registry.Lists listing := run_lists operations unlisted
  refine ⟨fun book handle next registered => ?_, fun entry member handle given => ?_, tracks.routes lists,
    fun operation => on_inPlace operation, fun operation error next => eq_of_refused,
    fun events events' same market => ?_⟩
  · have step := step_perform registry (.register book)
    rw [registered] at step
    obtain ⟨unused, held⟩ := step.registers
    -- Behind the new handle the book is alone from here on.
    refine ⟨fun entry member given => ?_, fun later => run_book? later (step.lists lists) held⟩
    -- Nobody was there before, but behind the handles of before there are books.
    obtain ⟨other, there⟩ := run_answered operations brings tracks_empty entry member given
    exact absurd (unused.symm.trans there) (by simp)
  · -- Nothing was listed at first, so the handle comes from a registration.
    rcases run_origin operations unlisted entry member given with registered | ⟨market, listed⟩
    · exact registered
    · simp [Listing.empty] at listed
  · -- For one market both streams are the same.
    obtain ⟨answers, last⟩ := run_lookup events tracks market
    obtain ⟨answers', last'⟩ := run_lookup events' tracks market
    rw [answers, answers', last, last', same market]
    exact ⟨rfl, rfl⟩

/-- Two markets are listed with a book each, and then the first of them is deregistered. -/
def relisting : List Operation :=
  [.register (.fresh ⟨⟨1⟩, ⟨7⟩⟩), .register (.fresh ⟨⟨1⟩, ⟨8⟩⟩), .deregister ⟨7⟩]

/-- A seller of five comes to a market. -/
def offer (market : MarketId) : Event := ⟨market, 0, .add ⟨⟨1⟩, ⟨1⟩, 0, .sell, 5, ⟨100⟩⟩⟩

/-- A book in the place of another takes in what comes to the market, and the other what is sent to its handle. -/
theorem history_isolated_relisting :
    (∀ operation ∈ relisting, operation.Brings) ∧
      ∃ next,
        (empty.run relisting).2.perform (.register (.fresh ⟨⟨2⟩, ⟨7⟩⟩)) = (.ok (.handle ⟨2⟩), next) ∧
        (next.run [.apply (offer ⟨7⟩), .applyAt ⟨0⟩ (offer ⟨7⟩), .apply (offer ⟨8⟩)]).2.book? ⟨2⟩ =
          some ((Book.fresh ⟨⟨2⟩, ⟨7⟩⟩).carryOut [offer ⟨7⟩]).2 := by
  -- Only the two registrations bring a book, and both bring one that has just been started.
  have brings : ∀ operation ∈ relisting, operation.Brings := by
    simp only [relisting, List.forall_mem_cons]
    refine ⟨?_, ?_, ?_, List.forall_mem_nil _⟩
    · intro book same
      obtain rfl := Operation.register.inj same
      exact .start _ _
    · intro book same
      obtain rfl := Operation.register.inj same
      exact .start _ _
    · intro book same
      simp at same
  -- Registering a market again, after it was taken off, gives a book of its own.
  refine ⟨brings, _, rfl, ?_⟩
  obtain ⟨own, -⟩ := history_isolated relisting brings
  obtain ⟨-, isolated⟩ := own (.fresh ⟨⟨2⟩, ⟨7⟩⟩) ⟨2⟩ _ rfl
  exact (isolated [.apply (offer ⟨7⟩), .applyAt ⟨0⟩ (offer ⟨7⟩), .apply (offer ⟨8⟩)]).1

end LimitBook.Registry
