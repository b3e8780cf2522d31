import LimitBook.Proofs.Registry.InPlace

/-!
Single operations of a registry. What one can do is said once, guards and answers included: what is listed afterwards
can be told from the answer, an event concerns the book that it reaches and no other, and a market is always listed
with a book that follows it.
-/

namespace LimitBook.Registry

/-- An operation is carried out in place on whatever the one before it has left. -/
def perform (registry : Registry) (operation : Operation) : Except BookError Answer × Registry :=
  (inPlace operation).on registry

/-- An operation, and what was answered to it. -/
structure Entry where
  operation : Operation
  answer : Except BookError Answer

/-- The handle that is listed for each market, going by what was answered. -/
abbrev Listing := MarketId → Option BookHandle

/-- Nothing has been listed yet. -/
def Listing.empty : Listing := fun _ => none

/-- A book that was registered is listed until its market is deregistered; nothing else matters. -/
def Listing.after (listing : Listing) : Entry → Listing
  | ⟨.register book, .ok (.handle handle)⟩ => fun market =>
    if book.market = market then some handle else listing market
  | ⟨.deregister gone, .ok _⟩ => fun market => if gone = market then none else listing market
  | _ => listing

/-- The event that an operation brings to a handle: directly, or because the handle is listed for its market. -/
def Operation.reaching? (handle : BookHandle) (listing : Listing) : Operation → Option Event
  | .applyAt other event => if other = handle then some event else none
  | .apply event => if listing event.market = some handle then some event else none
  | .register _ | .deregister _ => none

/-- The book behind a handle is replaced. -/
def put (registry : Registry) (handle : BookHandle) (book : Book) : Registry :=
  { registry with shelf := registry.shelf.setIfInBounds handle.place book }

/-- A replaced book is found behind its handle. -/
theorem book?_put_self {registry : Registry} {handle : BookHandle} {old : Book}
    (held : registry.book? handle = some old) (book : Book) :
    (registry.put handle book).book? handle = some book := by
  -- There is a book in this place, and so the place exists and is overwritten.
  have inside : handle.place < registry.shelf.size := (Array.getElem?_eq_some_iff.mp held).1
  unfold put book?
  rw [Array.getElem?_setIfInBounds_self, if_pos inside]

/-- Behind any other handle the book is the same as before. -/
theorem book?_put_of_ne {registry : Registry} {handle other : BookHandle} (apart : handle ≠ other) (book : Book) :
    (registry.put handle book).book? other = registry.book? other := by
  -- Handles that differ point at different places.
  have places : handle.place ≠ other.place := fun same => apart (congrArg BookHandle.mk same)
  unfold put book?
  rw [Array.getElem?_setIfInBounds_ne places]

/-- A book that is put on the shelf is found in the last place. -/
theorem book?_push_self (shelf : Array Book) (book : Book) (listed : Std.ExtTreeMap MarketId BookHandle) :
    (Registry.mk (shelf.push book) listed).book? ⟨shelf.size⟩ = some book := by
  -- The new book stands in the place behind all others.
  unfold book?
  rw [Array.getElem?_push, if_pos rfl]

/-- The others stay in their places when a book is put on the shelf. -/
theorem book?_push_of_held {registry : Registry} {handle : BookHandle} {old : Book}
    (held : registry.book? handle = some old) (book : Book) (listed : Std.ExtTreeMap MarketId BookHandle) :
    (Registry.mk (registry.shelf.push book) listed).book? handle = some old := by
  -- The place of a handle that holds a book is within the shelf of before, and a push changes none of these.
  have inside : handle.place < registry.shelf.size := (Array.getElem?_eq_some_iff.mp held).1
  unfold book?
  rw [Array.getElem?_push, if_neg (Nat.ne_of_lt inside)]
  exact held

/-- A listing agrees with what the registry looks up. -/
def Lists (registry : Registry) (listing : Listing) : Prop := ∀ market, registry.listed[market]? = listing market

/-- What an operation can do to a registry, and what is answered then. -/
inductive Step (registry : Registry) : Operation → Except BookError Answer → Registry → Prop
  | registered {book : Book} (free : registry.listed[book.market]? = none) :
    Step registry (.register book) (.ok (.handle ⟨registry.shelf.size⟩))
      ⟨registry.shelf.push book, registry.listed.insert book.market ⟨registry.shelf.size⟩⟩
  | duplicate {book : Book} {handle : BookHandle} (taken : registry.listed[book.market]? = some handle) :
    Step registry (.register book) (.error (.duplicateBook book.market)) registry
  | deregistered {market : MarketId} {handle : BookHandle} (found : registry.listed[market]? = some handle) :
    Step registry (.deregister market) (.ok (.handle handle)) { registry with listed := registry.listed.erase market }
  | absent {market : MarketId} (free : registry.listed[market]? = none) :
    Step registry (.deregister market) (.error (.bookNotFound market)) registry
  | unlisted {event : Event} (free : registry.listed[event.market]? = none) :
    Step registry (.apply event) (.error (.bookNotFound event.market)) registry
  | routed {event : Event} {handle : BookHandle} {answer : Except BookError Answer} {next : Registry}
    (found : registry.listed[event.market]? = some handle) (sent : Step registry (.applyAt handle event) answer next) :
    Step registry (.apply event) answer next
  | unknown {event : Event} {handle : BookHandle} (nothing : registry.book? handle = none) :
    Step registry (.applyAt handle event) (.error (.bookNotFound event.market)) registry
  | delivered {event : Event} {handle : BookHandle} {book : Book} (held : registry.book? handle = some book) :
    Step registry (.applyAt handle event) (((Book.applyInPlace event).on book).1.map .report)
      (registry.put handle ((Book.applyInPlace event).on book).2)

variable {registry next : Registry} {operation : Operation} {answer : Except BookError Answer}
  {handle : BookHandle} {book : Book} {listing : Listing}

/-- Sending an event to a handle is a step. -/
theorem step_applyAt (handle : BookHandle) (event : Event) :
    Step registry (.applyAt handle event) (registry.perform (.applyAt handle event)).1
      (registry.perform (.applyAt handle event)).2 := by
  -- In the registry as it is the event reaches the book of the handle, if there is one.
  have sent : (applyAtInPlace handle event).on registry = applyAtInPlace handle event registry := rfl
  unfold perform inPlace
  rw [Change.on_map, sent]
  unfold applyAtInPlace
  cases held : registry.book? handle with
  | none => exact .unknown held
  | some book => exact .delivered held

/-- Every operation is a step. -/
theorem step_perform (registry : Registry) (operation : Operation) :
    Step registry operation (registry.perform operation).1 (registry.perform operation).2 := by
  cases operation with
  | register book =>
    unfold perform
    rw [on_inPlace]
    -- The market is free or taken, and the registry only looks.
    simp only [attempt, register, contains, Std.ExtTreeMap.contains_eq_isSome_getElem?]
    cases listed : registry.listed[book.market]? with
    | none => exact .registered listed
    | some handle => exact .duplicate listed
  | deregister market =>
    unfold perform
    rw [on_inPlace]
    simp only [attempt, deregister, find]
    cases listed : registry.listed[market]? with
    | none => exact .absent listed
    | some handle => exact .deregistered listed
  | apply event =>
    -- Without a handle the event is refused here, and with one it is sent on.
    cases listed : registry.listed[event.market]? with
    | none =>
      unfold perform
      rw [on_inPlace]
      simp only [attempt, apply, find, listed]
      exact .unlisted listed
    | some handle =>
      -- The event goes where the handle would have taken it.
      have same : registry.perform (.apply event) = registry.perform (.applyAt handle event) := by
        unfold perform
        rw [on_inPlace, on_inPlace]
        simp only [attempt, apply, find, listed]
        rfl
      rw [same]
      exact .routed listed (step_applyAt handle event)
  | applyAt handle event => exact step_applyAt handle event

/-- What is listed after a step can be told from its answer. -/
theorem Step.lists (step : Step registry operation answer next) (lists : registry.Lists listing) :
    next.Lists (listing.after ⟨operation, answer⟩) := by
  -- The induction follows an event to the handle that it is routed to.
  induction step with
  | @registered book free =>
    intro market
    -- The entry of the market is the new handle, and the others are as they were.
    show (registry.listed.insert book.market _)[market]? = if book.market = market then _ else listing market
    rw [Std.ExtTreeMap.getElem?_insert, lists market]
    simp only [Std.LawfulEqCmp.compare_eq_iff_eq]
  | @deregistered gone handle found =>
    intro market
    -- The entry of the market is gone, and the others are as they were.
    show (registry.listed.erase gone)[market]? = if gone = market then none else listing market
    rw [Std.ExtTreeMap.getElem?_erase, lists market]
    simp only [Std.LawfulEqCmp.compare_eq_iff_eq]
  -- Neither a refusal nor an event touches what is listed.
  | duplicate taken => exact lists
  | absent free => exact lists
  | unlisted free => exact lists
  | unknown nothing => exact lists
  | delivered held => exact lists
  | routed found sent ih => exact ih

/-- A step carries an event out on the book behind a handle if it reaches the handle, and else leaves it alone. -/
theorem Step.book? (step : Step registry operation answer next) (lists : registry.Lists listing)
    (held : registry.book? handle = some book) :
    match operation.reaching? handle listing with
    | none => next.book? handle = some book
    | some event => answer = ((Book.applyInPlace event).on book).1.map .report ∧
        next.book? handle = some ((Book.applyInPlace event).on book).2 := by
  induction step with
  | registered free => exact book?_push_of_held held _ _
  | duplicate taken => exact held
  | deregistered found => exact held
  | absent free => exact held
  | @unlisted event free =>
    -- The event reaches nobody.
    have nowhere : listing event.market ≠ some handle := by
      rw [← lists, free]
      simp
    simp only [Operation.reaching?, if_neg nowhere]
    exact held
  | @unknown event other nothing =>
    -- Behind the handle that the event was sent to there is nothing, so it is another one.
    have apart : other ≠ handle := by
      intro same
      rw [same, held] at nothing
      simp at nothing
    simp only [Operation.reaching?, if_neg apart]
    exact held
  | @delivered event other there found =>
    by_cases same : other = handle
    · -- There is one book behind the handle, and the event is carried out on it.
      subst same
      obtain rfl : book = there := Option.some.inj (held.symm.trans found)
      have reaches : (Operation.applyAt other event).reaching? other listing = some event := if_pos rfl
      rw [reaches]
      exact ⟨rfl, book?_put_self held _⟩
    · -- The event went to another handle, and this one has the book that it had.
      simp only [Operation.reaching?, if_neg same]
      rw [book?_put_of_ne same]
      exact held
  | @routed event other answer next found sent ih =>
    -- The event is sent to the handle that is listed for its market.
    have routes : (Operation.apply event).reaching? handle listing =
        (Operation.applyAt other event).reaching? handle listing := by
      simp only [Operation.reaching?, ← lists event.market, found, Option.some.injEq]
    rw [routes]
    exact ih

/-- The books can be reached by following a stream, and a market is listed with a book that follows it. -/
structure Tracks (registry : Registry) : Prop where
  books : ∀ handle book, registry.book? handle = some book → book.Reachable
  listed : ∀ market handle, registry.listed[market]? = some handle →
    ∃ book, registry.book? handle = some book ∧ book.market = market

/-- An empty registry has no book to speak of. -/
theorem tracks_empty : empty.Tracks where
  -- Nothing is held and nothing is listed.
  books handle book held := by simp [empty, book?] at held
  listed market handle found := by simp [empty] at found

/-- The new book that an operation brings along can be reached by following a stream. -/
def Operation.Brings (operation : Operation) : Prop := ∀ book, operation = .register book → book.Reachable

/-- A book that follows a stream may be put on the shelf and listed for its market. -/
theorem Tracks.push (tracks : registry.Tracks) (reached : book.Reachable) :
    Tracks ⟨registry.shelf.push book, registry.listed.insert book.market ⟨registry.shelf.size⟩⟩ := by
  refine ⟨fun handle other held => ?_, fun market handle found => ?_⟩
  · -- In the last place is the new book, and in the others are the books of before.
    have there : (registry.shelf.push book)[handle.place]? = some other := held
    rw [Array.getElem?_push] at there
    split at there
    · rw [← Option.some.inj there]
      exact reached
    · exact tracks.books handle other there
  · rw [Std.ExtTreeMap.getElem?_insert] at found
    simp only [Std.LawfulEqCmp.compare_eq_iff_eq] at found
    split at found
    · next same =>
      rw [← Option.some.inj found]
      exact ⟨book, book?_push_self _ _ _, same⟩
    · -- The books of other markets are behind the handles that were listed for them.
      obtain ⟨other, held, follows⟩ := tracks.listed market handle found
      exact ⟨other, book?_push_of_held held _ _, follows⟩

/-- A book may be replaced by one that follows the same market. -/
theorem Tracks.put (tracks : registry.Tracks) {old : Book} (held : registry.book? handle = some old)
    (reached : book.Reachable) (follows : book.market = old.market) : (registry.put handle book).Tracks := by
  refine ⟨fun other taken there => ?_, fun market other found => ?_⟩
  · -- The handle is the one that was overwritten or another one.
    by_cases same : handle = other
    · subst same
      rw [book?_put_self held] at there
      rw [← Option.some.inj there]
      exact reached
    · rw [book?_put_of_ne same] at there
      exact tracks.books other taken there
  · obtain ⟨listed, there, own⟩ := tracks.listed market other found
    -- The market leads to the overwritten book or to another one.
    by_cases same : handle = other
    · -- The market of the replaced book is that of the new one.
      subst same
      obtain rfl : old = listed := Option.some.inj (held.symm.trans there)
      exact ⟨book, book?_put_self held _, follows.trans own⟩
    · exact ⟨listed, (book?_put_of_ne same _).trans there, own⟩

/-- An event that a registry takes in was taken in by the listed book of its market, and nothing else was done. -/
theorem Tracks.apply_ok (tracks : registry.Tracks) {event : Event} {report : Report}
    (accepted : registry.apply event = .ok (report, next)) :
    ∃ handle book after, registry.listed[event.market]? = some handle ∧ registry.book? handle = some book ∧
      book.market = event.market ∧ book.Takes event report after ∧ next = registry.put handle after ∧ next.Tracks := by
  -- The event was accepted, and so its market is listed and the book behind the handle took it.
  unfold Registry.apply find at accepted
  cases found : registry.listed[event.market]? with
  | none =>
    rw [found] at accepted
    nomatch accepted
  | some handle =>
    obtain ⟨book, held, follows⟩ := tracks.listed event.market handle found
    -- What the registry does is what sending by the handle does.
    rw [found] at accepted
    have sent : registry.applyAt handle event = .ok (report, next) := accepted
    unfold applyAt at sent
    simp only [held] at sent
    cases outcome : book.apply event with
    | error error =>
      rw [outcome] at sent
      nomatch sent
    | ok pair =>
      rw [outcome] at sent
      -- The book took the event, and it is put back in its place.
      obtain ⟨rfl, rfl⟩ := Prod.mk.inj (Except.ok.inj sent)
      have reached := tracks.books handle book held
      have carried := reached.carried event
      rw [Book.on_applyInPlace_ok.mpr outcome] at carried
      exact ⟨handle, book, pair.2, rfl, held, follows, (reached.sound.takes outcome).2, rfl,
        tracks.put held carried.1 carried.2⟩

/-- A step keeps the books in step with the markets that they are listed for. -/
theorem Step.tracks (step : Step registry operation answer next) (brings : operation.Brings)
    (tracks : registry.Tracks) : next.Tracks := by
  induction step with
  | @registered book free => exact tracks.push (brings book rfl)
  | @deregistered gone handle found =>
    -- The book stays behind its handle, and is only no longer listed.
    refine ⟨tracks.books, fun market other found => ?_⟩
    rw [Std.ExtTreeMap.getElem?_erase] at found
    split at found
    · simp at found
    · exact tracks.listed market other found
  | @delivered event handle book held =>
    obtain ⟨reached, follows⟩ := (tracks.books handle book held).carried event
    exact tracks.put held reached follows
  -- An event that is routed brings no book along.
  | routed found sent ih => exact ih nofun
  | duplicate taken => exact tracks
  | absent free => exact tracks
  | unlisted free => exact tracks
  | unknown nothing => exact tracks

/-- A handle that is answered leads to a book registered just now, or it was listed and leads where it did. -/
theorem Step.gives (step : Step registry operation answer next) (given : answer = .ok (.handle handle)) :
    (∃ book, operation = .register book ∧ next.book? handle = some book) ∨
      ∃ market : MarketId, registry.listed[market]? = some handle ∧ next.shelf = registry.shelf := by
  induction step with
  | @registered book free =>
    obtain rfl := Answer.handle.inj (Except.ok.inj given)
    exact .inl ⟨book, rfl, book?_push_self _ _ _⟩
  | @deregistered market found listed =>
    obtain rfl := Answer.handle.inj (Except.ok.inj given)
    exact .inr ⟨market, listed, rfl⟩
  | routed found sent ih =>
    -- What the event was routed to is no registration.
    rcases ih given with ⟨book, other, -⟩ | listed
    · exact absurd other (by simp)
    · exact .inr listed
  | @delivered event other book held =>
    -- An event is answered with a report.
    cases outcome : ((Book.applyInPlace event).on book).1 with
    | ok report => simp [outcome, Except.map] at given
    | error error => simp [outcome, Except.map] at given
  | duplicate taken => simp at given
  | absent free => simp at given
  | unlisted free => simp at given
  | unknown nothing => simp at given

/-- A handle is listed because it was, or because a book has just been given it. -/
theorem Listing.origin {entry : Entry} {market : MarketId} (listed : listing.after entry market = some handle) :
    (∃ book, entry = ⟨.register book, .ok (.handle handle)⟩) ∨ listing market = some handle := by
  -- Only a registration lists a market anew; any other entry leaves it as it was, or takes it off.
  unfold Listing.after at listed
  split at listed
  · next book given =>
    split at listed
    · obtain rfl := Option.some.inj listed
      exact .inl ⟨book, rfl⟩
    · exact .inr listed
  · split at listed
    · simp at listed
    · exact .inr listed
  · exact .inr listed

/-- A book is registered if its market is free, and turned away if not. -/
theorem Step.answer_register (step : Step registry (.register book) answer next) :
    answer = match registry.listed[book.market]? with
      | some _ => .error (.duplicateBook book.market)
      | none => .ok (.handle ⟨registry.shelf.size⟩) := by
  -- A book is registered or refused according to whether its market is free.
  cases step with
  | registered free => rw [free]
  | duplicate taken => rw [taken]

/-- A book that is registered gets a handle behind which nothing has been. -/
theorem Step.registers (step : Step registry (.register book) (.ok (.handle handle)) next) :
    registry.book? handle = none ∧ next.book? handle = some book := by
  -- A registration puts the book in a new place.
  cases step with
  | registered free => exact ⟨Array.getElem?_eq_none (Nat.le_refl _), book?_push_self _ _ _⟩

/-- A market that is listed is deregistered, and any other is not found. -/
theorem Step.answer_deregister {market : MarketId} (step : Step registry (.deregister market) answer next) :
    answer = match registry.listed[market]? with
      | some handle => .ok (.handle handle)
      | none => .error (.bookNotFound market) := by
  -- A market can be taken off if and only if it is listed.
  cases step with
  | deregistered found => rw [found]
  | absent free => rw [free]

/-- For an event whose market is not listed there is no book. -/
theorem Step.answer_unlisted {event : Event} (step : Step registry (.apply event) answer next)
    (free : registry.listed[event.market]? = none) : answer = .error (.bookNotFound event.market) := by
  -- An event that was sent on to a book would have found its market listed.
  cases step with
  | unlisted _ => rfl
  | routed found sent =>
    rw [free] at found
    simp at found

/-- An event whose market is listed is carried out on a book that follows the market. -/
theorem Step.delivery {event : Event} (step : Step registry (.apply event) answer next) (tracks : registry.Tracks)
    (found : registry.listed[event.market]? = some handle) :
    ∃ book, registry.book? handle = some book ∧ book.market = event.market ∧
      answer = ((Book.applyInPlace event).on book).1.map .report ∧
      next = registry.put handle ((Book.applyInPlace event).on book).2 := by
  obtain ⟨book, held, follows⟩ := tracks.listed event.market handle found
  refine ⟨book, held, follows, ?_⟩
  cases step with
  -- The market is listed, so that the event was sent on.
  | unlisted free =>
    rw [free] at found
    simp at found
  | routed found' sent =>
    -- There is one handle for the market, and one book behind it.
    obtain rfl := Option.some.inj (found.symm.trans found')
    cases sent with
    | unknown nothing =>
      rw [held] at nothing
      simp at nothing
    | delivered held' =>
      obtain rfl := Option.some.inj (held.symm.trans held')
      exact ⟨rfl, rfl⟩

/-- An event whose market is listed is refused only for what the market's book has against it. -/
theorem Step.refusal_routed {event : Event} {error : BookError} (step : Step registry (.apply event) answer next)
    (tracks : registry.Tracks) (found : registry.listed[event.market]? = some handle)
    (refused : answer = .error error) :
    ∃ book : Book, book.market = event.market ∧ book.refusal? event = some error := by
  obtain ⟨book, held, follows, rfl, -⟩ := step.delivery tracks found
  refine ⟨book, follows, ?_⟩
  -- What is answered is the refusal of the book itself.
  cases outcome : (Book.applyInPlace event).on book with
  | mk reported left =>
    rw [outcome] at refused
    cases reported with
    | ok report => simp [Except.map] at refused
    | error reason =>
      obtain rfl := Except.error.inj refused
      have sound := (tracks.books handle book held).sound
      exact sound.apply_eq_error_iff.mp (Book.on_applyInPlace_error.mp outcome).1

/-- How a registry with such a listing answers what it is asked next. -/
structure Routes (registry : Registry) (listing : Listing) : Prop where
  /-- A book is turned away exactly if its market is listed. -/
  duplicate : ∀ book, (∃ market, (registry.perform (.register book)).1 = .error (.duplicateBook market)) ↔
    listing book.market ≠ none
  /-- Otherwise it is given a handle. -/
  registers : ∀ book, listing book.market = none →
    ∃ handle, (registry.perform (.register book)).1 = .ok (.handle handle)
  /-- A market that is deregistered gives up its handle, if it is listed. -/
  deregisters : ∀ market, (registry.perform (.deregister market)).1 =
    match listing market with
    | some handle => .ok (.handle handle)
    | none => .error (.bookNotFound market)
  /-- An event finds no book exactly if its market is not listed. -/
  notFound : ∀ event, (∃ market, (registry.perform (.apply event)).1 = .error (.bookNotFound market)) ↔
    listing event.market = none
  /-- An event never finds the book of another market. -/
  noMismatch : ∀ event expected found,
    (registry.perform (.apply event)).1 ≠ .error (.marketMismatch expected found)

/-- A registry answers by what is listed. -/
theorem Tracks.routes (tracks : registry.Tracks) (lists : registry.Lists listing) : registry.Routes listing where
  duplicate book := by
    rw [← lists book.market, (step_perform registry (.register book)).answer_register]
    cases registry.listed[book.market]? with
    | none => simp
    | some handle => simp
  registers book free := by
    rw [← lists book.market] at free
    rw [(step_perform registry (.register book)).answer_register, free]
    exact ⟨_, rfl⟩
  deregisters market := by
    rw [← lists market, (step_perform registry (.deregister market)).answer_deregister]
  notFound event := by
    rw [← lists event.market]
    have step := step_perform registry (.apply event)
    constructor
    · intro ⟨market, unfound⟩
      -- If a book were listed, the answer would be its own, and no book says so of itself.
      by_contra listed
      obtain ⟨handle, found⟩ := Option.ne_none_iff_exists'.mp listed
      obtain ⟨book, -, refusal⟩ := step.refusal_routed tracks found unfound
      exact book.refusal?_ne_bookNotFound event market refusal
    · intro free
      exact ⟨event.market, step.answer_unlisted free⟩
  noMismatch event expected found mismatched := by
    have step := step_perform registry (.apply event)
    cases listed : registry.listed[event.market]? with
    | none =>
      -- Without a book nothing is compared.
      rw [step.answer_unlisted listed] at mismatched
      simp at mismatched
    | some handle =>
      -- The listed book follows the market of the event, so it does not take it for one of another.
      obtain ⟨book, follows, refusal⟩ := step.refusal_routed tracks listed mismatched
      exact Book.refusal?_ne_marketMismatch follows.symm expected found refusal

/-- A refusal leaves the registry as it was, the books behind all handles included. -/
theorem eq_of_refused {error : BookError} (refused : registry.perform operation = (.error error, next)) :
    next = registry := by
  -- In place an operation does what it does on the whole, and a refusal there leaves the registry as it is.
  unfold perform at refused
  rw [on_inPlace] at refused
  cases outcome : registry.attempt operation with
  | error reason =>
    rw [outcome] at refused
    exact (Prod.mk.inj refused).2.symm
  | ok taken =>
    rw [outcome] at refused
    exact absurd (Prod.mk.inj refused).1 (by simp)

/-- The listed book of a market. -/
def lookup (registry : Registry) (market : MarketId) : Option Book := registry.listed[market]?.bind registry.book?

/-- The listed book of a market is behind the handle that is listed for it. -/
theorem lookup_eq_book? {market : MarketId} (found : registry.listed[market]? = some handle) :
    registry.lookup market = registry.book? handle := by
  -- Looking a market up is following the handle that is listed for it.
  unfold Registry.lookup
  rw [found]
  rfl

/-- A listed book that is replaced is the listed book of its market. -/
theorem lookup_put_self {market : MarketId} {old : Book} (found : registry.listed[market]? = some handle)
    (held : registry.book? handle = some old) (book : Book) : (registry.put handle book).lookup market = some book := by
  -- The market is listed with the same handle.
  have same : (registry.put handle book).listed[market]? = some handle := found
  rw [lookup_eq_book? same]
  exact book?_put_self held book

/-- The listed books of the other markets are the same as before. -/
theorem Tracks.lookup_put_of_ne (tracks : registry.Tracks) {market other : MarketId} {old : Book}
    (held : registry.book? handle = some old) (follows : old.market = market) (apart : other ≠ market) (book : Book) :
    (registry.put handle book).lookup other = registry.lookup other := by
  show (registry.listed[other]?).bind _ = (registry.listed[other]?).bind _
  cases elsewhere : registry.listed[other]? with
  | none => rfl
  | some handle' =>
    -- Behind one handle there cannot be the books of two markets.
    have distinct : handle ≠ handle' := by
      intro same
      obtain ⟨book', held', follows'⟩ := tracks.listed other handle' elsewhere
      rw [← same, held] at held'
      rw [← Option.some.inj held', follows] at follows'
      exact apart follows'.symm
    exact book?_put_of_ne distinct _

/-- How an event of a market is answered, and what becomes of the market's book, if there is one. -/
def takeIn : Option Book → Event → Except BookError Answer × Option Book
  | none, event => (.error (.bookNotFound event.market), none)
  | some book, event =>
    (((Book.applyInPlace event).on book).1.map .report, some ((Book.applyInPlace event).on book).2)

/-- An event concerns the listed book of its market alone, and its answer depends on nothing else. -/
theorem Step.lookup {event : Event} (step : Step registry (.apply event) answer next) (tracks : registry.Tracks) :
    answer = (takeIn (registry.lookup event.market) event).1 ∧
      next.lookup event.market = (takeIn (registry.lookup event.market) event).2 ∧
      ∀ market, market ≠ event.market → next.lookup market = registry.lookup market := by
  cases found : registry.listed[event.market]? with
  | none =>
    have nobody : registry.lookup event.market = none := by rw [Registry.lookup, found]; rfl
    rw [nobody]
    -- Nobody was reached, and nothing has changed.
    cases step with
    | unlisted free => exact ⟨rfl, nobody, fun market apart => rfl⟩
    | routed found' sent =>
      rw [found] at found'
      simp at found'
  -- The event went to the one book that is listed, and this stands for its market as before.
  | some handle =>
    obtain ⟨book, held, follows, rfl, rfl⟩ := step.delivery tracks found
    have present : registry.lookup event.market = some book := (lookup_eq_book? found).trans held
    rw [present]
    exact ⟨rfl, lookup_put_self found held _, fun market apart => tracks.lookup_put_of_ne held follows apart _⟩

end LimitBook.Registry
