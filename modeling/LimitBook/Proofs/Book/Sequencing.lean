import LimitBook.Event.Script
import LimitBook.Proofs.Book.History

/-!
The place of a book in its stream: whatever is fed to it, in whatever order and however often, it takes in the numbers
from its origin on, each of them once and none of them early.
-/

namespace LimitBook

/-- The events of one market with consecutive numbers, the first of them given. -/
def Consecutive (market : MarketId) (n : Nat) : List Event → Prop
  | [] => True
  | event :: events => event.market = market ∧ event.sequence.toNat = n ∧ Consecutive market (n + 1) events

namespace Script

/-- The events that a script makes of some actions, one after another. -/
def write (script : Script) : List Action → List Event
  | [] => []
  | .add order :: actions => (script.add order).1 :: (script.add order).2.write actions
  | .remove id :: actions => (script.remove id).1 :: (script.remove id).2.write actions

/-- A script makes a stream of consecutive numbers, as long as its numbers last. -/
theorem consecutive_write (script : Script) (actions : List Action)
    (lasts : script.next.toNat + actions.length < UInt64.size) :
    Consecutive script.market script.next.toNat (script.write actions) := by
  induction actions generalizing script with
  | nil => trivial
  | cons action actions ih =>
    -- Whatever the action is, the number given out is followed by its successor.
    rw [List.length_cons] at lasts
    have successor : (script.next + 1).toNat = script.next.toNat + 1 := by
      simp only [UInt64.size] at lasts
      rw [UInt64.toNat_add, UInt64.toNat_one]
      omega
    cases action with
    | add order =>
      have others := ih (script.add order).2 (by show (script.next + 1).toNat + _ < _; omega)
      exact ⟨rfl, rfl, successor ▸ others⟩
    | remove id =>
      have others := ih (script.remove id).2 (by show (script.next + 1).toNat + _ < _; omega)
      exact ⟨rfl, rfl, successor ▸ others⟩

end Script

/-- An event as it is delivered: for the first time, or once more. -/
inductive Delivery where
  | first (event : Event)
  | again (event : Event)

namespace Delivery

/-- The event that is delivered. -/
def event : Delivery → Event
  | first event => event
  | again event => event

/-- The call that a delivery makes. -/
def call (delivery : Delivery) : Book.Call := .apply delivery.event

/-- The event of a delivery that is the first of it. -/
def first? : Delivery → Option Event
  | first event => some event
  | again _ => none

/-- The events of some deliveries without those that are delivered once more. -/
def firsts (deliveries : List Delivery) : List Event := deliveries.filterMap first?

/-- The answers to the first deliveries among the answers to all. -/
def answersToFirsts {α : Type} (deliveries : List Delivery) (answers : List α) : List α :=
  (deliveries.zip answers).filterMap fun (delivery, answer) => delivery.first?.map fun _ => answer

end Delivery

namespace Book

/-- The book has accepted these events since the stream began at its origin: the numbers from there up to its own. -/
structure Sequenced (origin : Sequence) (history : List (Event × Report)) (book : Book) : Prop where
  numbers : history.map (fun taken => taken.1.sequence.toNat) = List.range' origin.toNat history.length
  next : book.nextSequence.toNat = origin.toNat + history.length

/-- Whatever is delivered once more has been accepted before. -/
def Redelivers (book : Book) (deliveries : List Delivery) : Prop :=
  ∀ front event back, deliveries = front ++ .again event :: back →
    ∃ taken ∈ book.history (front.map Delivery.call), taken.1 = event

variable {book : Book} {origin : Sequence} {event : Event} {events : List Event} {past : List (Event × Report)}

section Numbers

/-- A fresh book has accepted nothing. -/
theorem sequenced_startingAt (key : BookKey) (origin : Sequence) : Sequenced origin [] (startingAt key origin) :=
  ⟨rfl, rfl⟩

/-- An event is accepted under the number of the book, which moves on by one. -/
theorem Sequenced.call (sequenced : Sequenced origin past book) (sound : book.Sound) (event : Event)
    (below : ∀ taken ∈ book.history [.apply event], taken.1.sequence.toNat + 1 < UInt64.size) :
    Sequenced origin (past ++ book.history [.apply event]) (book.call (.apply event)).2 := by
  rcases sound.call_apply_cases event with ⟨error, -, answer, none⟩ | ⟨report, next, takes, answer, some⟩
  · rwa [none, answer, List.append_nil]
  · rw [some] at below ⊢
    rw [answer]
    have inRange := below _ List.mem_cons_self
    have number : event.sequence.toNat = origin.toNat + past.length := by rw [takes.sequence, sequenced.next]
    refine ⟨?_, ?_⟩
    · -- The number accepted is the one behind those accepted before.
      rw [List.map_append, sequenced.numbers, List.length_append, List.length_singleton, List.range'_concat,
        Nat.one_mul, ← number]
      rfl
    · rw [takes.next_toNat inRange, sequenced.next, List.length_append, List.length_singleton, Nat.add_assoc]

/-- A stream is accepted number by number. -/
theorem Sequenced.run (sequenced : Sequenced origin past book) (sound : book.Sound) (events : List Event)
    (below : ∀ taken ∈ book.history (events.map .apply), taken.1.sequence.toNat + 1 < UInt64.size) :
    Sequenced origin (past ++ book.history (events.map .apply)) (book.run (events.map .apply)).2 := by
  -- The past varies along the events, which are taken in one by one.
  induction events generalizing book past with
  | nil => rwa [List.map_nil, history_nil, List.append_nil]
  | cons event events ih =>
    rw [List.map_cons, history_cons] at below ⊢
    rw [← List.append_assoc]
    show Sequenced origin _ ((book.call (.apply event)).2.run (events.map .apply)).2
    exact ih (sequenced.call sound event fun taken member => below taken (List.mem_append_left _ member))
      (sound.call _) fun taken member => below taken (List.mem_append_right _ member)

/-- A number has been accepted exactly if it lies between the origin and the book's own. -/
theorem Sequenced.exists_iff (sequenced : Sequenced origin past book) {sequence : Sequence} :
    (∃ taken ∈ past, taken.1.sequence = sequence) ↔
      origin.toNat ≤ sequence.toNat ∧ sequence.toNat < book.nextSequence.toNat := by
  -- The sequences of the past are the numbers from the origin on, as far as the cursor has come.
  have listed : (∃ taken ∈ past, taken.1.sequence = sequence) ↔
      sequence.toNat ∈ past.map fun taken => taken.1.sequence.toNat := by
    rw [List.mem_map]
    simp only [UInt64.toNat_inj]
  rw [listed, sequenced.numbers, List.mem_range'_1, sequenced.next]

/-- A number from the origin on has been passed exactly if an event of that number was accepted. -/
theorem Sequenced.isStale_iff (sequenced : Sequenced origin past book) (started : origin ≤ event.sequence) :
    book.isStale event = true ↔ ∃ taken ∈ past, taken.1.sequence = event.sequence := by
  -- What is behind the cursor is what has been taken in since the origin.
  rw [sequenced.exists_iff, and_iff_right (UInt64.le_iff_toNat_le.mp started), ← UInt64.lt_iff_toNat_lt]
  exact decide_eq_true_iff

/-- No number is accepted twice. -/
theorem Sequenced.nodup (sequenced : Sequenced origin past book) :
    (past.map fun taken => taken.1.sequence).Nodup := by
  -- Numbers that follow one another are distinct, and each sequence is told by its number.
  have distinct : ((past.map fun taken => taken.1.sequence).map UInt64.toNat).Nodup := by
    rw [List.map_map]
    show (past.map fun taken => taken.1.sequence.toNat).Nodup
    rw [sequenced.numbers]
    exact List.nodup_range'
  exact List.Nodup.of_map _ distinct

end Numbers

section Redelivery

/-- An event that has been accepted is refused from then on, and its copies change nothing. -/
theorem Sequenced.call_again (sequenced : Sequenced origin past book) (sound : book.Sound)
    (accepted : ∃ taken ∈ past, taken.1 = event) :
    ∃ error, book.call (.apply event) = (some (.error error), book) ∧ book.history [.apply event] = [] := by
  rcases sound.call_apply_cases event with ⟨error, -, answer, none⟩ | ⟨report, next, takes, answer, some⟩
  · exact ⟨error, answer, none⟩
  · -- The number that is taken in next has not been accepted yet.
    obtain ⟨taken, member, rfl⟩ := accepted
    have passed := (sequenced.exists_iff.mp ⟨taken, member, rfl⟩).2
    rw [takes.sequence] at passed
    exact absurd passed (Nat.lt_irrefl _)

/-- Copies of accepted events change no other answer, add nothing to the history, and leave the same book. -/
theorem Sequenced.run_redelivered (sequenced : Sequenced origin past book) (sound : book.Sound)
    (deliveries : List Delivery)
    (redelivers : ∀ front event back, deliveries = front ++ .again event :: back →
      ∃ taken ∈ past ++ book.history (front.map Delivery.call), taken.1 = event)
    (below : ∀ taken ∈ book.history ((Delivery.firsts deliveries).map .apply),
      taken.1.sequence.toNat + 1 < UInt64.size) :
    Delivery.answersToFirsts deliveries (book.run (deliveries.map Delivery.call)).1 =
        (book.run ((Delivery.firsts deliveries).map .apply)).1 ∧
      book.history (deliveries.map Delivery.call) = book.history ((Delivery.firsts deliveries).map .apply) ∧
      (book.run (deliveries.map Delivery.call)).2 = (book.run ((Delivery.firsts deliveries).map .apply)).2 := by
  induction deliveries generalizing book past with
  | nil => exact ⟨rfl, rfl, rfl⟩
  | cons delivery deliveries ih =>
    cases delivery with
    | first event =>
      -- Both runs go on from the book that the event leaves.
      have unfolded : Delivery.firsts (.first event :: deliveries) = event :: Delivery.firsts deliveries := rfl
      rw [unfolded, List.map_cons, history_cons] at below
      have sequenced' := sequenced.call sound event fun taken member => below taken (List.mem_append_left _ member)
      have redelivers' : ∀ front event' back, deliveries = front ++ .again event' :: back →
          ∃ taken ∈ past ++ book.history [.apply event] ++
            (book.call (.apply event)).2.history (front.map Delivery.call), taken.1 = event' := by
        intro front event' back split
        rw [List.append_assoc]
        have found := redelivers (.first event :: front) event' back (congrArg _ split)
        rwa [List.map_cons, history_cons] at found
      obtain ⟨answers, history, last⟩ := ih sequenced' (sound.call _) redelivers'
        fun taken member => below taken (List.mem_append_right _ member)
      rw [unfolded, List.map_cons, List.map_cons, history_cons, history_cons book (.apply event)]
      exact ⟨congrArg _ answers, congrArg _ history, last⟩
    | again event =>
      -- The copy is refused, and the runs go on from the same book.
      have isCall : (Delivery.again event).call = .apply event := rfl
      obtain ⟨error, refused, none⟩ : ∃ error, book.call (.apply event) = (some (.error error), book) ∧
          book.history [.apply event] = [] := by
        have accepted := redelivers [] event deliveries rfl
        rw [List.map_nil, history_nil, List.append_nil] at accepted
        exact sequenced.call_again sound accepted
      have redelivers' : ∀ front event' back, deliveries = front ++ .again event' :: back →
          ∃ taken ∈ past ++ book.history (front.map Delivery.call), taken.1 = event' := by
        intro front event' back split
        have found := redelivers (.again event :: front) event' back (congrArg _ split)
        rw [List.map_cons, history_cons, isCall, none, refused, List.nil_append] at found
        exact found
      obtain ⟨answers, history, last⟩ := ih sequenced sound redelivers' below
      have goesOn : book.run ((Delivery.again event :: deliveries).map Delivery.call) =
          (some (.error error) :: (book.run (deliveries.map Delivery.call)).1,
            (book.run (deliveries.map Delivery.call)).2) := by
        rw [List.map_cons, run_cons, isCall, refused]
      rw [goesOn, List.map_cons, history_cons, isCall, none, refused]
      exact ⟨answers, history, last⟩

end Redelivery

section Stream

/-- A stream whose numbers are ahead of the book is refused event by event, and the book stays where it is. -/
theorem Sound.run_ahead (sound : book.Sound) {n : Nat} (consecutive : Consecutive book.market n events)
    (ahead : book.nextSequence.toNat < n) :
    book.run (events.map .apply) =
      (events.map fun event => some (.error (.sequence book.nextSequence event.sequence)), book) ∧
      book.history (events.map .apply) = [] := by
  induction events generalizing n with
  | nil => exact ⟨rfl, rfl⟩
  | cons event events ih =>
    obtain ⟨market, number, others⟩ := consecutive
    obtain ⟨answers, none⟩ := ih others (Nat.lt_succ_of_lt ahead)
    -- The event is for this market, but its turn has not come.
    have differs : event.sequence ≠ book.nextSequence := by
      intro same
      rw [← same, number] at ahead
      exact Nat.lt_irrefl _ ahead
    have refusal : book.refusal? event = some (.sequence book.nextSequence event.sequence) := by
      rw [refusal?, if_neg (not_not_intro market), if_pos differs]
    have refused : book.call (.apply event) =
        (some (.error (.sequence book.nextSequence event.sequence)), book) := by
      simp only [Book.call, sound.apply_error refusal]
    have first : book.history [.apply event] = [] := by
      unfold history
      rw [run_cons, refused]
      rfl
    rw [List.map_cons, history_cons, run_cons, first, refused, answers]
    exact ⟨rfl, none⟩

/--
A stream of consecutive numbers is accepted up to the first event that is refused: from then on the book waits for that
number, and every later event is out of turn.
-/
def StopsAt (book : Book) (events : List Event) : Prop :=
  (book.history (events.map .apply)).map Prod.fst = events ∨
    ∃ front stuck later error, events = front ++ stuck :: later ∧
      (book.history (events.map .apply)).map Prod.fst = front ∧
      (book.run (events.map .apply)).1 =
        (book.history (events.map .apply)).map (fun taken => some (.ok taken.2)) ++ some (.error error) ::
          later.map (fun event => some (.error (.sequence stuck.sequence event.sequence))) ∧
      (book.run (events.map .apply)).2.nextSequence = stuck.sequence

/-- A stream that starts at the book's own number is accepted up to the first event that is refused. -/
theorem Sound.stopsAt (sound : book.Sound) (consecutive : Consecutive book.market book.nextSequence.toNat events)
    (below : ∀ taken ∈ book.history (events.map .apply), taken.1.sequence.toNat + 1 < UInt64.size) :
    book.StopsAt events := by
  induction events generalizing book with
  | nil => exact .inl rfl
  | cons event events ih =>
    obtain ⟨market, number, others⟩ := consecutive
    rcases sound.call_apply_cases event with ⟨error, -, answer, none⟩ | ⟨report, next, takes, answer, some⟩
    · -- The first event is refused, so the numbers of all others are ahead of the book.
      obtain ⟨answers, noMore⟩ := sound.run_ahead others (Nat.lt_succ_self _)
      have isNext : event.sequence = book.nextSequence := UInt64.toNat_inj.mp number
      unfold StopsAt
      rw [List.map_cons, history_cons, run_cons, none, answer, answers, noMore]
      exact .inr ⟨[], event, events, error, rfl, rfl, by rw [isNext]; rfl, isNext.symm⟩
    · -- The first event is accepted, and the stream goes on from the book that it leaves.
      rw [List.map_cons, history_cons, some] at below
      rw [answer] at below
      have inRange := below _ List.mem_cons_self
      have advanced := takes.next_toNat inRange
      have marketNext : next.market = book.market := congrArg BookKey.market takes.key_eq
      have goesOn := ih (takes.sound sound) (by rwa [marketNext, advanced])
        fun taken member => below taken (List.mem_cons_of_mem _ member)
      unfold StopsAt at goesOn ⊢
      rw [List.map_cons, history_cons, run_cons, some, answer]
      rcases goesOn with all | ⟨front, stuck, later, error, isFront, accepted, answers, waits⟩
      · exact .inl (congrArg (event :: ·) all)
      · refine .inr ⟨event :: front, stuck, later, error, congrArg _ isFront, congrArg (event :: ·) accepted, ?_, waits⟩
        exact congrArg _ answers

end Stream

/--
A book takes in the numbers from its origin on, each of them once.

Whatever is fed to it, the numbers accepted are those from the origin up to its own, and an event is stale exactly if
one of its number was accepted. Copies of accepted events change nothing but their own answers, and a stream of
consecutive numbers is accepted up to the first event that is refused.
-/
theorem accepts_exactly_once (key : BookKey) (origin : Sequence) (events : List Event)
    (below : ∀ taken ∈ (startingAt key origin).history (events.map .apply), taken.1.sequence.toNat + 1 < UInt64.size) :
    let start := startingAt key origin
    let accepted := start.history (events.map .apply)
    let last := (start.run (events.map .apply)).2
    (accepted.map (fun taken => taken.1.sequence.toNat) = List.range' origin.toNat accepted.length ∧
      last.nextSequence.toNat = origin.toNat + accepted.length) ∧
    (accepted.map fun taken => taken.1.sequence).Nodup ∧
    (∀ event, origin ≤ event.sequence →
      (last.isStale event = true ↔ ∃ taken ∈ accepted, taken.1.sequence = event.sequence)) ∧
    (∀ deliveries, Delivery.firsts deliveries = events → start.Redelivers deliveries →
      Delivery.answersToFirsts deliveries (start.run (deliveries.map Delivery.call)).1 =
          (start.run (events.map .apply)).1 ∧
        start.history (deliveries.map Delivery.call) = accepted ∧
        (start.run (deliveries.map Delivery.call)).2 = last) ∧
    (Consecutive key.market origin.toNat events → start.StopsAt events) := by
  -- The fresh book is sequenced from its origin, and each part is what this means after the run.
  intro start accepted last
  have sound : start.Sound := sound_startingAt key origin
  have fresh := sequenced_startingAt key origin
  have sequenced : Sequenced origin accepted last := fresh.run sound events below
  refine ⟨⟨sequenced.numbers, sequenced.next⟩, sequenced.nodup, fun event started => sequenced.isStale_iff started,
    fun deliveries firsts redelivers => ?_, fun consecutive => sound.stopsAt consecutive below⟩
  subst firsts
  exact fresh.run_redelivered sound deliveries redelivers below

/-- A sale, a purchase, the removal of an order that nobody has placed, and a removal that comes too late. -/
def scripted : List Event :=
  (Script.startingAt ⟨7⟩ 0).write [.add ⟨⟨1⟩, ⟨1⟩, 0, .sell, 5, ⟨100⟩⟩, .add ⟨⟨2⟩, ⟨2⟩, 0, .buy, 2, ⟨101⟩⟩,
    .remove ⟨9⟩, .remove ⟨1⟩]

/-- The script with its first event delivered twice. -/
def redelivered : List Delivery :=
  (scripted.take 1).map .first ++ (scripted.take 1).map .again ++ (scripted.drop 1).map .first

/-- The script is accepted up to the removal of an unknown order, and its first event may be delivered twice. -/
theorem accepts_exactly_once_scripted :
    let start := startingAt ⟨⟨1⟩, ⟨7⟩⟩ 0
    (∀ taken ∈ start.history (scripted.map .apply), taken.1.sequence.toNat + 1 < UInt64.size) ∧
      (start.history (scripted.map .apply)).map (fun taken => taken.1.sequence.toNat) = [0, 1] ∧
      Consecutive ⟨7⟩ 0 scripted ∧ start.StopsAt scripted ∧
      start.Redelivers redelivered ∧
      (start.run (redelivered.map Delivery.call)).2 = (start.run (scripted.map .apply)).2 := by
  intro start
  have below : ∀ taken ∈ start.history (scripted.map .apply), taken.1.sequence.toNat + 1 < UInt64.size := by
    decide +kernel
  have consecutive : Consecutive ⟨7⟩ 0 scripted :=
    Script.consecutive_write (Script.startingAt ⟨7⟩ 0) _ (by show 0 + 4 < UInt64.size; decide)
  have two : (start.history (scripted.map .apply)).length = 2 := by decide +kernel
  have redelivers : start.Redelivers redelivered := by
    intro front event back split
    match front with
    | [] => exact nomatch split
    | [first] =>
      -- The copy comes second, when its event has been accepted.
      obtain ⟨rfl, rest⟩ := List.cons.inj split
      obtain ⟨same, -⟩ := List.cons.inj rest
      obtain rfl := Delivery.again.inj same
      decide +kernel
    | first :: second :: others =>
      -- Behind it everything is delivered for the first time.
      have rest : (scripted.drop 1).map .first = others ++ .again event :: back := congrArg (List.drop 2) split
      have member : Delivery.again event ∈ (scripted.drop 1).map .first :=
        rest ▸ List.mem_append_right _ List.mem_cons_self
      obtain ⟨other, -, isFirst⟩ := List.mem_map.mp member
      exact nomatch isFirst
  obtain ⟨⟨numbers, -⟩, -, -, redelivery, stops⟩ := accepts_exactly_once ⟨⟨1⟩, ⟨7⟩⟩ 0 scripted below
  refine ⟨below, ?_, consecutive, stops consecutive, redelivers, (redelivery redelivered rfl redelivers).2.2⟩
  rw [numbers, two]
  rfl

end Book

end LimitBook
