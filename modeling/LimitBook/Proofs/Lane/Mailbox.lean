import LimitBook.Proofs.Lane
import Mathlib.Logic.Relation

/-!
A lane among its clients. Clients send commands through any number of handles; the lane takes them out of its mailbox
one at a time; and when it has handed out its book, what still waits is thrown away and what comes later is turned
away. However these steps follow each other, every answer is that of the one serial history of the commands in the
order of their arrival.

The mailbox has no bound here: who finds it full waits, so that a bound only rules out some of the orders in which
commands arrive. A client that no longer waits for its answer is answered all the same.
-/

namespace LimitBook.Lane

/-- Where the task of a lane stands. -/
inductive Task where
  | running (book : Book)
  /-- The book has been handed out, and the mailbox is still open. -/
  | leaving
  /-- The mailbox is closed. -/
  | gone

/-- A command that waits in the mailbox, by the number of its arrival. -/
structure Letter where
  ticket : Nat
  command : Command
  deriving DecidableEq

/-- A command's number, and what its client was told. -/
structure Reply where
  ticket : Nat
  answer : Except BookError Answer

/-- A lane with its clients: what there is now, and what has been sent, answered and published so far. -/
structure Exchange where
  task : Task
  handles : Nat
  mailbox : List Letter
  feed : Feed
  arrived : List Command
  replies : List Reply
  published : List Update

namespace Exchange

/-- A lane that has just been started, with its one handle. -/
def start (book : Book) (capacity : LaneCapacity) : Exchange :=
  ⟨.running book, 1, [], .empty capacity.updates.toNat, [], [], []⟩

/-- What clients do. Who finds the mailbox full waits, so a command arrives when there is room for it. -/
inductive ClientStep (market : MarketId) : Exchange → Exchange → Prop
  | clone {x : Exchange} (holder : 0 < x.handles) : ClientStep market x { x with handles := x.handles + 1 }
  | drop {x : Exchange} (holder : 0 < x.handles) : ClientStep market x { x with handles := x.handles - 1 }
  | send {x : Exchange} {command : Command} (holder : 0 < x.handles) (isOpen : x.task ≠ .gone) :
    ClientStep market x { x with
      mailbox := x.mailbox ++ [⟨x.arrived.length, command⟩]
      arrived := x.arrived ++ [command] }
  /-- At a closed mailbox a command is turned away. -/
  | refused {x : Exchange} {command : Command} (holder : 0 < x.handles) (isGone : x.task = .gone) :
    ClientStep market x { x with
      arrived := x.arrived ++ [command]
      replies := x.replies ++ [⟨x.arrived.length, .error (.laneClosed market)⟩] }

/-- What the lane does with its mailbox, first come, first served. -/
inductive LaneStep (market : MarketId) : Exchange → Exchange → Prop
  | serve {x : Exchange} {book : Book} {letter : Letter} {rest : List Letter} {answer : Except BookError Answer}
    {next : Option Book} {update : Option Update} (runs : x.task = .running book) (first : x.mailbox = letter :: rest)
    (response : respond book letter.command = (answer, next, update)) :
    LaneStep market x { x with
      task := next.elim .leaving .running
      mailbox := rest
      feed := update.elim x.feed x.feed.publish
      replies := x.replies ++ [⟨letter.ticket, answer⟩]
      published := x.published ++ update.toList }
  /-- The mailbox is closed once the book has been handed out. -/
  | shut {x : Exchange} (leaves : x.task = .leaving) : LaneStep market x { x with task := .gone }
  /-- What waits in a closed mailbox is thrown away, and its client sees that no reply will come. -/
  | discard {x : Exchange} {letter : Letter} {rest : List Letter} (isGone : x.task = .gone)
    (first : x.mailbox = letter :: rest) :
    LaneStep market x { x with
      mailbox := rest
      replies := x.replies ++ [⟨letter.ticket, .error (.laneClosed market)⟩] }
  /-- Without handles and letters nothing can come any more. -/
  | starve {x : Exchange} {book : Book} (runs : x.task = .running book) (nobody : x.handles = 0)
    (empty : x.mailbox = []) : LaneStep market x { x with task := .gone }

/-- A step of a client or of the lane. -/
def Step (market : MarketId) (x y : Exchange) : Prop := ClientStep market x y ∨ LaneStep market x y

/-- The events that were accepted, by the numbers of their commands, in the order of their answers. -/
def accepted (replies : List Reply) : List (Nat × Report) :=
  replies.filterMap fun reply => (report? reply.answer).map (reply.ticket, ·)

/-- The books that clients were given, in the order of the answers. -/
def handedOut (replies : List Reply) : List Book := replies.filterMap fun reply => book? reply.answer

/-- A reply is the one that the serial history of all commands gives. -/
def IsSerial (book : Book) (arrived : List Command) (reply : Reply) : Prop :=
  ∃ command, arrived[reply.ticket]? = some command ∧
    reply.answer = serialAnswer book (arrived.take reply.ticket) command

/-- While a lane runs, exactly what waits has not been served, and the book is that of what has. -/
structure Runs (book : Book) (x : Exchange) (current : Book) (served : List Command) : Prop where
  arrived : x.arrived = served ++ x.mailbox.map Letter.command
  unclosed : .close ∉ served
  left : current = bookAfter book served
  waiting : x.mailbox.map Letter.ticket = List.range' served.length x.mailbox.length
  answered : x.replies.map Reply.ticket = List.range served.length
  next : current.nextSequence = book.nextSequence + UInt64.ofNat (accepted x.replies).length
  kept : handedOut x.replies = []

/-- Once a lane has served its first close, the book of all before it is handed out, and what waits came behind it. -/
structure Closes (book : Book) (x : Exchange) (served behind : List Command) : Prop where
  arrived : x.arrived = served ++ .close :: behind
  unclosed : .close ∉ served
  later : ∀ letter ∈ x.mailbox, served.length < letter.ticket
  handed : handedOut x.replies = [bookAfter book served]

/-- How the task of a lane stands to what has arrived. -/
inductive Phase (book : Book) (x : Exchange) : Prop
  | running {current : Book} {served : List Command} (stands : x.task = .running current)
    (runs : x.Runs book current served)
  | leaving {served behind : List Command} (stands : x.task = .leaving) (closes : x.Closes book served behind)
  | gone {served behind : List Command} (stands : x.task = .gone) (closes : x.Closes book served behind)
  /-- Without a close a lane stops only when nobody is left to send one. -/
  | starved {current : Book} {served : List Command} (stands : x.task = .gone) (nobody : x.handles = 0)
    (empty : x.mailbox = []) (runs : x.Runs book current served)

/-- One update was published for each accepted event, in order, and their numbers follow each other. -/
structure Publishes (book : Book) (feed : Feed) (x : Exchange) : Prop where
  published : x.published = (accepted x.replies).map fun (_, report) => Update.about book.market report
  feed : x.feed = x.published.foldl Feed.publish feed
  ordered : ((accepted x.replies).map Prod.fst).Pairwise (· < ·)
  numbered : (accepted x.replies).map (fun (_, report) => report.sequence) =
    (List.range (accepted x.replies).length).map fun place => book.nextSequence + UInt64.ofNat place

/-- What holds at any time between a lane and its clients. -/
structure Serial (book : Book) (feed : Feed) (x : Exchange) : Prop where
  letters : ∀ letter ∈ x.mailbox, x.arrived[letter.ticket]? = some letter.command
  tickets : (x.replies.map Reply.ticket ++ x.mailbox.map Letter.ticket).Perm (List.range x.arrived.length)
  replies : ∀ reply ∈ x.replies, IsSerial book x.arrived reply
  publishes : x.Publishes book feed
  phase : x.Phase book

variable {book current : Book} {x y : Exchange} {feed : Feed} {command : Command} {letter : Letter}
  {rest : List Letter} {reply : Reply} {arrived served behind : List Command}

/-- A reply adds its report to the accepted events, if it has one. -/
theorem accepted_append (replies : List Reply) (reply : Reply) :
    accepted (replies ++ [reply]) =
      accepted replies ++ ((report? reply.answer).map (reply.ticket, ·)).toList := by
  -- The last reply adds its report, if it holds one.
  unfold accepted
  rw [List.filterMap_append]
  simp only [List.filterMap_cons, List.filterMap_nil]
  cases report? reply.answer <;> rfl

/-- A reply adds its book to those handed out, if it has one. -/
theorem handedOut_append (replies : List Reply) (reply : Reply) :
    handedOut (replies ++ [reply]) = handedOut replies ++ (book? reply.answer).toList := by
  -- The last reply adds its book, if it hands one out.
  unfold handedOut
  rw [List.filterMap_append]
  simp only [List.filterMap_cons, List.filterMap_nil]
  cases book? reply.answer <;> rfl

/-- A refusal adds nothing to the accepted events. -/
theorem accepted_append_error (replies : List Reply) (ticket : Nat) (error : BookError) :
    accepted (replies ++ [⟨ticket, .error error⟩]) = accepted replies :=
  (accepted_append _ _).trans (List.append_nil _)

/-- A refusal hands out nothing. -/
theorem handedOut_append_error (replies : List Reply) (ticket : Nat) (error : BookError) :
    handedOut (replies ++ [⟨ticket, .error error⟩]) = handedOut replies :=
  (handedOut_append _ _).trans (List.append_nil _)

/-- The numbers of accepted events are among those of the replies. -/
theorem ticket_of_accepted {replies : List Reply} {entry : Nat × Report} (member : entry ∈ accepted replies) :
    entry.1 ∈ replies.map Reply.ticket := by
  -- An accepted entry comes from a reply and keeps its ticket.
  obtain ⟨reply, among, reported⟩ := List.mem_filterMap.mp member
  obtain ⟨report, -, rfl⟩ := Option.map_eq_some_iff.mp reported
  exact List.mem_map_of_mem among

/-- A command keeps its place when others arrive. -/
theorem getElem?_arrived {ticket : Nat} (found : arrived[ticket]? = some command) (more : List Command) :
    (arrived ++ more)[ticket]? = some command := by
  -- The ticket is a place among the commands of before.
  rw [List.getElem?_append_left (List.getElem?_eq_some_iff.mp found).1]
  exact found

/-- A serial reply stays one when further commands arrive. -/
theorem IsSerial.append (serial : IsSerial book arrived reply) (more : List Command) :
    IsSerial book (arrived ++ more) reply := by
  obtain ⟨command, found, same⟩ := serial
  refine ⟨command, getElem?_arrived found more, ?_⟩
  -- What came before the command is as it was.
  have inside := (List.getElem?_eq_some_iff.mp found).1
  rw [List.take_append_of_le_length (Nat.le_of_lt inside)]
  exact same

/-- A command that arrived behind the first close is answered that the lane is closed. -/
theorem isSerial_of_closed {ticket : Nat} (closed : arrived = served ++ .close :: behind)
    (found : arrived[ticket]? = some command) (later : served.length < ticket) :
    IsSerial book arrived ⟨ticket, .error (.laneClosed book.market)⟩ := by
  refine ⟨command, found, ?_⟩
  -- The close is among what came before the command.
  have among : Command.close ∈ arrived.take ticket := by
    refine List.mem_iff_getElem?.mpr ⟨served.length, ?_⟩
    rw [List.getElem?_take_of_lt later, closed]
    simp
  exact (if_pos among).symm

/-- What has been published stays right as long as nothing more is accepted. -/
theorem Publishes.of_accepted (publishes : x.Publishes book feed) (same : accepted y.replies = accepted x.replies)
    (published : y.published = x.published) (fed : y.feed = x.feed) : y.Publishes book feed where
  -- The part depends on the replies, the updates and the feed, and these are the same.
  published := by rw [published, same]; exact publishes.published
  feed := by rw [fed, published]; exact publishes.feed
  ordered := by rw [same]; exact publishes.ordered
  numbered := by rw [same]; exact publishes.numbered

/-- A lane runs as long as what has arrived, what waits and what was answered stay the same. -/
theorem Runs.congr (runs : x.Runs book current served) (arrived : y.arrived = x.arrived)
    (mailbox : y.mailbox = x.mailbox) (replies : y.replies = x.replies) : y.Runs book current served where
  -- The mailbox, the commands that arrived and the replies are the same.
  arrived := by rw [arrived, mailbox]; exact runs.arrived
  unclosed := runs.unclosed
  left := runs.left
  waiting := by rw [mailbox]; exact runs.waiting
  answered := by rw [replies]; exact runs.answered
  next := by rw [replies]; exact runs.next
  kept := by rw [replies]; exact runs.kept

/-- A close stays the first one, whatever becomes of the letters behind it, as long as no book is handed out. -/
theorem Closes.congr (closes : x.Closes book served behind) (arrived : y.arrived = x.arrived)
    (mailbox : ∀ letter ∈ y.mailbox, letter ∈ x.mailbox) (replies : handedOut y.replies = handedOut x.replies) :
    y.Closes book served behind where
  -- Of the mailbox only the commands that still wait count, and none has come in.
  arrived := arrived.trans closes.arrived
  unclosed := closes.unclosed
  later letter member := closes.later letter (mailbox letter member)
  handed := replies.trans closes.handed

/-- A step in which nothing arrives and nothing is answered only has to keep the task in its place. -/
theorem Serial.idle (serial : x.Serial book feed) (arrived : y.arrived = x.arrived) (mailbox : y.mailbox = x.mailbox)
    (replies : y.replies = x.replies) (published : y.published = x.published) (fed : y.feed = x.feed)
    (phase : y.Phase book) : y.Serial book feed where
  -- A step that only passes handles on or refuses a command leaves all that the books are kept by.
  letters := by rw [arrived, mailbox]; exact serial.letters
  tickets := by rw [arrived, mailbox, replies]; exact serial.tickets
  replies := by rw [arrived, replies]; exact serial.replies
  publishes := serial.publishes.of_accepted (congrArg accepted replies) published fed
  phase := phase

/-- A step that answers the first of what waits has to answer it as the serial history does. -/
theorem Serial.answer (serial : x.Serial book feed) (first : x.mailbox = letter :: rest)
    {answer : Except BookError Answer} (same : IsSerial book x.arrived ⟨letter.ticket, answer⟩)
    (arrived : y.arrived = x.arrived) (mailbox : y.mailbox = rest)
    (replies : y.replies = x.replies ++ [⟨letter.ticket, answer⟩]) (publishes : y.Publishes book feed)
    (phase : y.Phase book) : y.Serial book feed where
  letters := by
    intro other member
    rw [mailbox] at member
    rw [arrived]
    exact serial.letters other (by rw [first]; exact List.mem_cons_of_mem _ member)
  tickets := by
    -- The number moves from the front of the mailbox to the end of the replies.
    have tickets := serial.tickets
    rw [first] at tickets
    rw [arrived, mailbox, replies, List.map_append, List.append_assoc]
    exact tickets
  replies := by
    intro reply member
    rw [replies] at member
    rw [arrived]
    -- The old replies stay, and the new one answers the first letter.
    rcases List.mem_append.mp member with old | new
    · exact serial.replies reply old
    · rw [List.mem_singleton.mp new]
      exact same
  publishes := publishes
  phase := phase

/-- A running lane stays one when another command arrives. -/
theorem Runs.send (runs : x.Runs book current served) (command : Command) :
    Runs book { x with
      mailbox := x.mailbox ++ [⟨x.arrived.length, command⟩]
      arrived := x.arrived ++ [command] } current served := by
  refine ⟨?_, runs.unclosed, runs.left, ?_, runs.answered, runs.next, runs.kept⟩
  · rw [List.map_append, ← List.append_assoc, ← runs.arrived]
    rfl
  · -- Whatever has arrived was served or waits, so the new number comes next.
    have count : x.arrived.length = served.length + x.mailbox.length := by
      rw [runs.arrived, List.length_append, List.length_map]
    rw [List.map_append, runs.waiting, List.length_append, List.length_singleton, List.range'_1_concat, ← count]
    rfl

/-- More has arrived than was served before the first close. -/
theorem Closes.length_lt (closes : x.Closes book served behind) : served.length < x.arrived.length := by
  -- The command to close came in behind those that were served.
  rw [closes.arrived, List.length_append, List.length_cons]
  omega

/-- The first close stays ahead of what arrives later. -/
theorem Closes.arrive (closes : x.Closes book served behind) (command : Command) :
    x.arrived ++ [command] = served ++ .close :: (behind ++ [command]) := by
  -- What is sent comes in behind everything else.
  rw [closes.arrived, List.append_assoc]
  rfl

/-- The first close stays ahead of a command that joins the mailbox. -/
theorem Closes.send (closes : x.Closes book served behind) (command : Command) :
    Closes book { x with
      mailbox := x.mailbox ++ [⟨x.arrived.length, command⟩]
      arrived := x.arrived ++ [command] } served (behind ++ [command]) := by
  -- What is sent now comes after the command to close.
  refine ⟨closes.arrive command, closes.unclosed, fun letter member => ?_, closes.handed⟩
  rcases List.mem_append.mp member with waits | new
  · exact closes.later letter waits
  · rw [List.mem_singleton.mp new]
    exact closes.length_lt

/-- A lane that is gone with a client or a letter left behind has served a close. -/
theorem Phase.closes_of_gone (phase : x.Phase book) (isGone : x.task = .gone)
    (left : 0 < x.handles ∨ x.mailbox ≠ []) : ∃ served behind, x.Closes book served behind := by
  cases phase with
  | running stands => simp [isGone] at stands
  | leaving stands => simp [isGone] at stands
  | gone _ closes => exact ⟨_, _, closes⟩
  | starved _ nobody empty =>
    -- Who starves has neither handles nor letters.
    rcases left with holder | waits
    · omega
    · exact absurd empty waits

/-- A task that runs has the book of what it has served. -/
theorem Phase.runs_of_running (phase : x.Phase book) (running : x.task = .running current) :
    ∃ served, x.Runs book current served := by
  -- Only one of the phases has a task that is running, and it holds the book of the task.
  cases phase with
  | running stands runs =>
    obtain rfl := Task.running.inj (running.symm.trans stands)
    exact ⟨_, runs⟩
  | leaving stands => simp [running] at stands
  | gone stands => simp [running] at stands
  | starved stands => simp [running] at stands

/-- The command that a lane serves next is the one that arrived right behind those served so far. -/
theorem Runs.first (runs : x.Runs book current served) (first : x.mailbox = letter :: rest) :
    letter.ticket = served.length ∧ x.arrived = served ++ letter.command :: rest.map Letter.command ∧
      rest.map Letter.ticket = List.range' (served.length + 1) rest.length := by
  -- The tickets of the mailbox go on where the served commands end, and its first letter is the next of them.
  have waiting := runs.waiting
  have arrived := runs.arrived
  rw [first] at waiting arrived
  simp only [List.map_cons, List.length_cons, List.range'_succ, List.cons.injEq] at waiting
  exact ⟨waiting.1, arrived, waiting.2⟩

/-- The answer of a running lane is that of the serial history. -/
theorem Runs.isSerial (runs : x.Runs book current served) (first : x.mailbox = letter :: rest) :
    IsSerial book x.arrived ⟨letter.ticket, answerOf current letter.command⟩ := by
  obtain ⟨ticket, arrived, -⟩ := runs.first first
  refine ⟨letter.command, ?_, ?_⟩
  · show x.arrived[letter.ticket]? = some letter.command
    rw [ticket, arrived]
    simp
  · -- What arrived before it is what was served, with no close among it.
    have before : x.arrived.take letter.ticket = served := by
      rw [ticket, arrived]
      exact List.take_left
    show answerOf current letter.command = serialAnswer book (x.arrived.take letter.ticket) letter.command
    rw [before, runs.left]
    exact (if_neg runs.unclosed).symm

/-- A lane that has served a command other than a close runs on with the next one. -/
theorem Runs.serve (runs : x.Runs book current served) (first : x.mailbox = letter :: rest)
    (goesOn : letter.command ≠ .close) (arrived : y.arrived = x.arrived) (mailbox : y.mailbox = rest)
    (replies : y.replies = x.replies ++ [⟨letter.ticket, answerOf current letter.command⟩]) :
    y.Runs book (bookAfter current [letter.command]) (served ++ [letter.command]) := by
  obtain ⟨ticket, before, behind⟩ := runs.first first
  refine ⟨?_, ?_, ?_, ?_, ?_, ?_, ?_⟩
  · -- The command goes over from what waits to what was served.
    rw [arrived, before, mailbox, List.append_assoc]
    rfl
  · intro closed
    rcases List.mem_append.mp closed with among | last
    · exact runs.unclosed among
    · exact goesOn (List.mem_singleton.mp last).symm
  · -- The book of the longer history is that of the shorter one after the command.
    rw [runs.left, bookAfter_append]
  · rw [mailbox, List.length_append, List.length_singleton]
    exact behind
  · rw [replies, List.map_append, runs.answered, List.length_append, List.length_singleton, List.range_succ, ← ticket]
    rfl
  · -- The next number moves on exactly when there is one more report.
    rw [replies, accepted_append]
    cases reported : report? (answerOf current letter.command) with
    | none =>
      rw [numbered_of_none reported, runs.next]
      simp
    | some report =>
      rw [(numbered_of_report reported).2, runs.next]
      simp [UInt64.ofNat_add, UInt64.add_assoc]
  · -- Only a close would have been given the book.
    rw [replies, handedOut_append, runs.kept, book?_answerOf, if_neg goesOn]
    rfl

/-- A lane that has served a close has handed out the book of all that was served before it. -/
theorem Runs.close (runs : x.Runs book current served) (first : x.mailbox = letter :: rest)
    (close : letter.command = .close) (arrived : y.arrived = x.arrived) (mailbox : y.mailbox = rest)
    (replies : y.replies = x.replies ++ [⟨letter.ticket, answerOf current letter.command⟩]) :
    y.Closes book served (rest.map Letter.command) := by
  obtain ⟨-, before, behind⟩ := runs.first first
  refine ⟨?_, runs.unclosed, fun other member => ?_, ?_⟩
  · rw [arrived, before, close]
  · -- The numbers in the rest of the mailbox start behind that of the close.
    have among : other.ticket ∈ List.range' (served.length + 1) rest.length := by
      rw [← behind, ← mailbox]
      exact List.mem_map_of_mem member
    exact (List.mem_range'_1.mp among).1
  · rw [replies, handedOut_append, runs.kept, book?_answerOf, if_pos close, runs.left]
    rfl

/-- What a running lane publishes is the next update, about the latest event. -/
theorem Publishes.serve (publishes : x.Publishes book feed) (runs : x.Runs book current served)
    (first : x.mailbox = letter :: rest)
    (replies : y.replies = x.replies ++ [⟨letter.ticket, answerOf current letter.command⟩])
    (published : y.published = x.published ++ (updateOf current letter.command).toList)
    (fed : y.feed = (updateOf current letter.command).elim x.feed x.feed.publish) : y.Publishes book feed := by
  have more := accepted_append x.replies ⟨letter.ticket, answerOf current letter.command⟩
  cases reported : report? (answerOf current letter.command) with
  | none =>
    -- Nothing was accepted, and nothing is published.
    have nothing : updateOf current letter.command = none := congrArg (Option.map _) reported
    rw [nothing] at published fed
    simp only [reported, Option.map_none, Option.toList_none, List.append_nil] at more
    refine publishes.of_accepted ?_ ?_ fed
    · rw [replies, more]
    · rw [published]
      exact List.append_nil _
  | some report =>
    -- One more event was accepted, and it comes last in all three lists.
    have due : updateOf current letter.command = some (Update.about current.market report) :=
      congrArg (Option.map _) reported
    rw [due] at published fed
    simp only [reported, Option.map_some, Option.toList_some] at more
    rw [← replies] at more
    have market : current.market = book.market := by
      rw [runs.left]
      exact market_bookAfter book served
    refine ⟨?_, ?_, ?_, ?_⟩
    · rw [published, more, List.map_append, ← publishes.published, market]
      rfl
    · rw [fed, published, List.foldl_append, ← publishes.feed]
      rfl
    · rw [more, List.map_append]
      refine List.pairwise_append.mpr ⟨publishes.ordered, List.pairwise_singleton _ _, ?_⟩
      intro earlier member last new
      -- Whatever was accepted before has been answered before, and so has a smaller number.
      obtain ⟨entry, among, rfl⟩ := List.mem_map.mp member
      have answered := ticket_of_accepted among
      rw [runs.answered, List.mem_range] at answered
      rw [List.mem_singleton.mp new, (runs.first first).1]
      exact answered
    · -- Its number is the one that the book expected, as many after the first as there were reports before.
      rw [more, List.map_append, publishes.numbered, List.length_append, List.length_singleton, List.range_succ,
        List.map_append]
      simp only [List.map_cons, List.map_nil]
      rw [(numbered_of_report reported).1, runs.next]

/-- Between a lane and its clients everything is still serial after a step of the lane. -/
theorem Serial.laneStep (serial : x.Serial book feed) (step : LaneStep book.market x y) :
    y.Serial book feed := by
  cases step with
  | @serve current letter rest answer next update running first response =>
    -- What the lane responds is the answer of its book, which is that of the serial history.
    rw [respond_eq] at response
    simp only [Prod.mk.injEq] at response
    obtain ⟨rfl, rfl, rfl⟩ := response
    obtain ⟨served, runs⟩ := serial.phase.runs_of_running running
    refine serial.answer first (runs.isSerial first) rfl rfl rfl
      (serial.publishes.serve runs first rfl rfl rfl) ?_
    -- The task goes on with its book, or hands it out and leaves.
    by_cases close : letter.command = .close
    · refine .leaving ?_ (runs.close first close rfl rfl rfl)
      rw [if_pos close]
      rfl
    · refine .running ?_ (runs.serve first close rfl rfl rfl)
      rw [if_neg close]
      rfl
  | shut leaves =>
    -- Only a lane that was leaving shuts.
    refine serial.idle rfl rfl rfl rfl rfl ?_
    cases serial.phase with
    | leaving _ closes => exact .gone rfl (closes.congr rfl (fun _ waits => waits) rfl)
    | running stands => simp [leaves] at stands
    | gone stands => simp [leaves] at stands
    | starved stands => simp [leaves] at stands
  | @discard letter rest isGone first =>
    -- Only a lane that has served a close goes while something waits.
    obtain ⟨served, behind, closes⟩ := serial.phase.closes_of_gone isGone (.inr (by simp [first]))
    have waits : letter ∈ x.mailbox := by rw [first]; exact List.mem_cons_self
    have others : ∀ other ∈ rest, other ∈ x.mailbox := by rw [first]; exact fun _ => List.mem_cons_of_mem _
    have refuses := accepted_append_error x.replies letter.ticket (.laneClosed book.market)
    have keeps := handedOut_append_error x.replies letter.ticket (.laneClosed book.market)
    have same : IsSerial book x.arrived ⟨letter.ticket, .error (.laneClosed book.market)⟩ :=
      isSerial_of_closed closes.arrived (serial.letters letter waits) (closes.later letter waits)
    exact serial.answer first same rfl rfl rfl (serial.publishes.of_accepted refuses rfl rfl)
      (.gone isGone (closes.congr rfl others keeps))
  | starve running nobody empty =>
    -- Nobody is left to send anything, and nothing waits.
    obtain ⟨served, runs⟩ := serial.phase.runs_of_running running
    exact serial.idle rfl rfl rfl rfl rfl (.starved rfl nobody empty (runs.congr rfl rfl rfl))

end Exchange

end LimitBook.Lane
