import LimitBook.Format.Config
import LimitBook.Format.Feed
import LimitBook.Proofs.Announcement
import LimitBook.Proofs.Json.RoundTrip

/-!
Round trips of everything that is written as JSON: each kind of thing is read back off its text as it was, whatever it
holds. Totals and counts are exact numbers here, and are read back as far as the words reach that hold them.
-/

namespace LimitBook

open Json

section Identities

/-- Every market is read back. -/
theorem MarketId.restores (market : MarketId) : MarketId.codec.Restores market :=
  (Codec.word_restores market.number).map rfl

/-- Every number of an order is read back. -/
theorem OrderId.restores (id : OrderId) : OrderId.codec.Restores id := (Codec.word_restores id.number).map rfl

/-- Every owner is read back. -/
theorem OwnerId.restores (owner : OwnerId) : OwnerId.codec.Restores owner := (Codec.word_restores owner.number).map rfl

/-- Every price is read back. -/
theorem Price.restores (price : Price) : Price.codec.Restores price := (Codec.word_restores price.ticks).map rfl

/-- Both sides are read back. -/
theorem Side.restores (side : Side) : Side.codec.Restores side := by
  cases side <;> exact Codec.choice_restores rfl

/-- Both policies are read back. -/
theorem ErrorPolicy.restores (policy : ErrorPolicy) : ErrorPolicy.codec.Restores policy := by
  cases policy <;> exact Codec.choice_restores rfl

end Identities

section Records

/-- Every key of a book is read back. -/
theorem BookKey.restores (key : BookKey) : BookKey.codec.Restores key :=
  Codec.record_restores (by decide) rfl ⟨key.owner.restores, key.market.restores, trivial⟩

/-- Every order is read back. -/
theorem Order.restores (order : Order) : Order.codec.Restores order :=
  -- Each field restores its own part.
  Codec.record_restores (by decide) rfl ⟨order.id.restores, order.market.restores, order.owner.restores,
    order.side.restores, order.price.restores, Codec.word_restores _, Codec.word_restores _,
    Codec.signedWord_restores _, Codec.word_restores _, trivial⟩

/-- Every new order is read back. -/
theorem NewOrder.restores (new : NewOrder) : NewOrder.codec.Restores new :=
  -- Each field restores its own part.
  Codec.record_restores (by decide) rfl ⟨new.id.restores, new.owner.restores, Codec.signedWord_restores _,
    new.side.restores, Codec.word_restores _, new.price.restores, trivial⟩

/-- Every fill is read back. -/
theorem Fill.restores (fill : Fill) : Fill.codec.Restores fill :=
  -- Each field restores its own part.
  Codec.record_restores (by decide) rfl ⟨fill.maker.restores, fill.makerOwner.restores, fill.taker.restores,
    fill.takerOwner.restores, fill.takerSide.restores, fill.price.restores, Codec.word_restores _,
    Codec.bool_restores _, Codec.bool_restores _, trivial⟩

/-- A price is read back where there may be none. -/
theorem Price.option_restores (price? : Option Price) : Price.codec.option.Restores price? :=
  Codec.option_restores (fun price _ => price.restores) nofun

/-- An order is read back where there may be none. -/
theorem Order.option_restores (order? : Option Order) : Order.codec.option.Restores order? :=
  Codec.option_restores (fun order _ => order.restores) nofun

/-- The best prices are read back. -/
theorem Top.restores (top : Top) : Top.codec.Restores top :=
  -- Each field restores its own part; the prices may be absent.
  Codec.record_restores (by decide) rfl ⟨Price.option_restores _, Codec.word_restores _, Price.option_restores _,
    Codec.word_restores _, trivial⟩

/-- Every report is read back. -/
theorem Report.restores (report : Report) : Report.codec.Restores report :=
  -- Each field restores its own part, the fills one by one.
  Codec.record_restores (by decide) rfl ⟨Codec.word_restores _, Codec.list_restores fun fill _ => fill.restores,
    Order.option_restores _, Order.option_restores _, report.top.restores, trivial⟩

/-- The totals are within the words that hold them. -/
structure Stats.Fits (stats : Stats) : Prop where
  addedQuantity : stats.addedQuantity < UInt64.size * UInt64.size
  removedQuantity : stats.removedQuantity < UInt64.size * UInt64.size
  executedQuantity : stats.executedQuantity < UInt64.size * UInt64.size
  fillCount : stats.fillCount < UInt64.size
  volume : stats.volume < UInt64.size * UInt64.size
  eventsApplied : stats.eventsApplied < UInt64.size

/-- Totals are read back. -/
theorem Stats.Fits.restores {stats : Stats} (fits : stats.Fits) : Stats.codec.Restores stats :=
  -- The totals fit two words, the counts fit one, and the price may be absent.
  Codec.record_restores (by decide) rfl ⟨Codec.wideTotal_restores fits.addedQuantity,
    Codec.wideTotal_restores fits.removedQuantity, Codec.wideTotal_restores fits.executedQuantity,
    Codec.count_restores fits.fillCount, Codec.wideTotal_restores fits.volume, Price.option_restores _,
    Codec.count_restores fits.eventsApplied, trivial⟩

/-- The number of orders of every line is within a word. -/
def Depth.Fits (depth : Depth) : Prop := ∀ line ∈ depth.bids ++ depth.asks, line.orders < UInt64.size

/-- A line of a view is read back. -/
theorem DepthLevel.restores {line : DepthLevel} (fits : line.orders < UInt64.size) : DepthLevel.codec.Restores line :=
  Codec.record_restores (by decide) rfl ⟨line.price.restores, Codec.word_restores _, Codec.size_restores fits, trivial⟩

/-- Views are read back. -/
theorem Depth.Fits.restores {depth : Depth} (fits : depth.Fits) : Depth.codec.Restores depth :=
  -- A line of either side is one of the depth, and so it fits.
  Codec.record_restores (by decide) rfl
    ⟨Codec.list_restores fun _ member => DepthLevel.restores (fits _ (List.mem_append_left _ member)),
      Codec.list_restores fun _ member => DepthLevel.restores (fits _ (List.mem_append_right _ member)), trivial⟩

/-- Every row of a ladder is read back. -/
theorem LadderRow.restores (row : LadderRow) : LadderRow.codec.Restores row :=
  Codec.record_restores (by decide) rfl ⟨row.price.restores, Codec.word_restores _, trivial⟩

/-- Every ladder is read back. -/
theorem Ladder.restores (ladder : Ladder) : Ladder.codec.Restores ladder :=
  -- Each field restores its own part, the rows one by one.
  Codec.record_restores (by decide) rfl ⟨Codec.list_restores fun row _ => row.restores,
    Codec.list_restores fun row _ => row.restores, trivial⟩

/-- Every book to be followed is read back. -/
theorem BookSpec.restores (spec : BookSpec) : BookSpec.codec.Restores spec :=
  Codec.record_restores (by decide) rfl ⟨spec.owner.restores, spec.market.restores, Codec.word_restores _, trivial⟩

/-- The room of a lane is read back. -/
theorem LaneCapacity.restores (lane : LaneCapacity) : LaneCapacity.codec.Restores lane :=
  Codec.record_restores (by decide) rfl ⟨Codec.capacity_restores _, Codec.capacity_restores _, trivial⟩

/-- Every tracker's settings are read back, fit for use or not. -/
theorem TrackerConfig.restores (config : TrackerConfig) : TrackerConfig.codec.Restores config :=
  -- Each field restores its own part, the entries one by one.
  Codec.record_restores (by decide) rfl ⟨config.owner.restores, Codec.list_restores fun spec _ => spec.restores,
    Codec.capacity_restores _, config.errorPolicy.restores, config.lane.restores, trivial⟩

/-- The counts are within a word. -/
structure Summary.Fits (summary : Summary) : Prop where
  linesRead : summary.linesRead < UInt64.size
  eventsApplied : summary.eventsApplied < UInt64.size
  eventsRejected : summary.eventsRejected < UInt64.size
  fills : summary.fills < UInt64.size

/-- Summaries are read back. -/
theorem Summary.Fits.restores {summary : Summary} (fits : summary.Fits) : Summary.codec.Restores summary :=
  -- The counts fit one word each.
  Codec.record_restores (by decide) rfl ⟨Codec.count_restores fits.linesRead, Codec.count_restores fits.eventsApplied,
    Codec.count_restores fits.eventsRejected, Codec.count_restores fits.fills, trivial⟩

/-- Every update is read back. -/
theorem Update.restores (update : Update) : Update.codec.Restores update :=
  -- Each field restores its own part, the fills one by one.
  Codec.record_restores (by decide) rfl ⟨update.market.restores, Codec.word_restores _,
    Codec.list_restores fun fill _ => fill.restores, update.top.restores, trivial⟩

end Records

namespace Announcement

/-- Every announced size or price is read back. -/
theorem wideInt_restores (n : WideInt) : wideInt.Restores n := by
  -- Every wide integer is within the bounds that are asked for.
  have lower := n.le_toInt
  have upper := n.toInt_lt
  exact Codec.wideInteger_restores (by omega) (by omega) (by omega) BitVec.ofInt_toInt

/-- Whether an announced order buys is read back, and is not written if it is not said. -/
theorem isBuyField_restores (truth? : Option Bool) : isBuyField.Restores truth? := by
  -- Without a truth value nothing is written, and nothing is what stands for none.
  cases truth? with
  | none => exact (rfl : isBuyField.absent = some none)
  | some truth => exact Codec.option_restores (fun truth _ => Codec.bool_restores truth) nofun

/-- Every announcement is read back, whatever its strings hold. -/
theorem restores (a : Announcement) : codec.Restores a :=
  -- What is absent is written as null, except for the truth value, which is left out.
  Codec.record_restores nodup_names rfl ⟨Codec.string_restores _, a.market.restores, Codec.word_restores _,
    Codec.option_restores (fun id _ => id.restores) nofun, Codec.option_restores (fun owner _ => owner.restores) nofun,
    Codec.option_restores (fun n _ => Codec.signedWord_restores n) nofun,
    Codec.option_restores (fun word _ => Codec.string_restores word) nofun, isBuyField_restores _,
    Codec.option_restores (fun n _ => wideInt_restores n) nofun,
    Codec.option_restores (fun n _ => wideInt_restores n) nofun, trivial⟩

end Announcement

namespace Event

variable {members : List (String × Value)}

/-- Scalars that do not say where an event stands are put by in order. -/
theorem readMembers_ofMembers (seen : Seen) (scalars : ∀ member ∈ members, member.2.IsScalar)
    (others : ∀ member ∈ members, member.1 ≠ "market" ∧ member.1 ≠ "sequence") :
    readMembers .text seen (Draft.ofMembers members) =
      .ok { seen with others := seen.others ++ keptMembers members } := by
  -- The induction is on the members; what has been seen of the event grows along it.
  induction members generalizing seen with
  | nil => simp [readMembers, Draft.ofMembers, keptMembers]
  | cons member members ih =>
    obtain ⟨key, value⟩ := member
    obtain ⟨scalar, scalars⟩ := List.forall_mem_cons.mp scalars
    obtain ⟨⟨notMarket, notSequence⟩, others⟩ := List.forall_mem_cons.mp others
    have read : readMember .text seen key (.ofValue value) =
        .ok { seen with others := seen.others ++ [(key, value.kept)] } := by
      simp only [readMember, if_neg notMarket, if_neg notSequence, scalar.toValue?_ofValue]
    simp only [Draft.ofMembers, readMembers, read, Bind.bind, Except.bind, ih _ scalars others]
    simp [keptMembers]

/-- Without a kind among them all members are other members. -/
theorem splitKind_of_unnamed (kind : Option Kind) (unnamed : ∀ member ∈ members, member.1 ≠ "kind") :
    splitKind kind members = .ok (kind, members) := by
  -- No member names the kind, so that all of them are passed on.
  induction members with
  | nil => rfl
  | cons member members ih =>
    obtain ⟨key, value⟩ := member
    obtain ⟨first, others⟩ := List.forall_mem_cons.mp unnamed
    simp only [splitKind, if_neg first, ih others, Bind.bind, Except.bind, Pure.pure, Except.pure]

/-- The parts of a new order in the order of its fields. -/
def newOrderRow (new : NewOrder) : Row [OrderId, OwnerId, Timestamp, Side, Quantity, Price] :=
  (new.id, new.owner, new.timestamp, new.side, new.size, new.price, ())

/-- The members of an action without its kind. -/
def actionMembers : Action → List (String × Value)
  | .add new => NewOrder.fields.write (newOrderRow new)
  | .remove id => [("order_id", OrderId.codec.write id)]

/-- The members of an action are plain. -/
theorem isPlain_actionMembers (action : Action) : ∀ member ∈ actionMembers action, member.2.IsPlain := by
  -- An order writes words, a signed time and the name of its side, and a removal writes one word.
  cases action with
  | add new =>
    have lower := new.timestamp.le_toInt
    have upper := new.timestamp.toInt_lt
    exact Fields.forall_mem_write ⟨isPlain_word _, isPlain_word _, isPlain_int (by omega), isPlain_str _,
      isPlain_word _, isPlain_word _, trivial⟩
  | remove id => exact List.forall_mem_singleton.mpr (isPlain_word id.number)

/-- The members of an action are written under names of their own. -/
theorem named_actionMembers (action : Action) :
    ∀ member ∈ actionMembers action, member.1 ∉ ["market", "sequence", "kind"] := by
  cases action with
  | add new =>
    intro member isMember
    -- Only fields of a new order are written, and none of them is named like the members around them.
    have isField := (Fields.map_fst_write_sublist NewOrder.fields (newOrderRow new)).subset
      (List.mem_map_of_mem isMember)
    have apart : ∀ name ∈ NewOrder.fields.names, name ∉ ["market", "sequence", "kind"] := by decide
    exact apart _ isField
  | remove id => exact List.forall_mem_singleton.mpr (by decide : "order_id" ∉ ["market", "sequence", "kind"])

/-- An action is read off the members that a text has kept of it, behind its kind. -/
theorem readAction_kept (action : Action) :
    readAction (("kind", .str action.kind.name) :: keptMembers (actionMembers action)) = .ok action := by
  -- No member of an action is taken for its kind.
  have unnamed : ∀ member ∈ keptMembers (actionMembers action), member.1 ≠ "kind" := by
    intro member isMember isKind
    obtain ⟨written, isWritten, rfl⟩ := List.mem_map.mp isMember
    exact named_actionMembers action written isWritten (by simp [← isKind])
  have split : splitKind none (("kind", .str action.kind.name) :: keptMembers (actionMembers action)) =
      .ok (some action.kind, keptMembers (actionMembers action)) := by
    have kind : readKind (.str action.kind.name) = .ok action.kind := by cases action <;> rfl
    rw [splitKind, if_pos rfl]
    simp only [kind, Bind.bind, Except.bind, splitKind_of_unnamed _ unnamed]
  -- With the kind split off, the action of this kind is read off the others.
  unfold readAction
  rw [split]
  cases action with
  | add new =>
    have side : Side.codec.ofValue (Side.codec.write new.side).kept = .ok new.side := by cases new.side <;> rfl
    have reads : NewOrder.codec.ofValue (.obj (keptMembers (actionMembers (.add new)))) = .ok new := by
      -- Every field is read off what it has written.
      refine (Codec.record_ofValue_obj (by decide) _).mpr
        ⟨newOrderRow new, (Fields.reads_write (by decide)).mpr ?_, rfl⟩
      exact ⟨FieldFormat.reads_singleton.mpr (Codec.map_word_ofValue_kept (fun _ => rfl) (fun _ => rfl) new.id),
        FieldFormat.reads_singleton.mpr (Codec.map_word_ofValue_kept (fun _ => rfl) (fun _ => rfl) new.owner),
        FieldFormat.reads_singleton.mpr (Codec.signedWord_ofValue_kept new.timestamp),
        FieldFormat.reads_singleton.mpr side,
        FieldFormat.reads_singleton.mpr (Codec.word_ofValue_kept new.size),
        FieldFormat.reads_singleton.mpr (Codec.map_word_ofValue_kept (fun _ => rfl) (fun _ => rfl) new.price),
        trivial⟩
    show (NewOrder.codec.ofValue _ >>= fun new => _) = _
    rw [reads]
    rfl
  -- The number is read off what it has written.
  | remove id =>
    have reads : OrderId.removedCodec.ofValue (.obj (keptMembers (actionMembers (.remove id)))) = .ok id := by
      refine (Codec.record_ofValue_obj (by decide) _).mpr ⟨(id, ()), ⟨?_, trivial⟩, rfl⟩
      exact FieldFormat.reads_singleton.mpr (Codec.map_word_ofValue_kept (fun _ => rfl) (fun _ => rfl) id)
    show (OrderId.removedCodec.ofValue _ >>= fun id => _) = _
    rw [reads]
    rfl

/-- The members of an event: where it stands, its kind, and the members of its action. -/
theorem members_eq (event : Event) :
    event.members = ("market", MarketId.codec.write event.market) :: ("sequence", Codec.word.write event.sequence) ::
      ("kind", .str event.action.kind.name) :: actionMembers event.action := by
  -- The action decides on the kind and on the last members.
  obtain ⟨market, sequence, action⟩ := event
  cases action <;> rfl

/-- Everything in an event is plain. -/
theorem isPlain_members (event : Event) : ∀ member ∈ event.members, member.2.IsPlain := by
  -- The event writes its market, its sequence and its kind ahead of what its action writes.
  rw [members_eq]
  exact List.forall_mem_cons.mpr ⟨isPlain_word _, List.forall_mem_cons.mpr ⟨isPlain_word _,
    List.forall_mem_cons.mpr ⟨isPlain_str _, isPlain_actionMembers event.action⟩⟩⟩

/-- Every event is read back. -/
theorem restores (event : Event) : codec.Restores event where
  readable := Value.readable_obj fun member isMember => (isPlain_members event member isMember).readable
  reads := by
    -- First the event is placed in its stream, and the members of its action are put by.
    have market : readMember .text ⟨none, none, []⟩ "market" (.ofValue (MarketId.codec.write event.market)) =
        .ok ⟨some event.market, none, []⟩ := by
      rw [readMember, if_pos rfl, event.market.restores.reads]
      rfl
    have sequence : readMember .text ⟨some event.market, none, []⟩ "sequence"
        (.ofValue (Codec.word.write event.sequence)) = .ok ⟨some event.market, some event.sequence, []⟩ := by
      rw [readMember, if_neg (by decide), if_pos rfl, (Codec.word_restores event.sequence).reads]
      rfl
    have scalars : ∀ member ∈ ("kind", .str event.action.kind.name) :: actionMembers event.action,
        member.2.IsScalar :=
      List.forall_mem_cons.mpr ⟨trivial, fun member isMember =>
        (isPlain_actionMembers event.action member isMember).scalar⟩
    have others : ∀ member ∈ ("kind", Value.str event.action.kind.name) :: actionMembers event.action,
        member.1 ≠ "market" ∧ member.1 ≠ "sequence" := by
      refine List.forall_mem_cons.mpr
        ⟨⟨(by decide : "kind" ≠ "market"), (by decide : "kind" ≠ "sequence")⟩, fun member isMember => ?_⟩
      have named := named_actionMembers event.action member isMember
      simp only [List.mem_cons, not_or] at named
      exact ⟨named.1, named.2.1⟩
    have seen : readMembers .text ⟨none, none, []⟩ (Draft.ofMembers event.members) =
        .ok ⟨some event.market, some event.sequence,
          ("kind", .str event.action.kind.name) :: keptMembers (actionMembers event.action)⟩ := by
      have putBy := readMembers_ofMembers ⟨some event.market, some event.sequence, []⟩ scalars others
      rw [members_eq]
      simp only [Draft.ofMembers, readMembers, market, sequence, Bind.bind, Except.bind] at putBy ⊢
      exact putBy
    -- Then the action is read off them.
    show (readMembers .text ⟨none, none, []⟩ (Draft.ofMembers event.members) >>= fun seen => _) = _
    rw [seen]
    show (readAction (("kind", .str event.action.kind.name) :: keptMembers (actionMembers event.action)) >>=
      fun action => _) = _
    rw [readAction_kept]
    rfl

end Event

namespace TrackerConfig

/-- The settings that a text was written for are taken off it once they have been found fit for use. -/
theorem parse_print (config : TrackerConfig) :
    parse (codec.print config) = config.validate.map fun _ => config := by
  -- What was written is read back, and then it is validated.
  unfold parse
  rw [config.restores.parse_print]

/-- The settings that a text was written for are taken off it exactly if they are fit for use. -/
theorem parse_print_eq_ok_iff (config : TrackerConfig) :
    parse (codec.print config) = .ok config ↔ config.validate = .ok () := by
  -- The configuration is read as it was written, and is then validated.
  rw [parse_print]
  cases config.validate with
  | error fault => exact ⟨nofun, nofun⟩
  | ok fit => exact ⟨fun _ => rfl, fun _ => rfl⟩

end TrackerConfig

/-- The text of everything that is written as JSON is read back as what it was written for, and is the text of nothing
else; a tracker's settings are taken off theirs exactly if they are fit for use. -/
theorem json_round_trips :
    MarketId.codec.Faithful (fun _ => True) ∧ Price.codec.Faithful (fun _ => True) ∧
    Side.codec.Faithful (fun _ => True) ∧ ErrorPolicy.codec.Faithful (fun _ => True) ∧
    BookKey.codec.Faithful (fun _ => True) ∧ Order.codec.Faithful (fun _ => True) ∧
    NewOrder.codec.Faithful (fun _ => True) ∧ Event.codec.Faithful (fun _ => True) ∧
    Announcement.codec.Faithful (fun _ => True) ∧ Fill.codec.Faithful (fun _ => True) ∧
    Top.codec.Faithful (fun _ => True) ∧ Report.codec.Faithful (fun _ => True) ∧
    Stats.codec.Faithful Stats.Fits ∧ Depth.codec.Faithful Depth.Fits ∧
    Ladder.codec.Faithful (fun _ => True) ∧ BookSpec.codec.Faithful (fun _ => True) ∧
    LaneCapacity.codec.Faithful (fun _ => True) ∧ TrackerConfig.codec.Faithful (fun _ => True) ∧
    Summary.codec.Faithful Summary.Fits ∧ Update.codec.Faithful (fun _ => True) ∧
    ∀ config, TrackerConfig.parse (TrackerConfig.codec.print config) = .ok config ↔ config.validate = .ok () :=
  -- Whatever restores is faithful; for the configuration validation comes on top.
  ⟨Codec.faithful fun market _ => market.restores, Codec.faithful fun price _ => price.restores,
    Codec.faithful fun side _ => side.restores, Codec.faithful fun policy _ => policy.restores,
    Codec.faithful fun key _ => key.restores, Codec.faithful fun order _ => order.restores,
    Codec.faithful fun new _ => new.restores, Codec.faithful fun event _ => event.restores,
    Codec.faithful fun a _ => a.restores, Codec.faithful fun fill _ => fill.restores,
    Codec.faithful fun top _ => top.restores, Codec.faithful fun report _ => report.restores,
    Codec.faithful fun _ fits => fits.restores, Codec.faithful fun _ fits => fits.restores,
    Codec.faithful fun ladder _ => ladder.restores, Codec.faithful fun spec _ => spec.restores,
    Codec.faithful fun lane _ => lane.restores, Codec.faithful fun config _ => config.restores,
    Codec.faithful fun _ fits => fits.restores, Codec.faithful fun update _ => update.restores,
    TrackerConfig.parse_print_eq_ok_iff⟩

/-- The largest totals that their words hold. -/
def Stats.largest : Stats :=
  let wide := UInt64.size * UInt64.size - 1
  ⟨wide, wide, wide, UInt64.size - 1, wide, some ⟨18446744073709551615⟩, UInt64.size - 1⟩

/-- A view with as many orders at one price as can be counted. -/
def Depth.largest : Depth :=
  ⟨[⟨⟨18446744073709551615⟩, 18446744073709551615, UInt64.size - 1⟩], [⟨⟨0⟩, 0, 0⟩]⟩

/-- The largest counts that their words hold. -/
def Summary.largest : Summary := ⟨UInt64.size - 1, UInt64.size - 1, UInt64.size - 1, UInt64.size - 1⟩

/-- Totals, views and counts are read back up to the last number, and settings without a book are not taken. -/
theorem json_round_trips_at_bounds :
    Stats.codec.parse (Stats.codec.print Stats.largest) = .ok Stats.largest ∧
    Depth.codec.parse (Depth.codec.print Depth.largest) = .ok Depth.largest ∧
    Summary.codec.parse (Summary.codec.print Summary.largest) = .ok Summary.largest ∧
    TrackerConfig.parse (TrackerConfig.codec.print ⟨⟨7⟩, [], 5, .skip, .default⟩) ≠
      .ok ⟨⟨7⟩, [], 5, .skip, .default⟩ := by
  obtain ⟨-, -, -, -, -, -, -, -, -, -, -, -, stats, depth, -, -, -, -, summary, -, config⟩ := json_round_trips
  -- The largest totals just fit, and a configuration without entries is written but not taken back.
  refine ⟨stats.parse_print _ ?_, depth.parse_print _ ?_, summary.parse_print _ ?_, ?_⟩
  · constructor <;> decide
  · unfold Depth.Fits
    decide
  · constructor <;> decide
  · rw [Ne, config]
    exact nofun

end LimitBook
