import LimitBook.Proofs.Announcement
import LimitBook.Proofs.Json.Record.Written

/-!
Announcements that are written out. Decoding the text of an announcement has the outcome that the announcement itself
has, whatever its strings hold, as long as its size and its price fit a word; beyond that the text is malformed.
-/

namespace LimitBook.Announcement

open Json

variable {a : Announcement} {members : List (String × Value)}

section Writing

/-- The members that an announcement is written as. -/
def written (a : Announcement) : List (String × Value) := fields.write a.row

/-- Everything in an announcement is written in plain values. -/
theorem writes_plain (a : Announcement) : fields.Writes Value.IsPlain a.row := by
  have signedWord : ∀ n : Timestamp, (Codec.signedWord.write n).IsPlain := by
    intro n
    have lower := n.le_toInt
    have upper := n.toInt_lt
    exact isPlain_int (by omega)
  -- An integer of two words is not longer than a number may be.
  have wide : ∀ n : WideInt, (wideInt.write n).IsPlain := by
    intro n
    have lower := n.le_toInt
    have upper := n.toInt_lt
    exact isPlain_int (by omega)
  -- Whatever is written is plain, field by field.
  exact ⟨isPlain_str _, isPlain_word _, isPlain_word _, isPlain_option (fun _ => isPlain_word _) _,
    isPlain_option (fun _ => isPlain_word _) _, isPlain_option signedWord _, isPlain_option isPlain_str _,
    isPlain_option isPlain_bool _, isPlain_option wide _, isPlain_option wide _, trivial⟩

/-- The text of an announcement is read as the object of its members as they are kept. -/
theorem parse?_print (a : Announcement) : Value.parse? (codec.print a) = some (.obj (keptMembers a.written)) :=
  Value.parse?_text_plain (Fields.forall_mem_write a.writes_plain)

/-- An announcement is written under different names. -/
theorem nodup_written (a : Announcement) : ((keptMembers a.written).map Prod.fst).Nodup := by
  -- The names are those of the fields, and each field writes one member at most.
  rw [map_fst_keptMembers]
  exact nodup_names.sublist (Fields.map_fst_write_sublist fields a.row)

end Writing

section Reading

variable {b : Announcement}

/-- What may be absent is found again if it is found again when present. -/
theorem option_ofValue_kept {α : Type} {codec : Codec α} (notNull : ∀ a, codec.ofValue .null ≠ .ok a) {a? : Option α}
    (back : ∀ a ∈ a?, codec.ofValue (codec.write a).kept = .ok a) :
    codec.option.ofValue (codec.option.write a?).kept = .ok a? := by
  cases a? with
  | none => rfl
  | some a =>
    have read : codec.ofValue (codec.write a).kept = .ok a := back a rfl
    -- What is read as a value is not taken for absent.
    have present : (codec.write a).kept ≠ .null := fun isNull => notNull a (isNull ▸ read)
    exact Codec.option_ofValue.mpr (.inr ⟨present, a, read, rfl⟩)

/-- Sizes and prices that a word holds are found again. -/
theorem wideInt_ofValue_kept {n : WideInt} (held : IsHeld n.toInt) : wideInt.ofValue (wideInt.write n).kept = .ok n :=
  wideInt_ofValue.mpr ⟨kept_int held, held⟩

/-- Sizes and prices that are read at all were such that a word holds them. -/
theorem isHeld_of_option_kept {n? b? : Option WideInt}
    (read : wideInt.option.ofValue (wideInt.option.write n?).kept = .ok b?) : ∀ n ∈ n?, IsHeld n.toInt := by
  intro n isN
  obtain rfl : n? = some n := isN
  by_contra beyond
  -- A number that no word holds is kept as a fraction, and no integer is read off that.
  have fraction : (wideInt.option.write (some n)).kept = .decimal n.toInt 0 := if_neg beyond
  rw [fraction] at read
  rcases Codec.option_ofValue.mp read with ⟨isNull, -⟩ | ⟨-, m, isM, -⟩
  · simp at isNull
  · simp [wideInt_ofValue] at isM

/-- What an announcement was written as holds the announcements that are read back field by field. -/
theorem holds_written_iff : Holds (keptMembers a.written) b ↔ fields.ReadsBack a.row b.row :=
  reads_row.symm.trans (Fields.reads_write nodup_names)

/-- What an announcement was written as holds the announcement, if words hold its size and its price. -/
theorem holds_written (size : ∀ n ∈ a.size, IsHeld n.toInt) (price : ∀ n ∈ a.price, IsHeld n.toInt) :
    Holds (keptMembers a.written) a := by
  have isBuy : isBuyField.Reads (isBuyField.written a.isBuy) a.isBuy := by
    -- The truth value is left out if it is absent, and being left out it is absent.
    cases a.isBuy with
    | none => exact FieldFormat.reads_nil.mpr rfl
    | some truth =>
      exact FieldFormat.reads_singleton.mpr (option_ofValue_kept nofun fun b _ => Codec.bool_ofValue.mpr rfl)
  -- Every field is read off what it has written; the size and the price are the only ones that a text may change.
  rw [holds_written_iff]
  exact ⟨FieldFormat.reads_singleton.mpr (Codec.string_ofValue.mpr rfl),
    FieldFormat.reads_singleton.mpr (Codec.map_word_ofValue_kept (fun _ => rfl) (fun _ => rfl) a.market),
    FieldFormat.reads_singleton.mpr (Codec.word_ofValue_kept a.sequence),
    FieldFormat.reads_singleton.mpr (option_ofValue_kept nofun fun id _ =>
      Codec.map_word_ofValue_kept (fun _ => rfl) (fun _ => rfl) id),
    FieldFormat.reads_singleton.mpr (option_ofValue_kept nofun fun id _ =>
      Codec.map_word_ofValue_kept (fun _ => rfl) (fun _ => rfl) id),
    FieldFormat.reads_singleton.mpr (option_ofValue_kept nofun fun n _ => Codec.signedWord_ofValue_kept n),
    FieldFormat.reads_singleton.mpr (option_ofValue_kept nofun fun _ _ => Codec.string_ofValue.mpr rfl),
    isBuy,
    FieldFormat.reads_singleton.mpr (option_ofValue_kept nofun fun n isN => wideInt_ofValue_kept (size n isN)),
    FieldFormat.reads_singleton.mpr (option_ofValue_kept nofun fun n isN => wideInt_ofValue_kept (price n isN)),
    trivial⟩

/-- What an announcement was written as holds nothing if no word holds its size or its price. -/
theorem isHeld_of_holds_written (holds : Holds (keptMembers a.written) b) :
    (∀ n ∈ a.size, IsHeld n.toInt) ∧ ∀ n ∈ a.price, IsHeld n.toInt := by
  -- What is given under the names of the size and of the price has been kept, and so was held.
  obtain ⟨-, -, -, -, -, -, -, -, size, price, -⟩ := holds_written_iff.mp holds
  exact ⟨isHeld_of_option_kept (FieldFormat.reads_singleton.mp size),
    isHeld_of_option_kept (FieldFormat.reads_singleton.mp price)⟩

/-- The kind that an announcement was written with is found among the members. -/
theorem given_kind_written (a : Announcement) : given (keptMembers a.written) ["type", "kind"] = [.str a.kind] :=
  (Fields.given_write_cons nodup_names a.kind a.row.2).1

end Reading

section Decoding

/-- A kind that is given once decides whether anything else is looked at. -/
theorem checkKind_sorted {kind : String} (distinct : (members.map Prod.fst).Nodup)
    (given_kind : given members ["type", "kind"] = [.str kind]) :
    checkKind (sorted (.obj members)) =
      if kind = "add" ∨ kind = "remove" then .ok () else .error (.unknownKind kind) := by
  -- Sorting the members does not change what is given.
  have same : (given (Value.sortMembers members) ["type", "kind"]).Perm (given members ["type", "kind"]) :=
    given_perm (sortMembers_perm distinct)
  rw [given_kind, List.perm_singleton] at same
  -- Under both names together the kind stands once, so either of them leads to it.
  unfold checkKind
  simp only [Announcement.sorted, Value.get?, lookup_or_lookup same]

/-- An announcement that members hold is decoded as it is, unless its kind is unknown. -/
theorem Holds.decodeValue_eq (holds : Holds members a) (distinct : (members.map Prod.fst).Nodup) :
    decodeValue (.obj members) =
      if a.kind = "add" ∨ a.kind = "remove" then a.event else .error (.unknownKind a.kind) := by
  -- Sorted by their keys the members hold the same announcement.
  have read : codec.ofValue (sorted (.obj members)) = .ok a :=
    codec_ofValue_obj.mpr (holds.perm (sortMembers_perm distinct).symm)
  simp only [decodeValue, checkKind_sorted distinct holds.kind, read]
  split <;> rfl

/-- Members that hold no announcement are malformed, unless their kind is unknown. -/
theorem decodeValue_eq_malformed {kind : String} (distinct : (members.map Prod.fst).Nodup)
    (given_kind : given members ["type", "kind"] = [.str kind]) (known : kind = "add" ∨ kind = "remove")
    (nothing : ∀ b, ¬Holds members b) : ∃ reason, decodeValue (.obj members) = .error (.malformed reason) := by
  simp only [decodeValue, checkKind_sorted distinct given_kind, if_pos known]
  cases read : codec.ofValue (sorted (.obj members)) with
  -- If the members were read, they would hold what was read.
  | ok b => exact absurd ((codec_ofValue_obj.mp read).perm (sortMembers_perm distinct)) (nothing b)
  | error reason => exact ⟨.unreadable reason, rfl⟩

/-- An announcement of an unknown kind is refused for its kind, once it is about an order. -/
theorem event_of_unknownKind (isAbout : a.id ≠ none) (unknown : ¬(a.kind = "add" ∨ a.kind = "remove")) :
    a.event = .error (.unknownKind a.kind) := by
  obtain ⟨id, isId⟩ := Option.ne_none_iff_exists'.mp isAbout
  -- Neither of the two kinds applies, which leaves the refusal.
  obtain ⟨notAdd, notRemove⟩ := not_or.mp unknown
  rw [Announcement.event, isId]
  show (if a.kind = "add" then _ else if a.kind = "remove" then _ else _) = _
  rw [if_neg notAdd, if_neg notRemove]
  rfl

/-- An event as it may be announced, with the side said by a word, by a truth value or by both. -/
def ofEvent (word? : Option String) (truth? : Option Bool) (event : Event) : Announcement :=
  let new? := match event.action with
    | .add new => some new
    | .remove _ => none
  { kind := event.action.kind.name
    market := event.market
    sequence := event.sequence
    id := some event.action.order
    owner := new?.map (·.owner)
    timestamp := new?.map (·.timestamp)
    side := word?
    isBuy := truth?
    size := new?.map fun new => BitVec.ofInt 128 new.size.toNat
    price := new?.map fun new => BitVec.ofInt 128 new.price.ticks.toNat }

/-- The word, or without a word the truth value, says the side. -/
def Tells (word? : Option String) (truth? : Option Bool) (side : Side) : Prop :=
  (∃ word, word? = some word ∧ IsSpelled word (sideName side)) ∨ word? = none ∧ truth? = some (decide (side = .buy))

/-- An event is announced as it is. -/
theorem event_ofEvent {word? : Option String} {truth? : Option Bool} {event : Event}
    (sound : ∀ new, event.action = .add new → new.size ≠ 0 ∧ Tells word? truth? new.side) :
    (ofEvent word? truth? event).event = .ok event := by
  -- The numbers are those of the event, and what an order needs is looked at one by one.
  rw [event_eq_ok]
  refine ⟨rfl, rfl, rfl, rfl, fun new isAdd => ?_⟩
  obtain ⟨positive, told⟩ := sound new isAdd
  rw [newOrder_eq_ok]
  simp only [ofEvent, isAdd]
  exact ⟨trivial, readSide_eq_ok.mpr told, rfl, rfl, ⟨_, rfl, toInt_ofInt_of_isHeld (isHeld_word new.size)⟩, positive,
    _, rfl, toInt_ofInt_of_isHeld (isHeld_word new.price.ticks)⟩

/-- Nothing in an event is beyond a word. -/
theorem isHeld_ofEvent (word? : Option String) (truth? : Option Bool) (event : Event) :
    (∀ n ∈ (ofEvent word? truth? event).size, IsHeld n.toInt) ∧
      ∀ n ∈ (ofEvent word? truth? event).price, IsHeld n.toInt := by
  -- The size and the price are words of the event, written as wider integers.
  have words : ∀ (word : UInt64) (n : WideInt), BitVec.ofInt 128 word.toNat = n → IsHeld n.toInt := by
    intro word n same
    rw [← same, toInt_ofInt_of_isHeld (isHeld_word word)]
    exact isHeld_word word
  obtain ⟨market, sequence, action⟩ := event
  cases action with
  | add new => exact ⟨fun n isN => words _ n (Option.some.inj isN), fun n isN => words _ n (Option.some.inj isN)⟩
  | remove id => exact ⟨nofun, nofun⟩

/-- The text of an announcement is decoded as the object of its members as they are kept. -/
theorem decodeLine_print_eq (a : Announcement) :
    decodeLine (codec.print a) = decodeValue (.obj (keptMembers a.written)) := by
  rw [decodeLine, parse?_print]

/--
Decoding the text of an announcement has the outcome of the announcement itself.

That is so for all strings, and whether or not the announcement is an event, if words hold its size and its price. A
size or a price beyond that is taken for a fraction, so that the text is malformed. In particular an event that is
announced in full is decoded from its text, however its side is said.
-/
theorem decodeLine_print :
    (∀ a : Announcement, a.kind = "add" ∨ a.kind = "remove" ∨ a.id ≠ none →
      (∀ n ∈ a.size, IsHeld n.toInt) → (∀ n ∈ a.price, IsHeld n.toInt) → decodeLine (codec.print a) = a.event) ∧
    (∀ a : Announcement, a.kind = "add" ∨ a.kind = "remove" →
      (∃ n ∈ a.size, ¬IsHeld n.toInt) ∨ (∃ n ∈ a.price, ¬IsHeld n.toInt) →
        ∃ reason, decodeLine (codec.print a) = .error (.malformed reason)) ∧
    ∀ word? truth? event, (∀ new, event.action = .add new → new.size ≠ 0 ∧ Tells word? truth? new.side) →
      decodeLine (codec.print (ofEvent word? truth? event)) = .ok event := by
  have asItIs : ∀ a : Announcement, a.kind = "add" ∨ a.kind = "remove" ∨ a.id ≠ none →
      (∀ n ∈ a.size, IsHeld n.toInt) → (∀ n ∈ a.price, IsHeld n.toInt) → decodeLine (codec.print a) = a.event := by
    intro a clear size price
    rw [decodeLine_print_eq, (holds_written size price).decodeValue_eq (nodup_written a)]
    split
    · rfl
    · next unknown =>
      -- The kind is refused in either case, since it is known what order it would be about.
      have isAbout : a.id ≠ none := (or_assoc.mpr clear).resolve_left unknown
      exact (event_of_unknownKind isAbout unknown).symm
  refine ⟨asItIs, fun a known beyond => ?beyond, fun word? truth? event sound => ?event⟩
  case beyond =>
    rw [decodeLine_print_eq]
    -- Whatever the text held would have a size and a price that words hold.
    refine decodeValue_eq_malformed (nodup_written a) (given_kind_written a) known fun b holds => ?_
    obtain ⟨size, price⟩ := isHeld_of_holds_written holds
    rcases beyond with ⟨n, isN, notHeld⟩ | ⟨n, isN, notHeld⟩
    · exact notHeld (size n isN)
    · exact notHeld (price n isN)
  case event =>
    -- An event has a number of its order, so it is decoded as it is.
    obtain ⟨size, price⟩ := isHeld_ofEvent word? truth? event
    rw [asItIs _ (.inr (.inr (Option.some_ne_none _))) size price]
    exact event_ofEvent sound

/-- A kind with a line end and a quote in it, a price of a whole word and one, and a sale said in capitals. -/
theorem decodeLine_print_odd :
    decodeLine (codec.print ⟨"add\n\"", ⟨7⟩, 0, some ⟨1⟩, none, none, some "\x00é", none, some (-3), none⟩) =
        .error (.unknownKind "add\n\"") ∧
      (∃ reason, decodeLine (codec.print
        ⟨"add", ⟨7⟩, 0, some ⟨1⟩, some ⟨2⟩, some 0, some "buy", none, some 5, some (0x10000000000000000)⟩) =
          .error (.malformed reason)) ∧
      decodeLine (codec.print (ofEvent (some "SELL") (some true) ⟨⟨7⟩, 3, .add ⟨⟨1⟩, ⟨2⟩, -9, .sell, 5, ⟨100⟩⟩⟩)) =
        .ok ⟨⟨7⟩, 3, .add ⟨⟨1⟩, ⟨2⟩, -9, .sell, 5, ⟨100⟩⟩⟩ := by
  obtain ⟨asItIs, beyond, ofEvents⟩ := decodeLine_print
  -- The first announcement is read back as it is, the second is too large, and the third comes from an event.
  refine ⟨?_, ?_, ?_⟩
  · exact asItIs _ (.inr (.inr (Option.some_ne_none _))) (fun n isN => Option.some.inj isN ▸ by decide) (by nofun)
  · exact beyond _ (.inl rfl) (.inr ⟨_, rfl, by decide⟩)
  · refine ofEvents _ _ _ fun new isNew => ?_
    obtain rfl := Action.add.inj isNew
    exact ⟨by decide, .inl ⟨"SELL", rfl, by unfold IsSpelled; decide⟩⟩

end Decoding

end LimitBook.Announcement
