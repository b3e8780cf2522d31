import LimitBook.Proofs.Announcement.Written
import LimitBook.Proofs.Json.Readable
import Mathlib.Data.List.Nodup

/-!
Refusals of announcements. An unknown kind is refused for its kind, whatever else is said. Otherwise the fields are
looked at, and an announcement with any fault in them is malformed. What is then left to refuse is an order to be added,
and its size is to blame exactly if everything that is asked for before the size is there and the size is not positive.
-/

namespace LimitBook

namespace Json

section Lookup

variable {members others : List (String × Value)} {key : String} {value : Value}

/-- Among different keys a key is found with the one value that it is given. -/
theorem lookup_eq_some_iff_mem (distinct : (members.map Prod.fst).Nodup) :
    members.lookup key = some value ↔ (key, value) ∈ members := by
  rw [List.lookup_eq_some_iff]
  constructor
  · rintro ⟨before, after, rfl, -⟩
    exact List.mem_append_right _ List.mem_cons_self
  · intro isMember
    obtain ⟨before, after, rfl⟩ := List.append_of_mem isMember
    rw [List.map_append, List.map_cons, List.nodup_middle, List.nodup_cons] at distinct
    refine ⟨before, after, rfl, fun member earlier => bne_iff_ne.mpr ?_⟩
    -- The key stands here, so it does not stand before.
    rintro same
    exact distinct.1 (List.mem_append_left _ (List.mem_map.mpr ⟨member, earlier, same.symm⟩))

/-- The order of members of different keys does not matter for what is found. -/
theorem lookup_perm (distinct : (members.map Prod.fst).Nodup) (same : others.Perm members) (key : String) :
    others.lookup key = members.lookup key := by
  -- Without repetition a key leads to the one member that has it, wherever that stands.
  have distinct' : (others.map Prod.fst).Nodup := (same.map Prod.fst).nodup_iff.mpr distinct
  apply Option.ext
  intro value
  rw [lookup_eq_some_iff_mem distinct, lookup_eq_some_iff_mem distinct', same.mem_iff]

/-- What is found under a name is given under it. -/
theorem mem_given_of_lookup {names : List String} (named : key ∈ names) (found : members.lookup key = some value) :
    value ∈ given members names := by
  -- The members are split where the key stands, and this part is given under any names that list the key.
  obtain ⟨before, after, rfl, -⟩ := List.lookup_eq_some_iff.mp found
  simp [given, named]

/-- What is given once at most is the only thing given. -/
theorem given_eq_singleton {names : List String} (once : (given members names).length ≤ 1)
    (isGiven : value ∈ given members names) : given members names = [value] := by
  -- Of no more than one value the given one is the only one.
  generalize given members names = values at once isGiven ⊢
  match values with
  | [] => simp at isGiven
  | [other] => rw [List.mem_singleton.mp isGiven]
  | _ :: _ :: _ => simp at once

end Lookup

end Json

namespace Announcement

open Json

section Faults

/-- A value that is a text. -/
def IsString (value : Value) : Prop := ∃ word, value = .str word

/-- A value that is a word. -/
def IsWord (value : Value) : Prop := ∃ n : UInt64, value = .int n.toNat

/-- A value that is a signed word. -/
def IsSignedWord (value : Value) : Prop := ∃ n : Int64, value = .int n.toInt

/-- A value that is an integer, as far as values hold integers. -/
def IsInteger (value : Value) : Prop := ∃ n, value = .int n ∧ IsHeld n

/-- A value that is a truth value. -/
def IsTruth (value : Value) : Prop := ∃ truth, value = .bool truth

/-- A value of some type, or null in its place. -/
def OrNull (IsOfType : Value → Prop) (value : Value) : Prop := value = .null ∨ IsOfType value

/-- The names of every field with the values that may stand there. -/
def types : List (List String × (Value → Prop)) :=
  [(["type", "kind"], IsString), (["market", "market_id", "book_id", "book"], IsWord), (["sequence", "tick"], IsWord),
    (["id", "order_id", "oid"], OrNull IsWord), (["user_id", "owner_id", "user"], OrNull IsWord),
    (["timestamp", "time"], OrNull IsSignedWord), (["side"], OrNull IsString), (["is_buy"], OrNull IsTruth),
    (["size", "quantity"], OrNull IsInteger), (["price"], OrNull IsInteger)]

/-- The names of the fields that announcements of every kind must give, apart from the kind itself. -/
def needed : List (List String) :=
  [["market", "market_id", "book_id", "book"], ["sequence", "tick"], ["id", "order_id", "oid"]]

/-- The kind as it is looked at first: what is given as `type`, or else what is given as `kind`. -/
def kind? (members : List (String × Value)) : Option Value := (members.lookup "type").or (members.lookup "kind")

/-- Something is wrong with the fields of an announcement, of whatever kind it is. -/
inductive Faulty (members : List (String × Value)) : Prop
  | noKind (absent : kind? members = none)
  | kindNotString {value : Value} (found : kind? members = some value) (notString : ¬IsString value)
  | twice {names : List String} (isField : names ∈ synonyms) (again : 1 < (given members names).length)
  | wrongType {names : List String} {IsOfType : Value → Prop} {value : Value} (isField : (names, IsOfType) ∈ types)
      (isGiven : value ∈ given members names) (wrong : ¬IsOfType value)
  | missing {names : List String} (isNeeded : names ∈ needed) (missing : ∀ value ∈ given members names, value = .null)

/-- What is asked for before the size of an order is given, and the size is given but not positive. -/
structure SizeRefused (members : List (String × Value)) : Prop where
  /-- The side is called by its name; only without a name the truth value counts. -/
  side : (∃ side word, given members ["side"] = [.str word] ∧ IsSpelled word (sideName side)) ∨
    (given members ["side"] = [] ∨ given members ["side"] = [.null]) ∧ ∃ truth, given members ["is_buy"] = [.bool truth]
  owner : ∃ value ∈ given members ["user_id", "owner_id", "user"], value ≠ .null
  timestamp : ∃ value ∈ given members ["timestamp", "time"], value ≠ .null
  size : ∃ n ≤ 0, given members ["size", "quantity"] = [.int n]

end Faults

variable {members : List (String × Value)} {a : Announcement} {error : BookError} {id : OrderId}

section Orders

/-- What an order is refused for is its size, and nothing that is asked for before. -/
structure FailsForSize (a : Announcement) : Prop where
  side : ∃ side, readSide a.side a.isBuy = .ok side
  owner : a.owner ≠ none
  timestamp : a.timestamp ≠ none
  size : ∃ size, a.size = some size ∧ ¬(0 < size.toInt ∧ size.toInt < 0x10000000000000000)

/-- Two steps are refused if the first is or, after it, the second. -/
theorem bind_eq_error {ε α β : Type} {first : Except ε α} {second : α → Except ε β} {error : ε} :
    first >>= second = .error error ↔ first = .error error ∨ ∃ a, first = .ok a ∧ second a = .error error := by
  cases first <;> simp [Bind.bind, Except.bind]

/-- What is demanded and not there is missing. -/
theorem need_eq_error {α : Type} {field : String} {value? : Option α} :
    need field value? = .error error ↔ value? = none ∧ error = .malformed (.missing field) := by
  cases value? <;> simp [need, eq_comm]

/-- A side that cannot be told makes an announcement malformed. -/
theorem readSide_error {word? : Option String} {truth? : Option Bool} (refused : readSide word? truth? = .error error) :
    ∃ reason, error = .malformed reason := by
  -- A word may be unknown, and without any word the truth value may be missing.
  unfold readSide at refused
  split at refused
  · split_ifs at refused
    exact ⟨_, (Except.error.inj refused).symm⟩
  · cases refused
  · cases refused
  · exact ⟨_, (Except.error.inj refused).symm⟩

/-- A size is refused if it is not a positive word. -/
theorem readSize_eq_error {size : WideInt} :
    readSize id size = .error error ↔
      ¬(0 < size.toInt ∧ size.toInt < 0x10000000000000000) ∧ error = .invalidSize id := by
  -- A size outside of the words or of zero is refused, and any other is read.
  unfold readSize
  split <;> simp_all [eq_comm]

/-- A price that is no word makes an announcement malformed. -/
theorem readPrice_error {price : WideInt} (refused : readPrice price = .error error) :
    ∃ reason, error = .malformed reason := by
  -- A price is refused only if it is outside of the words.
  unfold readPrice at refused
  split at refused
  · cases refused
  · exact ⟨_, (Except.error.inj refused).symm⟩

/-- What fails for its size has no size that can be read. -/
theorem not_failsForSize {size : WideInt} {n : Quantity} (isSize : a.size = some size)
    (read : readSize id size = .ok n) :
    ¬a.FailsForSize := by
  -- A size that is read is not one that is refused.
  intro fails
  obtain ⟨size', isSize', bad⟩ := fails.size
  obtain rfl : size = size' := Option.some.inj (isSize.symm.trans isSize')
  rw [readSize_eq_error.mpr ⟨bad, rfl⟩] at read
  cases read

/-- An order that is refused fails for its size, or the announcement is malformed. -/
theorem newOrder_error (refused : a.newOrder id = .error error) :
    error = .invalidSize id ∧ a.FailsForSize ∨ (∃ reason, error = .malformed reason) ∧ ¬a.FailsForSize := by
  -- The first demand that is not met decides.
  simp only [newOrder, bind_eq_error, need_eq_error, need_eq_ok] at refused
  rcases refused with noSide | ⟨side, isSide, ⟨noOwner, rfl⟩ | ⟨owner, isOwner, ⟨noTimestamp, rfl⟩ |
    ⟨timestamp, isTimestamp, ⟨noSize, rfl⟩ | ⟨wideSize, isSize, badSize | ⟨size, goodSize, ⟨noPrice, rfl⟩ |
      ⟨widePrice, isPrice, badPrice | ⟨price, goodPrice, accepted⟩⟩⟩⟩⟩⟩⟩
  · -- Without a side the size is not looked at.
    refine .inr ⟨readSide_error noSide, fun fails => ?_⟩
    obtain ⟨side, isSide⟩ := fails.side
    simp [noSide] at isSide
  · exact .inr ⟨⟨_, rfl⟩, fun fails => fails.owner noOwner⟩
  · exact .inr ⟨⟨_, rfl⟩, fun fails => fails.timestamp noTimestamp⟩
  · -- A size that is missing is none that is wrong.
    refine .inr ⟨⟨_, rfl⟩, fun fails => ?_⟩
    obtain ⟨size, isSize, -⟩ := fails.size
    simp [noSize] at isSize
  · -- The size is reached and refused.
    obtain ⟨bad, rfl⟩ := readSize_eq_error.mp badSize
    exact .inl ⟨rfl, ⟨side, isSide⟩, by simp [isOwner], by simp [isTimestamp], wideSize, isSize, bad⟩
  · exact .inr ⟨⟨_, rfl⟩, not_failsForSize isSize goodSize⟩
  · exact .inr ⟨readPrice_error badPrice, not_failsForSize isSize goodSize⟩
  · cases accepted

end Orders

section Fields

/-- Everything that is held is of its type. -/
theorem Holds.typed (holds : Holds members a) :
    ∀ field ∈ types, ∀ value ∈ given members field.1, field.2 value := by
  -- Everything is written as the type of its field asks, or is null where nothing is needed.
  obtain ⟨kind, market, sequence, id, owner, timestamp, side, isBuy, size, price⟩ := holds
  have wide {n? : Option WideInt} {values : List Value}
      (optionally : Optionally values (fun n value => value = .int n.toInt ∧ IsHeld n.toInt) n?) :
      ∀ value ∈ values, OrNull IsInteger value := fun value member =>
    (optionally.typed value member).imp_right (·.elim fun n isInteger => ⟨n.toInt, isInteger⟩)
  simp only [types, List.forall_mem_cons, List.not_mem_nil, false_implies, implies_true, and_true]
  refine ⟨?_, ?_, ?_, ?_, ?_, timestamp.typed, side.typed, isBuy.typed, wide size, wide price⟩
  · -- What is needed is given once, as it is held.
    rw [kind]
    exact List.forall_mem_singleton.mpr ⟨_, rfl⟩
  · rw [market]
    exact List.forall_mem_singleton.mpr ⟨_, rfl⟩
  · rw [sequence]
    exact List.forall_mem_singleton.mpr ⟨_, rfl⟩
  · exact fun value member => (id.typed value member).imp_right (·.elim fun n isWord => ⟨n.number, isWord⟩)
  · exact fun value member => (owner.typed value member).imp_right (·.elim fun n isWord => ⟨n.number, isWord⟩)

/-- The kind that is held is the one that is looked at first. -/
theorem Holds.kind?_eq (holds : Holds members a) : kind? members = some (.str a.kind) := lookup_or_lookup holds.kind

/-- What is held has no fault, except that it may not say what order it is about. -/
theorem Holds.id_eq_none (holds : Holds members a) (faulty : Faulty members) : a.id = none := by
  -- What is held has none of the faults but one: the number may be missing.
  cases faulty with
  | noKind absent => simp [holds.kind?_eq] at absent
  | kindNotString found notString =>
    obtain rfl := Option.some.inj (holds.kind?_eq.symm.trans found)
    exact absurd ⟨_, rfl⟩ notString
  | twice isField again => exact absurd (holds.once _ isField) (Nat.not_le_of_lt again)
  | wrongType isField isGiven wrong => exact absurd (holds.typed _ isField _ isGiven) wrong
  | missing isNeeded missing =>
    simp only [needed, List.mem_cons, List.not_mem_nil, or_false] at isNeeded
    rcases isNeeded with rfl | rfl | rfl
    · simp [holds.market] at missing
    · simp [holds.sequence] at missing
    · -- The number is given if it is held.
      have optionally := holds.id
      cases isId : a.id with
      | none => rfl
      | some id =>
        rw [isId] at optionally
        obtain ⟨value, single, rfl⟩ := optionally
        simp [single] at missing

/-- The kind that is looked at first is given under a name of the kind. -/
theorem mem_given_of_kind? {value : Value} (found : kind? members = some value) :
    value ∈ given members ["type", "kind"] := by
  -- The kind is looked up under one of its two names.
  rcases Option.or_eq_some_iff.mp found with isType | ⟨-, isKind⟩
  · exact mem_given_of_lookup (by simp) isType
  · exact mem_given_of_lookup (by simp) isKind

/-- Without fault no field is given twice. -/
theorem once_of_not_faulty (fine : ¬Faulty members) : ∀ names ∈ synonyms, (given members names).length ≤ 1 :=
  fun _ isField => Nat.le_of_not_lt fun again => fine (.twice isField again)

/-- Without fault a kind is given. -/
theorem exists_kind_of_not_faulty (fine : ¬Faulty members) : ∃ word, given members ["type", "kind"] = [.str word] := by
  -- There is at most one kind, at least one, and it is a string.
  have once := once_of_not_faulty fine ["type", "kind"] (by decide)
  cases found : kind? members with
  | none => exact absurd (.noKind found) fine
  | some value =>
    obtain ⟨word, rfl⟩ : IsString value := by_contra fun notString => fine (.kindNotString found notString)
    exact ⟨word, given_eq_singleton once (mem_given_of_kind? found)⟩

/-- Members without fault hold an announcement about some order. -/
theorem exists_holds_of_not_faulty (fine : ¬Faulty members) : ∃ a, Holds members a ∧ a.id ≠ none := by
  -- Nothing is given twice, everything is of its type, and what is needed is there.
  have once := once_of_not_faulty fine
  have typed : ∀ field ∈ types, ∀ value ∈ given members field.1, field.2 value := fun _ isField _ isGiven =>
    by_contra fun wrong => fine (.wrongType isField isGiven wrong)
  have there : ∀ names ∈ needed, ∃ value ∈ given members names, value ≠ .null := fun names isNeeded => by
    by_contra missing
    exact fine (.missing isNeeded fun value isGiven => by_contra fun notNull => missing ⟨value, isGiven, notNull⟩)
  obtain ⟨kind, isKind⟩ := exists_kind_of_not_faulty fine
  simp only [synonyms, List.forall_mem_cons] at once
  simp only [types, List.forall_mem_cons] at typed
  simp only [needed, List.forall_mem_cons] at there
  obtain ⟨-, onceMarket, onceSequence, onceId, onceOwner, onceTimestamp, onceSide, onceIsBuy, onceSize, oncePrice,
    -⟩ := once
  obtain ⟨-, marketTyped, sequenceTyped, idTyped, ownerTyped, timestampTyped, sideTyped, isBuyTyped, sizeTyped,
    priceTyped, -⟩ := typed
  obtain ⟨⟨_, hasMarket, -⟩, ⟨_, hasSequence, -⟩, ⟨_, hasId, idNotNull⟩, -⟩ := there
  -- What is needed is there once and of its type, and what is not needed is absent or of its type.
  obtain ⟨market, rfl⟩ := marketTyped _ hasMarket
  obtain ⟨sequence, rfl⟩ := sequenceTyped _ hasSequence
  obtain ⟨id, rfl⟩ := (idTyped _ hasId).resolve_left idNotNull
  obtain ⟨owner, isOwner⟩ : ∃ owner? : Option OwnerId, Optionally (given members ["user_id", "owner_id", "user"])
      (fun n value => value = .int n.number.toNat) owner? :=
    exists_optionally onceOwner fun value isGiven =>
      (ownerTyped value isGiven).imp_right (·.elim fun n isWord => ⟨⟨n⟩, isWord⟩)
  obtain ⟨timestamp, isTimestamp⟩ := exists_optionally onceTimestamp timestampTyped
  obtain ⟨side, isSide⟩ := exists_optionally onceSide sideTyped
  obtain ⟨isBuy, isIsBuy⟩ := exists_optionally onceIsBuy isBuyTyped
  obtain ⟨size, isSize⟩ := exists_optionally onceSize fun value isGiven =>
    (sizeTyped value isGiven).imp_right exists_wideInt
  obtain ⟨price, isPrice⟩ := exists_optionally oncePrice fun value isGiven =>
    (priceTyped value isGiven).imp_right exists_wideInt
  exact ⟨⟨kind, ⟨market⟩, sequence, some ⟨id⟩, owner, timestamp, side, isBuy, size, price⟩,
    ⟨isKind, given_eq_singleton onceMarket hasMarket, given_eq_singleton onceSequence hasSequence,
      ⟨_, given_eq_singleton onceId hasId, rfl⟩, isOwner, isTimestamp, isSide, isIsBuy, isSize, isPrice⟩,
    Option.some_ne_none _⟩

/-- Something is there exactly if it is given otherwise than as null. -/
theorem Optionally.ne_none_iff {α : Type} {isWritten : α → Value → Prop} {values : List Value} {b? : Option α}
    (optionally : Optionally values isWritten b?) (notNull : ∀ b, ¬isWritten b .null) :
    b? ≠ none ↔ ∃ value ∈ values, value ≠ .null := by
  -- Without a value there is null at most, and a value is never written as null.
  cases b? with
  | none => rcases optionally with rfl | rfl <;> simp
  | some b =>
    obtain ⟨value, rfl, isB⟩ := optionally
    have present : value ≠ .null := fun isNull => notNull b (isNull ▸ isB)
    simp [present]

/-- The side can be told from what is held exactly if it can be told from what is given. -/
theorem Holds.side_iff (holds : Holds members a) :
    (∃ side, readSide a.side a.isBuy = .ok side) ↔
      (∃ side word, given members ["side"] = [.str word] ∧ IsSpelled word (sideName side)) ∨
        (given members ["side"] = [] ∨ given members ["side"] = [.null]) ∧
          ∃ truth, given members ["is_buy"] = [.bool truth] := by
  have side := holds.side
  have isBuy := holds.isBuy
  -- The side is told by its word, or by the truth value if there is no word.
  constructor
  · -- A word or a truth value was read off.
    rintro ⟨told, isTold⟩
    rcases readSide_eq_ok.mp isTold with ⟨word, isWord, spelled⟩ | ⟨noWord, isTruth⟩
    · rw [isWord] at side
      obtain ⟨_, side, rfl⟩ := side
      exact .inl ⟨told, word, side, spelled⟩
    · rw [noWord] at side
      rw [isTruth] at isBuy
      obtain ⟨_, isBuy, rfl⟩ := isBuy
      exact .inr ⟨side, _, isBuy⟩
  · -- The word or the truth value is what was held.
    rintro (⟨told, word, isGiven, spelled⟩ | ⟨noWord, truth, isGiven⟩)
    · rw [isGiven] at side
      obtain ⟨word', isWord, same⟩ := side.exists_eq_some nofun
      obtain rfl := Value.str.inj same
      exact ⟨told, readSide_eq_ok.mpr (.inl ⟨word, isWord, spelled⟩)⟩
    · rw [isGiven] at isBuy
      obtain ⟨truth', isTruth, same⟩ := isBuy.exists_eq_some nofun
      obtain rfl := Value.bool.inj same
      refine ⟨if truth then .buy else .sell, readSide_eq_ok.mpr (.inr ⟨side.eq_none noWord nofun, ?_⟩)⟩
      rw [isTruth]
      cases truth <;> rfl

/-- What is held fails for its size exactly if the members are to be refused for the size. -/
theorem Holds.failsForSize_iff (holds : Holds members a) : a.FailsForSize ↔ SizeRefused members := by
  -- What is missing for the one is missing for the other.
  have owner := holds.owner.ne_none_iff nofun
  have timestamp := holds.timestamp.ne_none_iff nofun
  have size := holds.size
  constructor
  · rintro ⟨hasSide, hasOwner, hasTimestamp, wide, isSize, bad⟩
    rw [isSize] at size
    obtain ⟨_, size, rfl, held⟩ := size
    -- No value holds an integer above all words.
    have low : wide.toInt ≤ 0 := by
      unfold IsHeld at held
      omega
    exact ⟨holds.side_iff.mp hasSide, owner.mp hasOwner, timestamp.mp hasTimestamp, wide.toInt, low, size⟩
  · rintro ⟨hasSide, hasOwner, hasTimestamp, n, low, isGiven⟩
    rw [isGiven] at size
    obtain ⟨wide, isSize, same, -⟩ := size.exists_eq_some nofun
    obtain rfl := Value.int.inj same
    exact ⟨holds.side_iff.mpr hasSide, owner.mpr hasOwner, timestamp.mpr hasTimestamp, wide, isSize, by omega⟩

end Fields

section Decoding

variable {value : Value} {kind : String} {line : String}

/-- Sorting members of different keys does not change the kind that is looked at first. -/
theorem kind?_sortMembers (distinct : (members.map Prod.fst).Nodup) :
    kind? (Value.sortMembers members) = kind? members := by
  -- Sorting changes nothing that is looked up.
  have found := lookup_perm distinct (sortMembers_perm distinct)
  unfold kind?
  rw [found, found]

/-- The kind of an object is looked at before anything else. -/
theorem checkKind_sorted_obj (distinct : (members.map Prod.fst).Nodup) :
    checkKind (sorted (.obj members)) =
      match kind? members with
      | some (.str kind) => if kind = "add" ∨ kind = "remove" then .ok () else .error (.unknownKind kind)
      | some _ => .error (.malformed .kindNotText)
      | none => .ok () := by
  -- Only the kind is looked at, and sorting does not change what is found.
  rw [← kind?_sortMembers distinct]
  rfl

/-- An unknown kind is refused for its kind. -/
theorem decodeValue_unknownKind (distinct : (members.map Prod.fst).Nodup) (found : kind? members = some (.str kind))
    (unknown : ¬(kind = "add" ∨ kind = "remove")) : decodeValue (.obj members) = .error (.unknownKind kind) := by
  -- The check comes first, and it refuses the kind.
  simp only [decodeValue, checkKind_sorted_obj distinct, found, if_neg unknown]
  rfl

/-- An object with a fault is malformed, unless its kind is unknown. -/
theorem Faulty.decodeValue_malformed (faulty : Faulty members) (distinct : (members.map Prod.fst).Nodup)
    (known : ∀ kind, kind? members = some (.str kind) → kind = "add" ∨ kind = "remove") :
    ∃ reason, decodeValue (.obj members) = .error (.malformed reason) := by
  have kindChecked : checkKind (sorted (.obj members)) = .ok () ∨
      checkKind (sorted (.obj members)) = .error (.malformed .kindNotText) := by
    rw [checkKind_sorted_obj distinct]
    -- A kind that is given is a string that is known, or it is no string.
    split
    · next kind found => exact .inl (if_pos (known kind found))
    · exact .inr rfl
    · exact .inl rfl
  unfold decodeValue
  rcases kindChecked with passes | refused
  · simp only [passes]
    cases read : codec.ofValue (sorted (.obj members)) with
    | error reason => exact ⟨.unreadable reason, rfl⟩
    | ok a =>
      -- The fields can be read, so the order is what is missing.
      have holds : Holds members a := (codec_ofValue_obj.mp read).perm (sortMembers_perm distinct)
      have noId := holds.id_eq_none faulty
      refine ⟨.missing "id", ?_⟩
      show a.event = _
      rw [Announcement.event, noId]
      rfl
  · simp only [refused]
    exact ⟨_, rfl⟩

/-- An order that is announced and refused is refused as the order that it is. -/
theorem newOrder_of_event (isAdd : a.kind = "add") (isId : a.id = some id) (refused : a.event = .error error) :
    a.newOrder id = .error error := by
  -- The kind and the number are fine, and so only what the order needs is left.
  rw [Announcement.event, isId] at refused
  replace refused : (if a.kind = "add" then _ else _) = Except.error error := refused
  rw [if_pos isAdd] at refused
  rcases bind_eq_error.mp refused with refused | ⟨_, -, accepted⟩
  · exact refused
  · cases accepted

/-- An order that is known is cancelled without further demands. -/
theorem event_of_remove (isRemove : a.kind = "remove") (isId : a.id = some id) :
    a.event = .ok ⟨a.market, a.sequence, .remove id⟩ :=
  event_eq_ok.mpr ⟨isRemove, rfl, rfl, isId, nofun⟩

/-- An object without fault that is refused announces an order, which is refused for its size or is malformed. -/
theorem refusal_of_not_faulty (distinct : (members.map Prod.fst).Nodup) (fine : ¬Faulty members)
    (known : ∀ kind, kind? members = some (.str kind) → kind = "add" ∨ kind = "remove")
    (refused : decodeValue (.obj members) = .error error) :
    kind? members = some (.str "add") ∧
      ∃ id : OrderId, given members ["id", "order_id", "oid"] = [.int id.number.toNat] ∧
        (error = .invalidSize id ∧ SizeRefused members ∨
          (∃ reason, error = .malformed reason) ∧ ¬SizeRefused members) := by
  -- Everything but the order is fine, so that the outcome is that of reading the order.
  obtain ⟨a, holds, isAbout⟩ := exists_holds_of_not_faulty fine
  obtain ⟨id, isId⟩ := Option.ne_none_iff_exists'.mp isAbout
  have kind := holds.kind?_eq
  have isKnown := known _ kind
  rw [holds.decodeValue_eq distinct, if_pos isKnown] at refused
  -- Only an order can still be refused; a removal needs nothing else.
  rcases isKnown with isAdd | isRemove
  · have given_id := holds.id
    rw [isId] at given_id
    obtain ⟨_, given_id, rfl⟩ := given_id
    rw [← holds.failsForSize_iff]
    exact ⟨isAdd ▸ kind, id, given_id, newOrder_error (newOrder_of_event isAdd isId refused)⟩
  · rw [event_of_remove isRemove isId] at refused
    cases refused

/-- Whatever is wrong with an announcement, it is not that it is no JSON. -/
theorem event_ne_notJson (a : Announcement) (line : String) : a.event ≠ .error (@BookError.notJson line) := by
  -- An event asks for its number, for its kind, and for the parts of an order, each with a refusal of its own.
  intro refused
  simp only [Announcement.event, bind_eq_error, need_eq_error, need_eq_ok] at refused
  rcases refused with ⟨-, isOther⟩ | ⟨id, -, refused⟩
  · cases isOther
  · split at refused
    · rcases bind_eq_error.mp refused with refused | ⟨_, -, accepted⟩
      · rcases newOrder_error refused with ⟨isOther, -⟩ | ⟨⟨_, isOther⟩, -⟩ <;> cases isOther
      · cases accepted
    · split at refused <;> cases refused

/-- Whatever is wrong with a value, it is not that it is no JSON. -/
theorem decodeValue_ne_notJson (value : Value) (line : String) :
    decodeValue value ≠ .error (@BookError.notJson line) := by
  -- The kind is checked, the record is read, and the event is made, each with a refusal of its own.
  intro refused
  simp only [decodeValue, bind_eq_error] at refused
  rcases refused with refused | ⟨_, -, refused⟩
  · unfold checkKind at refused
    split at refused
    · split at refused <;> cases refused
    · cases refused
    · cases refused
  · split at refused
    · exact event_ne_notJson _ line refused
    · cases refused

/-- A line is refused as no JSON exactly if it is not read as a value, and otherwise has the outcome of the value. -/
theorem decodeLine_eq (line : String) :
    (∀ other, decodeLine line = .error (@BookError.notJson other) ↔ other = line ∧ Value.parse? line = none) ∧
      ∀ value, Value.parse? line = some value → decodeLine line = decodeValue value := by
  unfold decodeLine
  cases Value.parse? line with
  | none => simp [eq_comm]
  | some value =>
    -- What is read is refused for other reasons, if at all.
    have differs := decodeValue_ne_notJson value
    simp [differs]

/--
Every refusal has the right class.

An object of different keys that is refused is refused for an unknown kind, if its kind is a text and is unknown,
whatever else it holds. Otherwise any fault in its fields makes it malformed. Without a fault it announces an order to
be added, and this is refused for its size exactly if everything that is asked for before the size is given and the size
is not positive; in every other case it is malformed. A line adds no other outcome than that it is no JSON, which is so
exactly if it is not the text of anything readable that nests less deep than the limit.
-/
theorem refusals :
    (∀ members error, (members.map Prod.fst).Nodup → decodeValue (.obj members) = .error error →
      (∀ kind, kind? members = some (.str kind) → ¬(kind = "add" ∨ kind = "remove") → error = .unknownKind kind) ∧
      ((∀ kind, kind? members = some (.str kind) → kind = "add" ∨ kind = "remove") →
        (Faulty members → ∃ reason, error = .malformed reason) ∧
        (¬Faulty members → kind? members = some (.str "add") ∧
          ∃ id : OrderId, given members ["id", "order_id", "oid"] = [.int id.number.toNat] ∧
            (error = .invalidSize id ↔ SizeRefused members) ∧
            (¬SizeRefused members → ∃ reason, error = .malformed reason)))) ∧
    ∀ line, (∀ other, decodeLine line = .error (@BookError.notJson other) ↔
        other = line ∧ ¬∃ root : Draft, root.IsText line ∧ root.IsReadable ∧ root.depth < depthLimit) ∧
      (∀ value, Value.parse? line = some value → decodeLine line = decodeValue value) ∧
      ∀ value other, decodeValue value ≠ .error (@BookError.notJson other) := by
  refine ⟨fun members error distinct refused => ⟨?unknown, fun known => ⟨?faulty, ?fine⟩⟩, fun line => ?line⟩
  case unknown =>
    -- The kind is looked at before anything else is.
    intro kind found unknown
    exact Except.error.inj (refused.symm.trans (decodeValue_unknownKind distinct found unknown))
  case faulty =>
    intro faulty
    obtain ⟨reason, malformed⟩ := faulty.decodeValue_malformed distinct known
    exact ⟨reason, Except.error.inj (refused.symm.trans malformed)⟩
  case fine =>
    -- Only the size and the price of an order can still be refused, and the two classes exclude each other.
    intro fine
    obtain ⟨isAdd, id, given_id, ⟨rfl, forSize⟩ | ⟨⟨reason, rfl⟩, notForSize⟩⟩ :=
      refusal_of_not_faulty distinct fine known refused
    · exact ⟨isAdd, id, given_id, ⟨fun _ => forSize, fun _ => rfl⟩, fun otherwise => absurd forSize otherwise⟩
    · exact ⟨isAdd, id, given_id, ⟨nofun, fun forSize => absurd forSize notForSize⟩, fun _ => ⟨reason, rfl⟩⟩
  case line =>
    -- A line is no JSON if no value can be read from it, and values are never refused in this way.
    obtain ⟨notJson, asValue⟩ := decodeLine_eq line
    refine ⟨fun other => ?_, asValue, decodeValue_ne_notJson⟩
    rw [notJson, ← Value.isSome_parse?, Option.not_isSome_iff_eq_none]

/-- A trade is no announcement, a cancellation of nothing is malformed, and a size below zero comes before a price. -/
theorem refusals_oneByOne :
    let trade : List (String × Value) := [("kind", .str "trade"), ("id", .null), ("oid", .null)]
    let nothing : List (String × Value) :=
      [("type", .str "remove"), ("market", .int 7), ("tick", .int 0), ("id", .null)]
    let order : List (String × Value) :=
      [("type", .str "add"), ("market", .int 7), ("sequence", .int 0), ("id", .int 1), ("user", .int 2),
        ("time", .int 3), ("is_buy", .bool true), ("quantity", .int (-4)), ("price", .int (-1))]
    decodeValue (.obj trade) = .error (.unknownKind "trade") ∧
      (∃ reason, decodeValue (.obj nothing) = .error (.malformed reason)) ∧
      decodeValue (.obj order) = .error (.invalidSize ⟨1⟩) ∧ SizeRefused order ∧
      decodeLine "[" = .error (@BookError.notJson "[") := by
  -- Each list of members has the one fault that its name tells.
  intro trade nothing order
  obtain ⟨values, lines⟩ := refusals
  have refused {members : List (String × Value)} (isRefused : (decodeValue (.obj members)).toOption = none) :
      ∃ error, decodeValue (.obj members) = .error error := by
    cases outcome : decodeValue (.obj members) with
    | ok event => simp [outcome, Except.toOption] at isRefused
    | error error => exact ⟨error, rfl⟩
  have sizeRefused : SizeRefused order :=
    ⟨.inr ⟨.inl rfl, true, rfl⟩, ⟨.int 2, List.mem_singleton.mpr rfl, nofun⟩,
      ⟨.int 3, List.mem_singleton.mpr rfl, nofun⟩, -4, by decide, rfl⟩
  refine ⟨?_, ?_, ?_, sizeRefused, ?_⟩
  · obtain ⟨error, isError⟩ : ∃ error, decodeValue (.obj trade) = .error error := refused (by decide +kernel)
    rw [isError, (values trade error (by decide) isError).1 "trade" rfl (by decide)]
  · obtain ⟨error, isError⟩ : ∃ error, decodeValue (.obj nothing) = .error error := refused (by decide +kernel)
    have faulty : Faulty nothing := @Faulty.missing nothing ["id", "order_id", "oid"] (by decide)
      (List.forall_mem_singleton.mpr rfl)
    have known : ∀ kind, kind? nothing = some (.str kind) → kind = "add" ∨ kind = "remove" := fun kind found =>
      .inr (Value.str.inj (Option.some.inj found)).symm
    obtain ⟨reason, rfl⟩ := ((values nothing error (by decide) isError).2 known).1 faulty
    exact ⟨reason, isError⟩
  · obtain ⟨error, isError⟩ : ∃ error, decodeValue (.obj order) = .error error := refused (by decide +kernel)
    have holds : Holds order ⟨"add", ⟨7⟩, 0, some ⟨1⟩, some ⟨2⟩, some 3, none, some true, some (-4), some (-1)⟩ :=
      ⟨rfl, rfl, rfl, ⟨_, rfl, rfl⟩, ⟨_, rfl, rfl⟩, ⟨_, rfl, rfl⟩, .inl rfl, ⟨_, rfl, rfl⟩, ⟨_, rfl, rfl, by decide⟩,
        ⟨_, rfl, rfl, by decide⟩⟩
    have fine : ¬Faulty order := fun faulty => Option.some_ne_none _ (holds.id_eq_none faulty)
    have known : ∀ kind, kind? order = some (.str kind) → kind = "add" ∨ kind = "remove" := fun kind found =>
      .inl (Value.str.inj (Option.some.inj found)).symm
    obtain ⟨-, id, given_id, forSize, -⟩ := ((values order error (by decide) isError).2 known).2 fine
    -- The only number that is given is that of the order.
    have isOne : (1 : UInt64) = id.number := toNat_of_int_eq (List.cons.inj given_id).1
    rw [isError, forSize.mpr sizeRefused, isOne]
  · refine ((lines "[").1 _).mpr ⟨rfl, ?_⟩
    rw [← Value.isSome_parse?]
    decide +kernel

end Decoding

end Announcement

end LimitBook
