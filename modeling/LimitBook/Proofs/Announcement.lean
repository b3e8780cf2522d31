import LimitBook.Announcement
import LimitBook.Proofs.Json.Record
import Mathlib.Data.List.Forall2

/-!
Which announcements are events. The rules for objects are written down by the names of the fields and the values that
may stand there, without looking at how announcements are read, and reading them accepts exactly what the rules allow.
-/

namespace LimitBook.Announcement

open Json

/-- The letters of a word are those of a name in small letters, each as it is or as a capital. -/
def IsSpelled (word name : String) : Prop :=
  List.Forall₂ (fun letter small => letter = small ∨ letter = small.toUpper) word.toList name.toList

/-- How a side is called. -/
def sideName : Side → String
  | .buy => "buy"
  | .sell => "sell"

/-- The groups of names under which the same is said. -/
def synonyms : List (List String) :=
  [["type", "kind"], ["market", "market_id", "book_id", "book"], ["sequence", "tick"], ["id", "order_id", "oid"],
    ["user_id", "owner_id", "user"], ["timestamp", "time"], ["side"], ["is_buy"], ["size", "quantity"], ["price"]]

/-- What the members of an object must say about an order that is added. -/
structure AnnouncesOrder (members : List (String × Value)) (new : NewOrder) : Prop where
  owner : given members ["user_id", "owner_id", "user"] = [.int new.owner.number.toNat]
  timestamp : given members ["timestamp", "time"] = [.int new.timestamp.toInt]
  /-- The side is called by its name; only without a name the truth value counts. -/
  side : (∃ word, given members ["side"] = [.str word] ∧ IsSpelled word (sideName new.side)) ∨
    (given members ["side"] = [] ∨ given members ["side"] = [.null]) ∧
      given members ["is_buy"] = [.bool (new.side = .buy)]
  size : given members ["size", "quantity"] = [.int new.size.toNat]
  positive : new.size ≠ 0
  price : given members ["price"] = [.int new.price.ticks.toNat]

/-- What the members of an object must say so that it announces an event. -/
structure Announces (members : List (String × Value)) (event : Event) : Prop where
  /-- Nothing is said twice. -/
  once : ∀ names ∈ synonyms, (given members names).length ≤ 1
  kind : given members ["type", "kind"] = [.str event.action.kind.name]
  market : given members ["market", "market_id", "book_id", "book"] = [.int event.market.number.toNat]
  sequence : given members ["sequence", "tick"] = [.int event.sequence.toNat]
  id : given members ["id", "order_id", "oid"] = [.int event.action.order.number.toNat]
  /-- What need not be said is of its type all the same, or null. -/
  owner : ∀ value ∈ given members ["user_id", "owner_id", "user"], value = .null ∨ ∃ n : UInt64, value = .int n.toNat
  timestamp : ∀ value ∈ given members ["timestamp", "time"], value = .null ∨ ∃ n : Int64, value = .int n.toInt
  side : ∀ value ∈ given members ["side"], value = .null ∨ ∃ word, value = .str word
  isBuy : ∀ value ∈ given members ["is_buy"], value = .null ∨ ∃ truth, value = .bool truth
  size : ∀ value ∈ given members ["size", "quantity"], value = .null ∨ ∃ n, value = .int n ∧ IsHeld n
  price : ∀ value ∈ given members ["price"], value = .null ∨ ∃ n, value = .int n ∧ IsHeld n
  order : ∀ new, event.action = .add new → AnnouncesOrder members new

variable {members others : List (String × Value)} {values : List Value} {value : Value} {a : Announcement}
  {event : Event} {new : NewOrder}

section Fields

/-- What a value can hold has far less than 128 bits. -/
theorem toInt_ofInt_of_isHeld {m : Int} (held : IsHeld m) : (BitVec.ofInt 128 m).toInt = m := by
  -- The bounds of the numbers that are held lie well within those of the wide integers.
  obtain ⟨lower, upper⟩ := held
  exact BitVec.toInt_ofInt_eq_self (by decide) (by omega) (by omega)

/-- Wide integers are read off the integers that they are, if a value can hold these. -/
theorem wideInt_ofValue {n : WideInt} : wideInt.ofValue value = .ok n ↔ value = .int n.toInt ∧ IsHeld n.toInt := by
  unfold wideInt
  rw [Codec.wideInteger_ofValue]
  -- A number that is read within the bounds of the wide integers is written by the same number.
  constructor
  · rintro ⟨m, rfl, held, -, -, rfl⟩
    rw [toInt_ofInt_of_isHeld held]
    exact ⟨rfl, held⟩
  · rintro ⟨rfl, held⟩
    have ⟨lower, upper⟩ := held
    exact ⟨n.toInt, rfl, held, by omega, by omega, BitVec.ofInt_toInt⟩

/-- Every integer that a value can hold is that of a wide integer. -/
theorem exists_wideInt (isInteger : ∃ n, value = .int n ∧ IsHeld n) :
    ∃ n : WideInt, value = .int n.toInt ∧ IsHeld n.toInt := by
  -- The number is held, so that the wide integer made of it stands for the same number.
  obtain ⟨n, rfl, held⟩ := isInteger
  refine ⟨BitVec.ofInt 128 n, ?_⟩
  rw [toInt_ofInt_of_isHeld held]
  exact ⟨rfl, held⟩

/-- An optional field is absent, or null, or read off the one value that is given for it. -/
def Optionally {α : Type} (values : List Value) (isWritten : α → Value → Prop) : Option α → Prop
  | none => values = [] ∨ values = [.null]
  | some a => ∃ value, values = [value] ∧ isWritten a value

/-- The members of an object hold an announcement. -/
structure Holds (members : List (String × Value)) (a : Announcement) : Prop where
  kind : given members ["type", "kind"] = [.str a.kind]
  market : given members ["market", "market_id", "book_id", "book"] = [.int a.market.number.toNat]
  sequence : given members ["sequence", "tick"] = [.int a.sequence.toNat]
  id : Optionally (given members ["id", "order_id", "oid"]) (fun n value => value = .int n.number.toNat) a.id
  owner :
    Optionally (given members ["user_id", "owner_id", "user"]) (fun n value => value = .int n.number.toNat) a.owner
  timestamp : Optionally (given members ["timestamp", "time"]) (fun n value => value = .int n.toInt) a.timestamp
  side : Optionally (given members ["side"]) (fun word value => value = .str word) a.side
  isBuy : Optionally (given members ["is_buy"]) (fun truth value => value = .bool truth) a.isBuy
  size : Optionally (given members ["size", "quantity"]) (fun n value => value = .int n.toInt ∧ IsHeld n.toInt) a.size
  price : Optionally (given members ["price"]) (fun n value => value = .int n.toInt ∧ IsHeld n.toInt) a.price

/-- A field that may be absent is read as the rules for it say, if its codec reads as they say. -/
theorem reads_optional {α : Type} {field : FieldFormat (Option α)} {codec : Codec α} {isWritten : α → Value → Prop}
    {b : Option α} (absent : field.absent = some none) (isOption : field.codec = codec.option)
    (reads : ∀ value a, codec.ofValue value = .ok a ↔ isWritten a value) (notNull : ∀ a, ¬isWritten a .null) :
    field.Reads values b ↔ Optionally values isWritten b := by
  unfold FieldFormat.Reads
  rw [absent, isOption]
  -- The value is given once, or it is null or absent.
  simp only [Codec.option_ofValue, reads]
  cases b with
  | none => simp [Optionally]
  | some a =>
    -- What is there has been read, and nothing is read off null.
    simp only [Optionally, Option.some.injEq, reduceCtorEq, and_false, false_or, exists_eq_right']
    constructor
    · rintro ⟨value, single, -, isA⟩
      exact ⟨value, single, isA⟩
    · rintro ⟨value, single, isA⟩
      exact ⟨value, single, fun isNull => notNull a (isNull ▸ isA), isA⟩

/-- Different fields have different names. -/
theorem nodup_names : fields.names.Nodup := by decide +kernel

/-- Fields that need not be given need not be given at the end of an array either. -/
theorem fields_shortIfAbsent : fields.ShortIfAbsent := by
  -- Nothing is what stands for an item that is missing, field by field.
  simp only [fields, Fields.ShortIfAbsent]
  exact ⟨rfl, rfl, rfl, rfl, rfl, rfl, rfl, rfl, rfl, rfl, trivial⟩

/-- The fields of an announcement in order. -/
def row (a : Announcement) : Row [String, MarketId, Sequence, Option OrderId, Option OwnerId, Option Timestamp,
    Option String, Option Bool, Option WideInt, Option WideInt] :=
  (a.kind, a.market, a.sequence, a.id, a.owner, a.timestamp, a.side, a.isBuy, a.size, a.price, ())

/-- The fields are read off the members that hold them. -/
theorem reads_row : fields.Reads members a.row ↔ Holds members a := by
  have ids : ∀ value (n : OrderId), OrderId.codec.ofValue value = .ok n ↔ value = .int n.number.toNat := fun _ _ =>
    Codec.map_word_ofValue (fun _ => rfl) (fun _ => rfl)
  have owners : ∀ value (n : OwnerId), OwnerId.codec.ofValue value = .ok n ↔ value = .int n.number.toNat := fun _ _ =>
    Codec.map_word_ofValue (fun _ => rfl) (fun _ => rfl)
  -- Each field is turned into its rule, in the order in which the fields are listed.
  simp only [fields, Fields.Reads, row]
  rw [FieldFormat.reads_required rfl fun _ => Codec.string_ofValue,
    FieldFormat.reads_required rfl fun _ => Codec.map_word_ofValue (fun _ => rfl) (fun _ => rfl),
    FieldFormat.reads_required rfl fun _ => Codec.word_ofValue,
    reads_optional rfl rfl ids (by simp), reads_optional rfl rfl owners (by simp),
    reads_optional rfl rfl (fun _ _ => Codec.signedWord_ofValue) (by simp),
    reads_optional rfl rfl (fun _ _ => Codec.string_ofValue) (by simp),
    reads_optional rfl rfl (fun _ _ => Codec.bool_ofValue) (by simp),
    reads_optional rfl rfl (fun _ _ => wideInt_ofValue) (by simp),
    reads_optional rfl rfl (fun _ _ => wideInt_ofValue) (by simp)]
  constructor
  · rintro ⟨kind, market, sequence, id, owner, timestamp, side, isBuy, size, price, -⟩
    exact ⟨kind, market, sequence, id, owner, timestamp, side, isBuy, size, price⟩
  · rintro ⟨kind, market, sequence, id, owner, timestamp, side, isBuy, size, price⟩
    exact ⟨kind, market, sequence, id, owner, timestamp, side, isBuy, size, price, trivial⟩

/-- Reading the members of an object gives the announcement that they hold. -/
theorem codec_ofValue_obj : codec.ofValue (.obj members) = .ok a ↔ Holds members a := by
  -- The record is read field by field, and its fields hold what the members announce.
  unfold codec
  rw [Codec.record_ofValue_obj nodup_names, ← reads_row]
  constructor
  · rintro ⟨row, reads, rfl⟩
    exact reads
  · intro reads
    exact ⟨a.row, reads, rfl⟩

/-- The order of the members does not matter for what they hold. -/
theorem Holds.perm (same : members.Perm others) (holds : Holds members a) : Holds others a :=
  reads_row.mp ((reads_row.mpr holds).perm same)

end Fields

section Events

/-- What is demanded is there. -/
theorem need_eq_ok {α : Type} {field : String} {value? : Option α} {value : α} :
    need field value? = .ok value ↔ value? = some value := by
  cases value? <;> simp [need]

/-- A number below the limit of words is the number of the word made of it. -/
theorem eq_ofNat_iff {m : Int} {n : UInt64} (lower : 0 ≤ m) (upper : m < 0x10000000000000000) :
    UInt64.ofNat m.toNat = n ↔ m = n.toNat := by
  -- Within these bounds the word that is made of a number stands for this number.
  have small : m.toNat < UInt64.size := by
    unfold UInt64.size
    omega
  rw [← UInt64.toNat_inj, UInt64.toNat_ofNat_of_lt' small]
  omega

/-- A size is read if it is a positive word. -/
theorem readSize_eq_ok {id : OrderId} {size : WideInt} {n : Quantity} :
    readSize id size = .ok n ↔ size.toInt = n.toNat ∧ n ≠ 0 := by
  -- A size is read if and only if it is a word and not zero.
  have bound : n.toNat < 18446744073709551616 := n.toNat_lt
  have positive : n ≠ 0 ↔ n.toNat ≠ 0 := not_congr UInt64.toNat_inj.symm
  unfold readSize
  rw [positive]
  split
  · next within =>
    rw [Except.ok.injEq, eq_ofNat_iff (by omega) within.2]
    omega
  · simp only [reduceCtorEq, false_iff]
    omega

/-- A price is read if it is a word. -/
theorem readPrice_eq_ok {price : WideInt} {p : Price} : readPrice price = .ok p ↔ price.toInt = p.ticks.toNat := by
  -- A price is read if and only if it is a word.
  obtain ⟨ticks⟩ := p
  have bound : ticks.toNat < 18446744073709551616 := ticks.toNat_lt
  unfold readPrice
  split
  · next within => rw [Except.ok.injEq, Price.mk.injEq, eq_ofNat_iff within.1 within.2]
  · simp only [reduceCtorEq, false_iff]
    omega

/-- A letter becomes a given small one if it is this letter or its capital. -/
theorem toLower_eq_iff {letter small : Char} (isSmall : small.isLower = true) :
    letter.toLower = small ↔ letter = small ∨ letter = small.toUpper := by
  -- Only the capital letter of a small one is lowered to it.
  have within : 'a'.val ≤ small.val ∧ small.val ≤ 'z'.val := by
    have both : (decide ('a'.val ≤ small.val) && decide (small.val ≤ 'z'.val)) = true := isSmall
    simpa using both
  have capital : small.toUpper.val = small.val + ('A'.val - 'a'.val) := by
    unfold Char.toUpper
    rw [dif_pos within]
  have bound := letter.val.toNat_lt
  have capitalOf : ('A'.val - 'a'.val).toNat = 0xFFFFFFE0 := by decide
  have smallOf : ('a'.val - 'A'.val).toNat = 32 := by decide
  have limits : 'a'.val.toNat = 97 ∧ 'z'.val.toNat = 122 ∧ 'A'.val.toNat = 65 ∧ 'Z'.val.toNat = 90 := by decide
  rw [UInt32.le_iff_toNat_le, UInt32.le_iff_toNat_le] at within
  simp only [Char.ext_iff, capital]
  unfold Char.toLower
  -- Capitals move to the small letters, and everything else stays where it is.
  split
  · next isCapital =>
    simp only [ge_iff_le, UInt32.le_iff_toNat_le] at isCapital
    simp only [← UInt32.toNat_inj, UInt32.toNat_add, capitalOf, smallOf]
    omega
  · next notCapital =>
    simp only [ge_iff_le, UInt32.le_iff_toNat_le] at notCapital
    simp only [← UInt32.toNat_inj, UInt32.toNat_add, capitalOf]
    omega

/-- A word is spelled like a name in small letters if it is the name once its capitals are made small. -/
theorem isSpelled_iff {word name : String} (isSmall : name.toList.all Char.isLower = true) :
    IsSpelled word name ↔ word.toLower = name := by
  unfold IsSpelled String.toLower
  rw [← String.toList_inj, String.toList_map]
  generalize word.toList = letters, name.toList = smalls at isSmall ⊢
  -- The letters are compared one by one, and a name that is all small is not changed by lowering it.
  induction letters generalizing smalls with
  | nil => cases smalls <;> simp
  | cons letter letters ih =>
    cases smalls with
    | nil => simp
    | cons small smalls =>
      simp only [List.all_cons, Bool.and_eq_true] at isSmall
      rw [List.forall₂_cons, ih smalls isSmall.2, List.map_cons, List.cons.injEq, toLower_eq_iff isSmall.1]

/-- A word calls a side if it is spelled like the name of the side, and otherwise the truth value tells the side. -/
theorem readSide_eq_ok {word? : Option String} {truth? : Option Bool} {side : Side} :
    readSide word? truth? = .ok side ↔
      (∃ word, word? = some word ∧ IsSpelled word (sideName side)) ∨
        word? = none ∧ truth? = some (decide (side = .buy)) := by
  have spelled : ∀ word, IsSpelled word (sideName side) ↔ word.toLower = sideName side := fun word =>
    isSpelled_iff (by cases side <;> decide)
  -- The word decides if it is there, and the truth value only without it.
  cases word? with
  | some word =>
    simp only [spelled, Option.some.injEq, exists_eq_left', reduceCtorEq, false_and, or_false, readSide]
    cases side with
    | buy =>
      -- A word that is not the name of this side may be the name of the other.
      show _ ↔ word.toLower = "buy"
      by_cases isBuy : word.toLower = "buy"
      · simp [isBuy]
      · rw [if_neg isBuy]
        split <;> simp [isBuy]
    | sell =>
      show _ ↔ word.toLower = "sell"
      by_cases isSell : word.toLower = "sell"
      · simp [isSell]
      · split <;> simp [isSell]
  | none => cases truth? with
    | none => simp [readSide]
    | some truth => cases truth <;> cases side <;> simp [readSide]

/-- An order is announced if everything about it is there and as it must be. -/
theorem newOrder_eq_ok {id : OrderId} :
    a.newOrder id = .ok new ↔
      new.id = id ∧ readSide a.side a.isBuy = .ok new.side ∧ a.owner = some new.owner ∧
        a.timestamp = some new.timestamp ∧ (∃ size, a.size = some size ∧ size.toInt = new.size.toNat) ∧ new.size ≠ 0 ∧
          ∃ price, a.price = some price ∧ price.toInt = new.price.ticks.toNat := by
  -- Every part is needed, and each is read on its own.
  obtain ⟨id', owner, timestamp, side, size, price⟩ := new
  unfold newOrder
  simp only [bind_eq_ok, need_eq_ok, readSize_eq_ok, readPrice_eq_ok, Pure.pure, Except.pure, Except.ok.injEq,
    NewOrder.mk.injEq]
  constructor
  · rintro ⟨_, isSide, _, isOwner, _, isTimestamp, wideSize, isSize, _, ⟨sameSize, positive⟩, widePrice, isPrice, _,
      samePrice, rfl, rfl, rfl, rfl, rfl, rfl⟩
    exact ⟨rfl, isSide, isOwner, isTimestamp, ⟨wideSize, isSize, sameSize⟩, positive, widePrice, isPrice, samePrice⟩
  · rintro ⟨rfl, isSide, isOwner, isTimestamp, ⟨wideSize, isSize, sameSize⟩, positive, widePrice, isPrice, samePrice⟩
    exact ⟨side, isSide, owner, isOwner, timestamp, isTimestamp, wideSize, isSize, size, ⟨sameSize, positive⟩,
      widePrice, isPrice, price, samePrice, rfl, rfl, rfl, rfl, rfl, rfl⟩

/-- An event is announced if its kind and its order are there, and what else its kind demands. -/
theorem event_eq_ok :
    a.event = .ok event ↔
      a.kind = event.action.kind.name ∧ a.market = event.market ∧ a.sequence = event.sequence ∧
        a.id = some event.action.order ∧ ∀ new, event.action = .add new → a.newOrder new.id = .ok new := by
  -- The parts are needed one after another.
  obtain ⟨market, sequence, action⟩ := event
  unfold Announcement.event
  simp only [bind_eq_ok, need_eq_ok]
  constructor
  · rintro ⟨id, isId, outcome⟩
    split at outcome
    · next isAdd =>
      obtain ⟨new, isNew, same⟩ := bind_eq_ok.mp outcome
      obtain ⟨rfl, rfl, rfl⟩ := Event.mk.inj (Except.ok.inj same)
      -- The order that is added is the one that the announcement is about.
      obtain rfl := (newOrder_eq_ok.mp isNew).1
      refine ⟨isAdd, rfl, rfl, isId, fun other same => ?_⟩
      obtain rfl := Action.add.inj same
      exact isNew
    · split at outcome
      · next isRemove =>
        obtain ⟨rfl, rfl, rfl⟩ := Event.mk.inj (Except.ok.inj outcome)
        exact ⟨isRemove, rfl, rfl, isId, nofun⟩
      · exact absurd outcome throw_ne_ok
  · rintro ⟨kind, rfl, rfl, isId, order⟩
    refine ⟨action.order, isId, ?_⟩
    -- The kind tells which of the two it is.
    cases action with
    | add new =>
      have isAdd : a.kind = "add" := kind
      rw [if_pos isAdd]
      exact bind_eq_ok.mpr ⟨new, order new rfl, rfl⟩
    | remove id =>
      have isRemove : a.kind = "remove" := kind
      have notAdd : a.kind ≠ "add" := by rw [isRemove]; decide
      rw [if_neg notAdd, if_pos isRemove]
      rfl

end Events

section Rules

variable {α : Type} {isWritten : α → Value → Prop} {b : α} {b? : Option α}

/-- What is given optionally is given once at most. -/
theorem Optionally.length_le (optionally : Optionally values isWritten b?) : values.length ≤ 1 := by
  -- A value that is absent is not given or given as null, and any other is given once.
  cases b? with
  | none => rcases optionally with rfl | rfl <;> simp
  | some b =>
    obtain ⟨value, rfl, -⟩ := optionally
    exact Nat.le_refl 1

/-- What is given optionally is null or of its type. -/
theorem Optionally.typed (optionally : Optionally values isWritten b?) :
    ∀ value ∈ values, value = .null ∨ ∃ b, isWritten b value := by
  -- Without a value there is at most null, and with one there is nothing else.
  intro value member
  cases b? with
  | none => rcases optionally with rfl | rfl <;> simp_all
  | some b =>
    obtain ⟨only, rfl, isB⟩ := optionally
    rw [List.mem_singleton.mp member]
    exact .inr ⟨b, isB⟩

/-- What is given once at most, and is null or of its type, is something that is given optionally. -/
theorem exists_optionally (once : values.length ≤ 1)
    (typed : ∀ value ∈ values, value = .null ∨ ∃ b, isWritten b value) :
    ∃ b?, Optionally values isWritten b? := by
  -- There is at most one value, and this is null or one that is written.
  match values with
  | [] => exact ⟨none, .inl rfl⟩
  | [value] =>
    rcases typed value List.mem_cons_self with rfl | ⟨b, isB⟩
    · exact ⟨none, .inr rfl⟩
    · exact ⟨some b, value, rfl, isB⟩
  | _ :: _ :: _ => simp at once

/-- What is given once, and not as null, is there. -/
theorem Optionally.exists_eq_some (optionally : Optionally [value] isWritten b?) (notNull : value ≠ .null) :
    ∃ b, b? = some b ∧ isWritten b value := by
  -- Only null and nothing at all mean that there is none.
  cases b? with
  | none => rcases optionally with absent | isNull <;> simp_all
  | some b =>
    obtain ⟨_, same, isB⟩ := optionally
    obtain ⟨rfl, -⟩ := List.cons.inj same
    exact ⟨b, rfl, isB⟩

/-- What is not given, or given as null, is not there. -/
theorem Optionally.eq_none (optionally : Optionally values isWritten b?) (absent : values = [] ∨ values = [.null])
    (notNull : ∀ c, ¬isWritten c .null) : b? = none := by
  -- If there were a value it would be given, and not as null.
  cases b? with
  | none => rfl
  | some c =>
    obtain ⟨_, rfl, isC⟩ := optionally
    rcases absent with nothing | isNull
    · simp at nothing
    · obtain ⟨rfl, -⟩ := List.cons.inj isNull
      exact absurd isC (notNull c)

/-- The members of an announcement of an order are as the rules for orders say. -/
theorem Holds.announcesOrder (holds : Holds members a) (outcome : a.newOrder new.id = .ok new) :
    AnnouncesOrder members new := by
  -- Everything that an order needs is there.
  obtain ⟨-, isSide, isOwner, isTimestamp, ⟨size, isSize, sameSize⟩, positive, price, isPrice, samePrice⟩ :=
    newOrder_eq_ok.mp outcome
  obtain ⟨-, -, -, -, owner, timestamp, side, isBuy, wideSize, widePrice⟩ := holds
  rw [isOwner] at owner
  rw [isTimestamp] at timestamp
  rw [isSize] at wideSize
  rw [isPrice] at widePrice
  -- What is there was given by a single value.
  obtain ⟨_, owner, rfl⟩ := owner
  obtain ⟨_, timestamp, rfl⟩ := timestamp
  obtain ⟨_, wideSize, rfl, -⟩ := wideSize
  obtain ⟨_, widePrice, rfl, -⟩ := widePrice
  refine ⟨owner, timestamp, ?_, sameSize ▸ wideSize, positive, samePrice ▸ widePrice⟩
  rcases readSide_eq_ok.mp isSide with ⟨word, isWord, spelled⟩ | ⟨noWord, truth⟩
  · rw [isWord] at side
    obtain ⟨_, side, rfl⟩ := side
    exact .inl ⟨word, side, spelled⟩
  · rw [noWord] at side
    rw [truth] at isBuy
    obtain ⟨_, isBuy, rfl⟩ := isBuy
    exact .inr ⟨side, isBuy⟩

/-- Whatever is held was given at most once, so nothing is said twice. -/
theorem Holds.once (holds : Holds members a) : ∀ names ∈ synonyms, (given members names).length ≤ 1 := by
  -- What has to be there is given once, and everything else at most once.
  obtain ⟨kind, market, sequence, id, owner, timestamp, side, isBuy, size, price⟩ := holds
  simp only [synonyms, List.forall_mem_cons, List.not_mem_nil, false_implies, implies_true, and_true]
  exact ⟨by simp [kind], by simp [market], by simp [sequence], id.length_le, owner.length_le, timestamp.length_le,
    side.length_le, isBuy.length_le, size.length_le, price.length_le⟩

/-- The members of an announcement of an event are as the rules say. -/
theorem Holds.announces (holds : Holds members a) (outcome : a.event = .ok event) : Announces members event := by
  -- The outcome tells the fields that an event needs, and the others are only typed.
  obtain ⟨sameKind, sameMarket, sameSequence, isId, isNew⟩ := event_eq_ok.mp outcome
  have once := holds.once
  have order := fun new isAdd => holds.announcesOrder (isNew new isAdd)
  obtain ⟨kind, market, sequence, id, owner, timestamp, side, isBuy, size, price⟩ := holds
  rw [isId] at id
  obtain ⟨_, id, rfl⟩ := id
  exact ⟨once, sameKind ▸ kind, sameMarket ▸ market, sameSequence ▸ sequence, id,
    fun value member => (owner.typed value member).imp_right (·.elim fun n isOwner => ⟨n.number, isOwner⟩),
    timestamp.typed, side.typed, isBuy.typed,
    fun value member => (size.typed value member).imp_right (·.elim fun n isSize => ⟨n.toInt, isSize⟩),
    fun value member => (price.typed value member).imp_right (·.elim fun n isPrice => ⟨n.toInt, isPrice⟩), order⟩

/-- Members that are as the rules say hold an announcement. -/
theorem Announces.exists_holds (announces : Announces members event) : ∃ a, Holds members a := by
  have once := announces.once
  simp only [synonyms, List.forall_mem_cons] at once
  obtain ⟨-, -, -, -, onceOwner, onceTimestamp, onceSide, onceIsBuy, onceSize, oncePrice, -⟩ := once
  -- Whatever need not be said is not there, or is what is given.
  obtain ⟨owner, isOwner⟩ : ∃ owner? : Option OwnerId, Optionally (given members ["user_id", "owner_id", "user"])
      (fun n value => value = .int n.number.toNat) owner? :=
    exists_optionally onceOwner fun value member =>
      (announces.owner value member).imp_right (·.elim fun n isN => ⟨⟨n⟩, isN⟩)
  obtain ⟨timestamp, isTimestamp⟩ := exists_optionally onceTimestamp announces.timestamp
  obtain ⟨side, isSide⟩ := exists_optionally onceSide announces.side
  obtain ⟨isBuy, isIsBuy⟩ := exists_optionally onceIsBuy announces.isBuy
  obtain ⟨size, isSize⟩ := exists_optionally onceSize fun value member =>
    (announces.size value member).imp_right exists_wideInt
  obtain ⟨price, isPrice⟩ := exists_optionally oncePrice fun value member =>
    (announces.price value member).imp_right exists_wideInt
  -- These are the fields of an announcement that holds the members.
  exact ⟨⟨event.action.kind.name, event.market, event.sequence, some event.action.order, owner, timestamp, side, isBuy,
    size, price⟩, announces.kind, announces.market, announces.sequence, ⟨_, announces.id, rfl⟩, isOwner, isTimestamp,
    isSide, isIsBuy, isSize, isPrice⟩

/-- Integers of the same word are those of the same number. -/
theorem toNat_of_int_eq {m n : UInt64} (same : Value.int m.toNat = .int n.toNat) : m = n :=
  UInt64.toNat_inj.mp (Int.ofNat.inj (Value.int.inj same))

/-- Members that are as the rules for orders say hold nothing else than the order. -/
theorem AnnouncesOrder.newOrder_of_holds (announces : AnnouncesOrder members new) (holds : Holds members a) :
    a.newOrder new.id = .ok new := by
  obtain ⟨-, -, -, -, owner, timestamp, side, isBuy, size, price⟩ := holds
  rw [announces.owner] at owner
  rw [announces.timestamp] at timestamp
  rw [announces.size] at size
  rw [announces.price] at price
  -- What is given once is there, and it is what the rules say.
  obtain ⟨owner, isOwner, sameOwner⟩ := owner.exists_eq_some nofun
  obtain ⟨timestamp, isTimestamp, sameTimestamp⟩ := timestamp.exists_eq_some nofun
  obtain ⟨size, isSize, sameSize, -⟩ := size.exists_eq_some nofun
  obtain ⟨price, isPrice, samePrice, -⟩ := price.exists_eq_some nofun
  obtain rfl : owner = new.owner := congrArg OwnerId.mk (toNat_of_int_eq sameOwner.symm)
  obtain rfl : timestamp = new.timestamp := Int64.toInt_inj.mp (Value.int.inj sameTimestamp).symm
  refine newOrder_eq_ok.mpr ⟨rfl, readSide_eq_ok.mpr ?_, isOwner, isTimestamp,
    ⟨size, isSize, (Value.int.inj sameSize).symm⟩, announces.positive, price, isPrice, (Value.int.inj samePrice).symm⟩
  rcases announces.side with ⟨word, isWord, spelled⟩ | ⟨noWord, truth⟩
  · rw [isWord] at side
    obtain ⟨word', isWord', same⟩ := side.exists_eq_some nofun
    obtain rfl := Value.str.inj same
    exact .inl ⟨word, isWord', spelled⟩
  · rw [truth] at isBuy
    obtain ⟨truth', isTruth, same⟩ := isBuy.exists_eq_some nofun
    obtain rfl := Value.bool.inj same
    -- A side that is null does not get in the way of the truth value.
    exact .inr ⟨side.eq_none noWord nofun, isTruth⟩

/-- Members that are as the rules say hold nothing else than an announcement of the event. -/
theorem Announces.event_of_holds (announces : Announces members event) (holds : Holds members a) :
    a.event = .ok event := by
  -- Everything that the announcement holds is told by the members, and so are the parts of the event.
  have isId := holds.id
  rw [announces.id] at isId
  obtain ⟨id, isId, sameId⟩ := isId.exists_eq_some nofun
  have kind : a.kind = event.action.kind.name := by
    simpa using holds.kind.symm.trans announces.kind
  have market : [Value.int a.market.number.toNat] = [.int event.market.number.toNat] :=
    holds.market.symm.trans announces.market
  have sequence : [Value.int a.sequence.toNat] = [.int event.sequence.toNat] :=
    holds.sequence.symm.trans announces.sequence
  refine event_eq_ok.mpr ⟨kind, ?_, toNat_of_int_eq (List.cons.inj sequence).1, ?_, fun new isAdd =>
    (announces.order new isAdd).newOrder_of_holds holds⟩
  · exact congrArg MarketId.mk (toNat_of_int_eq (List.cons.inj market).1)
  · rw [isId]
    exact congrArg (some ∘ OrderId.mk) (toNat_of_int_eq sameId.symm)

end Rules

section Decoding

/-- An event is decoded if the kind passes and the announcement that is read is one of the event. -/
theorem decodeValue_eq_ok :
    decodeValue value = .ok event ↔
      checkKind (sorted value) = .ok () ∧ ∃ a, codec.ofValue (sorted value) = .ok a ∧ a.event = .ok event := by
  unfold decodeValue
  -- The kind is checked first, and the announcement is read only then.
  rw [bind_eq_ok]
  constructor
  · rintro ⟨⟨⟩, passes, outcome⟩
    split at outcome
    · next a read => exact ⟨passes, a, read, outcome⟩
    · exact absurd outcome throw_ne_ok
  · rintro ⟨passes, a, read, outcome⟩
    refine ⟨(), passes, ?_⟩
    rw [read]
    exact outcome

/-- A kind that is given is looked at, and it passes if events are of it. -/
theorem checkKind_of_holds (holds : Holds members a) (outcome : a.event = .ok event) :
    checkKind (.obj members) = .ok () := by
  -- The kind of an announcement that leads to an event is one of the two that are known.
  have kind := (event_eq_ok.mp outcome).1
  unfold checkKind Value.get?
  rw [lookup_or_lookup holds.kind, kind]
  cases event.action <;> rfl

/-- An object of different keys is decoded to the event of the announcement that it holds. -/
theorem decodeValue_obj (distinct : (members.map Prod.fst).Nodup) :
    decodeValue (.obj members) = .ok event ↔ ∃ a, Holds members a ∧ a.event = .ok event := by
  have same := sortMembers_perm distinct
  rw [decodeValue_eq_ok]
  simp only [Announcement.sorted, codec_ofValue_obj]
  -- What members hold does not depend on their order, so sorting them changes nothing.
  constructor
  · rintro ⟨-, a, holds, outcome⟩
    exact ⟨a, holds.perm same, outcome⟩
  · rintro ⟨a, holds, outcome⟩
    have holdsSorted := holds.perm same.symm
    exact ⟨checkKind_of_holds holdsSorted outcome, a, holdsSorted, outcome⟩

/-- The names that stand for the items of an array, in order. -/
def itemNames : List String :=
  ["type", "market", "sequence", "id", "user_id", "timestamp", "side", "is_buy", "size", "price"]

/-- No two items stand for the same. -/
theorem nodup_map_fst_zip_itemNames (items : List Value) : ((itemNames.zip items).map Prod.fst).Nodup :=
  (by decide : itemNames.Nodup).sublist (Fields.map_fst_zip_sublist _ _)

/-- Less than three items leave something out that must be said. -/
theorem Holds.three_le_length {items : List Value} (holds : Holds (itemNames.zip items) a) : 3 ≤ items.length := by
  -- The third item stands for the sequence number, which must be there.
  have sequence := holds.sequence
  match items with
  | [] | [_] | [_, _] => simp [itemNames, given] at sequence
  | _ :: _ :: _ :: items => simp

/-- An array is decoded to the event of the announcement that the object of its items holds. -/
theorem decodeValue_arr (items : List Value) :
    decodeValue (.arr items) = .ok event ↔
      items.length ≤ 10 ∧ ∃ a, Holds (itemNames.zip items) a ∧ a.event = .ok event := by
  have read : ∀ a, codec.ofValue (.arr items) = .ok a ↔ items.length ≤ 10 ∧ Holds (itemNames.zip items) a := fun a => by
    rw [← codec_ofValue_obj]
    exact Codec.record_ofValue_arr nodup_names fields_shortIfAbsent items
  -- Arrays have no kind that could be looked at before their items are.
  have passes : checkKind (.arr items) = .ok () := rfl
  rw [decodeValue_eq_ok]
  simp only [Announcement.sorted, passes, read, true_and, and_assoc, exists_and_left]

/-- What is read is an object or an array. -/
theorem obj_or_arr_of_codec (read : codec.ofValue value = .ok a) :
    (∃ members, value = .obj members) ∨ ∃ items, value = .arr items := by
  -- No other value is read as a record.
  cases value with
  | obj members => exact .inl ⟨members, rfl⟩
  | arr items => exact .inr ⟨items, rfl⟩
  | _ => simp [codec, Codec.record, Codec.ofValue, Draft.ofValue] at read

/-- The members of an object hold an announcement of an event exactly if they are as the rules say. -/
theorem exists_holds_iff_announces : (∃ a, Holds members a ∧ a.event = .ok event) ↔ Announces members event := by
  -- What is announced can be held, and what is held and leads to an event is announced.
  constructor
  · rintro ⟨a, holds, outcome⟩
    exact holds.announces outcome
  · intro announces
    obtain ⟨a, holds⟩ := announces.exists_holds
    exact ⟨a, holds, announces.event_of_holds holds⟩

/-- An object of different keys announces an event exactly if its members are as the rules say. An array announces an
event exactly if it has three to ten items and the object of these items under the first names announces the event.
Nothing else announces an event. -/
theorem decodeValue_accepts (event : Event) :
    (∀ members, (members.map Prod.fst).Nodup → (decodeValue (.obj members) = .ok event ↔ Announces members event)) ∧
      (∀ items : List Value, decodeValue (.arr items) = .ok event ↔
        3 ≤ items.length ∧ items.length ≤ 10 ∧ decodeValue (.obj (itemNames.zip items)) = .ok event) ∧
      ∀ value, decodeValue value = .ok event → (∃ members, value = .obj members) ∨ ∃ items, value = .arr items := by
  refine ⟨fun members distinct => ?object, fun items => ?array, fun value decoded => ?other⟩
  case object => rw [decodeValue_obj distinct, exists_holds_iff_announces]
  -- An array is read as the object that names its items in their order.
  case array =>
    rw [decodeValue_arr, decodeValue_obj (nodup_map_fst_zip_itemNames items)]
    constructor
    · rintro ⟨few, a, holds, outcome⟩
      exact ⟨holds.three_le_length, few, a, holds, outcome⟩
    · rintro ⟨-, few, holds⟩
      exact ⟨few, holds⟩
  -- Any other value has no members to sort and is no record.
  case other =>
    obtain ⟨-, a, read, -⟩ := decodeValue_eq_ok.mp decoded
    rcases obj_or_arr_of_codec read with ⟨members, same⟩ | ⟨items, same⟩
    · cases value <;> simp_all [Announcement.sorted]
    · cases value <;> simp_all [Announcement.sorted]

/-- A feed announces an order by other names, with the side in capitals and a truth value that says otherwise. -/
theorem decodeValue_accepts_otherNames :
    decodeValue (.obj [("kind", .str "add"), ("book_id", .int 3), ("tick", .int 9), ("oid", .int 7), ("user", .int 1),
      ("time", .int (-5)), ("side", .str "SELL"), ("is_buy", .bool true), ("quantity", .int 4), ("price", .int 100)]) =
        .ok ⟨⟨3⟩, 9, .add ⟨⟨7⟩, ⟨1⟩, -5, .sell, 4, ⟨100⟩⟩⟩ := by
  refine ((decodeValue_accepts _).1 _ (by decide)).mpr ?_
  -- Every part is given under one of its other names, and the word for the side is written in capitals.
  exact {
    once := by decide
    kind := rfl
    market := rfl
    sequence := rfl
    id := rfl
    owner := List.forall_mem_singleton.mpr (.inr ⟨1, rfl⟩)
    timestamp := List.forall_mem_singleton.mpr (.inr ⟨-5, rfl⟩)
    side := List.forall_mem_singleton.mpr (.inr ⟨"SELL", rfl⟩)
    isBuy := List.forall_mem_singleton.mpr (.inr ⟨true, rfl⟩)
    size := List.forall_mem_singleton.mpr (.inr ⟨4, rfl, by decide⟩)
    price := List.forall_mem_singleton.mpr (.inr ⟨100, rfl, by decide⟩)
    order := by
      rintro _ ⟨rfl⟩
      exact ⟨rfl, rfl, .inl ⟨"SELL", rfl, by unfold IsSpelled; decide⟩, rfl, by decide, rfl⟩ }

end Decoding

end LimitBook.Announcement
