import LimitBook.Proofs.Announcement
import LimitBook.Proofs.Json.Readable
import Mathlib.Data.List.Nodup
import Mathlib.Data.String.Basic

/-!
Announcements as assignments of values to fields. The outcome of decoding does not depend on the order of the members of
an object, on members that name no field, or on how the text is laid out; and which of its names a field goes by does
not matter for whether an event is announced and for which.
-/

namespace LimitBook

namespace Json

section Sorting

variable {members others : List (String × Value)} {key : String} {value : Value}

/-- Members come by rising key. -/
def Rising (members : List (String × Value)) : Prop := members.Pairwise fun first second => first.1 < second.1

/-- Whatever is there after a member has been put in is this member or was there before. -/
theorem eq_or_mem_of_mem_insertMember {member : String × Value}
    (isMember : member ∈ Value.insertMember key value members) :
    member = (key, value) ∨ member ∈ members := by
  -- The member goes ahead of the first larger key or replaces the one of its own.
  induction members with
  | nil => exact .inl (List.mem_singleton.mp isMember)
  | cons first members ih =>
    obtain ⟨key', value'⟩ := first
    unfold Value.insertMember at isMember
    split at isMember
    · exact (List.mem_cons.mp isMember).imp_right (List.mem_cons_of_mem _)
    · split at isMember
      · exact List.mem_cons.mp isMember
      · rcases List.mem_cons.mp isMember with rfl | later
        · exact .inr List.mem_cons_self
        · exact (ih later).imp_right (List.mem_cons_of_mem _)

/-- A key that is below all others is put in front of them. -/
theorem insertMember_of_lt (below : ∀ member ∈ members, key < member.1) :
    Value.insertMember key value members = (key, value) :: members := by
  -- There is no member to get past, or the first has a larger key.
  cases members with
  | nil => rfl
  | cons first members =>
    obtain ⟨key', value'⟩ := first
    have less : key < key' := below _ List.mem_cons_self
    rw [Value.insertMember, if_neg (ne_of_lt less), if_pos less]

/-- A key that is there is given the new value. -/
theorem insertMember_of_eq (value' : Value) :
    Value.insertMember key value ((key, value') :: members) = (key, value) :: members := by
  rw [Value.insertMember, if_pos rfl]

/-- A key that is above the first is put in among the others. -/
theorem insertMember_of_gt {key' : String} (greater : key' < key) (value' : Value) :
    Value.insertMember key value ((key', value') :: members) =
      (key', value') :: Value.insertMember key value members := by
  rw [Value.insertMember, if_neg (ne_of_gt greater), if_neg (lt_asymm greater)]

/-- Keys that come by rising key are all above a key that is below the first. -/
theorem Rising.all_above {key' : String} {value' : Value} (rising : Rising ((key', value') :: members))
    (less : key < key') : ∀ member ∈ (key', value') :: members, key < member.1 :=
  List.forall_mem_cons.mpr ⟨less, fun member isMember => less.trans ((List.pairwise_cons.mp rising).1 member isMember)⟩

/-- Putting in a member keeps the keys rising. -/
theorem Rising.insertMember (rising : Rising members) : Rising (Value.insertMember key value members) := by
  -- The place of the new member is told by comparing its key with the first one.
  induction members with
  | nil => exact List.pairwise_singleton _ _
  | cons first members ih =>
    obtain ⟨key', value'⟩ := first
    obtain ⟨below, others⟩ := List.pairwise_cons.mp rising
    rcases lt_trichotomy key key' with less | rfl | greater
    · rw [insertMember_of_lt (rising.all_above less)]
      exact List.pairwise_cons.mpr ⟨rising.all_above less, rising⟩
    · rw [insertMember_of_eq]
      exact List.pairwise_cons.mpr ⟨below, others⟩
    · -- Behind the first member nothing changes but what was put in, and this has a larger key.
      rw [insertMember_of_gt greater]
      refine List.pairwise_cons.mpr ⟨fun member isMember => ?_, ih others⟩
      rcases eq_or_mem_of_mem_insertMember isMember with rfl | before
      · exact greater
      · exact below member before

/-- Putting in members one after another keeps the keys rising. -/
theorem Rising.foldl_insertMember {sorted : List (String × Value)} (rising : Rising sorted)
    (members : List (String × Value)) :
    Rising (members.foldl (fun sorted (key, value) => Value.insertMember key value sorted) sorted) := by
  -- The sorted members vary along those that are put in.
  induction members generalizing sorted with
  | nil => exact rising
  | cons member members ih => exact ih rising.insertMember

/-- Sorted members come by rising key. -/
theorem rising_sortMembers (members : List (String × Value)) : Rising (Value.sortMembers members) :=
  Rising.foldl_insertMember .nil members

/-- The order in which members of different keys are sorted does not matter. -/
theorem sortMembers_eq_of_perm (distinct : (members.map Prod.fst).Nodup) (same : others.Perm members) :
    Value.sortMembers others = Value.sortMembers members := by
  -- Both results hold the same members in rising order, and rising members have only one order.
  have distinct' : (others.map Prod.fst).Nodup := (same.map Prod.fst).nodup_iff.mpr distinct
  have sorted := (sortMembers_perm distinct').trans (same.trans (sortMembers_perm distinct).symm)
  exact sorted.eq_of_pairwise (fun _ _ _ _ less more => absurd less (lt_asymm more)) (rising_sortMembers others)
    (rising_sortMembers members)

/-- Among members of some keys a member of another key goes unnoticed when it is put in. -/
theorem filter_insertMember (chosen : String → Bool) (rising : Rising members) :
    (Value.insertMember key value members).filter (chosen ·.1) =
      if chosen key then Value.insertMember key value (members.filter (chosen ·.1))
      else members.filter (chosen ·.1) := by
  -- The place of the key is told by comparing it with the first one.
  induction members with
  | nil => cases isChosen : chosen key <;> simp [Value.insertMember, isChosen]
  | cons first members ih =>
    obtain ⟨key', value'⟩ := first
    have others := (List.pairwise_cons.mp rising).2
    have first_chosen : ((key', value') :: members).filter (chosen ·.1) =
        if chosen key' then (key', value') :: members.filter (chosen ·.1) else members.filter (chosen ·.1) :=
      List.filter_cons
    rcases lt_trichotomy key key' with less | rfl | greater
    · -- Whichever of the others are left, the new key is below them.
      have below : ∀ member ∈ ((key', value') :: members).filter (chosen ·.1), key < member.1 := fun member isMember =>
        rising.all_above less member (List.mem_of_mem_filter isMember)
      rw [insertMember_of_lt (rising.all_above less), List.filter_cons, insertMember_of_lt below]
    · rw [insertMember_of_eq, List.filter_cons, first_chosen]
      cases chosen key
      · rfl
      · exact (insertMember_of_eq value').symm
    · rw [insertMember_of_gt greater, List.filter_cons, ih others, first_chosen]
      cases chosen key' <;> cases chosen key
      · rfl
      · rfl
      · rfl
      · exact (insertMember_of_gt greater value').symm

/-- Sorting the members of some keys gives the sorted members of these keys. -/
theorem filter_sortMembers (chosen : String → Bool) (members : List (String × Value)) :
    (Value.sortMembers members).filter (chosen ·.1) = Value.sortMembers (members.filter (chosen ·.1)) := by
  -- The members that are sorted already vary along those that are put in.
  have general : ∀ sorted : List (String × Value), Rising sorted →
      (members.foldl (fun sorted (key, value) => Value.insertMember key value sorted) sorted).filter (chosen ·.1) =
        (members.filter (chosen ·.1)).foldl (fun sorted (key, value) => Value.insertMember key value sorted)
          (sorted.filter (chosen ·.1)) := by
    induction members with
    | nil => exact fun _ _ => rfl
    | cons member members ih =>
      intro sorted rising
      obtain ⟨key, value⟩ := member
      rw [List.foldl_cons, ih _ rising.insertMember, filter_insertMember chosen rising, List.filter_cons]
      split <;> rfl
  exact general [] .nil

end Sorting

section Choosing

variable {members : List (String × Value)} {key : String}

/-- A key is found among the members of some keys, one of which it is, as it is found among all. -/
theorem lookup_filter (chosen : String → Bool) (isChosen : chosen key = true) (members : List (String × Value)) :
    (members.filter (chosen ·.1)).lookup key = members.lookup key := by
  -- The members are searched one by one.
  induction members with
  | nil => rfl
  | cons member members ih =>
    obtain ⟨key', value⟩ := member
    rw [List.filter_cons, List.lookup_cons]
    split
    · rw [List.lookup_cons, ih]
    · next notChosen =>
      -- The member that is left out has another key.
      have differs : key ≠ key' := by
        rintro rfl
        exact notChosen isChosen
      rw [ih, beq_false_of_ne differs]

/-- Members that name no field are passed over. -/
theorem Fields.readMembers_filter {αs : List Type} (fields : Fields αs) (members : List (String × Value))
    (slots : Slots αs) :
    fields.readMembers .tree (Draft.ofMembers (members.filter (·.1 ∈ fields.names))) slots =
      fields.readMembers .tree (Draft.ofMembers members) slots := by
  -- A member without a field leaves the slots as they are, so that it may just as well be left out.
  induction members generalizing slots with
  | nil => rfl
  | cons member members ih =>
    obtain ⟨key, value⟩ := member
    by_cases named : key ∈ fields.names
    · rw [List.filter_cons_of_pos (by simpa using named)]
      simp only [Draft.ofMembers, readMembers, ih]
    · rw [List.filter_cons_of_neg (by simpa using named), ih]
      simp only [Draft.ofMembers, readMembers, assign?_of_notMem named, isWhole_ofValue, if_true]

/-- What is given by members and by further members is given by all of them. -/
theorem given_append (members others : List (String × Value)) (names : List String) :
    given (members ++ others) names = given members names ++ given others names := by
  simp [given]

/-- Under some names a member gives the same by whichever of the names it goes. -/
theorem given_renamed {names : List String} {key' : String} (alike : key' ∈ names ↔ key ∈ names)
    (before after : List (String × Value)) (value : Value) :
    given (before ++ (key', value) :: after) names = given (before ++ (key, value) :: after) names := by
  -- The key stands in one place, and in both cases it is given to the names or is not.
  rw [given_append, given_append]
  by_cases named : key ∈ names
  · rw [given_cons_of_mem named, given_cons_of_mem (alike.mpr named)]
  · rw [given_cons_of_notMem named, given_cons_of_notMem (mt alike.mp named)]

end Choosing

end Json

namespace Announcement

open Json

section Values

variable {members others before after : List (String × Value)} {a : Announcement} {event : Event} {key : String}
  {value : Value}

/-- The names of the fields are those that are grouped. -/
theorem names_fields : fields.names = synonyms.flatten := by decide

/-- A name stands in one group only. -/
theorem mem_iff_of_group {names group : List String} {key' : String} (isNames : names ∈ synonyms)
    (isGroup : group ∈ synonyms) (named : key ∈ group) (named' : key' ∈ group) : key' ∈ names ↔ key ∈ names := by
  -- The groups share no names, so that a key tells its group.
  have apart : ∀ group ∈ synonyms, ∀ names ∈ synonyms, ∀ key ∈ group, key ∈ names → names = group := by decide
  constructor
  · intro here
    exact apart group isGroup names isNames key' named' here ▸ named
  · intro here
    exact apart group isGroup names isNames key named here ▸ named'

/-- An object is decoded by those of its members that name a field. -/
theorem decodeValue_filter (members : List (String × Value)) :
    decodeValue (.obj (members.filter (·.1 ∈ fields.names))) = decodeValue (.obj members) := by
  have sorted_eq : sorted (.obj (members.filter (·.1 ∈ fields.names))) =
      .obj ((Value.sortMembers members).filter (·.1 ∈ fields.names)) :=
    congrArg Value.obj (filter_sortMembers (· ∈ fields.names) members).symm
  -- The kind goes by names of a field, and what names none is passed over by the fields.
  have kind : checkKind (.obj ((Value.sortMembers members).filter (·.1 ∈ fields.names))) =
      checkKind (.obj (Value.sortMembers members)) := by
    have isType : decide ("type" ∈ fields.names) = true := by decide
    have isKind : decide ("kind" ∈ fields.names) = true := by decide
    have typeFound := lookup_filter (· ∈ fields.names) isType (Value.sortMembers members)
    have kindFound := lookup_filter (· ∈ fields.names) isKind (Value.sortMembers members)
    simp only [checkKind, Value.get?, typeFound, kindFound]
  have read : codec.ofValue (.obj ((Value.sortMembers members).filter (·.1 ∈ fields.names))) =
      codec.ofValue (.obj (Value.sortMembers members)) := by
    unfold codec Codec.ofValue Codec.record Fields.ofMembers
    simp only [Draft.ofValue, Fields.readMembers_filter]
  simp only [decodeValue, sorted_eq, kind, read]
  rfl

/-- A member that names no field does not matter. -/
theorem decodeValue_unnamed (unnamed : ∀ names ∈ synonyms, key ∉ names) (before after : List (String × Value))
    (value : Value) :
    decodeValue (.obj (before ++ (key, value) :: after)) = decodeValue (.obj (before ++ after)) := by
  -- No field takes the member, and the decoding looks at the members of fields only.
  have notField : key ∉ fields.names := by
    rw [names_fields]
    intro named
    obtain ⟨names, isNames, here⟩ := List.mem_flatten.mp named
    exact unnamed names isNames here
  rw [← decodeValue_filter (before ++ (key, value) :: after), ← decodeValue_filter (before ++ after),
    List.filter_append, List.filter_append, List.filter_cons_of_neg (by simpa using notField)]

/-- The order of members of different keys does not matter. -/
theorem decodeValue_perm (distinct : (members.map Prod.fst).Nodup) (same : others.Perm members) :
    decodeValue (.obj others) = decodeValue (.obj members) := by
  -- Both objects are sorted before anything is read, and then they are the same.
  unfold decodeValue
  simp only [sorted, sortMembers_eq_of_perm distinct same]

/-- What is held depends only on what is given under the names of each field. -/
theorem Holds.congr (same : ∀ names ∈ synonyms, given others names = given members names) (holds : Holds members a) :
    Holds others a := by
  -- An announcement is held by what is given under each group of names.
  simp only [synonyms, List.forall_mem_cons, List.not_mem_nil, false_implies, implies_true, and_true] at same
  obtain ⟨kind, market, sequence, id, owner, timestamp, side, isBuy, size, price⟩ := same
  exact ⟨kind ▸ holds.kind, market ▸ holds.market, sequence ▸ holds.sequence, id ▸ holds.id, owner ▸ holds.owner,
    timestamp ▸ holds.timestamp, side ▸ holds.side, isBuy ▸ holds.isBuy, size ▸ holds.size, price ▸ holds.price⟩

/-- Which of its names a field goes by does not matter for which event is announced. -/
theorem decodeValue_renamed {group : List String} {key' : String} (isGroup : group ∈ synonyms) (named : key ∈ group)
    (named' : key' ∈ group) (distinct : ((before ++ (key, value) :: after).map Prod.fst).Nodup)
    (distinct' : ((before ++ (key', value) :: after).map Prod.fst).Nodup) :
    decodeValue (.obj (before ++ (key', value) :: after)) = .ok event ↔
      decodeValue (.obj (before ++ (key, value) :: after)) = .ok event := by
  -- Both objects give the same values under each group of names.
  have same : ∀ names ∈ synonyms, given (before ++ (key', value) :: after) names =
      given (before ++ (key, value) :: after) names := fun names isNames =>
    given_renamed (mem_iff_of_group isNames isGroup named named') before after value
  rw [decodeValue_obj distinct, decodeValue_obj distinct']
  constructor
  · rintro ⟨a, holds, outcome⟩
    exact ⟨a, holds.congr fun names isNames => (same names isNames).symm, outcome⟩
  · rintro ⟨a, holds, outcome⟩
    exact ⟨a, holds.congr same, outcome⟩

end Values

section Lines

variable {members : List (Draft × Draft)} {line : String}

/-- The text of an object is decoded as its members are kept, and is refused as a whole if they are not. -/
theorem decodeLine_of_isText (isText : (Draft.obj members true).IsText line) :
    decodeLine line = match Draft.membersToValues? (depthLimit - 1) members with
      | some values => decodeValue (.obj values)
      | none => .error (@BookError.notJson line) := by
  unfold decodeLine
  rw [Value.parse?_of_isText isText]
  -- An object is kept with its members or not at all.
  cases Draft.membersToValues? (depthLimit - 1) members <;> rfl

/-- The text of an object whose members are kept is decoded as they are. -/
theorem decodeLine_of_kept {values : List (String × Value)} (isText : (Draft.obj members true).IsText line)
    (kept : Draft.membersToValues? (depthLimit - 1) members = some values) :
    decodeLine line = decodeValue (.obj values) := by
  rw [decodeLine_of_isText isText, kept]

/-- The text of an object that cannot be read is no JSON. -/
theorem decodeLine_of_unread (isText : (Draft.obj members true).IsText line)
    (unread : ¬(Draft.obj members true).CanBeRead) : decodeLine line = .error (@BookError.notJson line) := by
  -- The members of an unread object are not kept, and so there is no value to decode.
  rw [Draft.canBeRead_obj, Option.not_isSome_iff_eq_none] at unread
  rw [decodeLine_of_isText isText, unread]

/-- What can be read in one order of the members can be read in any. -/
theorem canBeRead_perm {others : List (Draft × Draft)} (same : others.Perm members)
    (read : (Draft.obj members true).CanBeRead) : (Draft.obj others true).CanBeRead := by
  -- The same members are kept, in another order.
  obtain ⟨values, kept⟩ := Option.isSome_iff_exists.mp (Draft.canBeRead_obj.mp read)
  obtain ⟨values', kept', -⟩ := Draft.membersToValues?_perm same kept
  exact Draft.canBeRead_obj.mpr (Option.isSome_of_eq_some kept')

/-- Texts of the same members in any order are decoded alike, if they can be read. -/
theorem decodeLine_perm {others : List (Draft × Draft)} {other : String} (isText : (Draft.obj members true).IsText line)
    (distinct : (Draft.keys members).Nodup) (same : others.Perm members)
    (isText' : (Draft.obj others true).IsText other) (read : (Draft.obj members true).CanBeRead) :
    decodeLine other = decodeLine line := by
  obtain ⟨values, kept⟩ := Option.isSome_iff_exists.mp (Draft.canBeRead_obj.mp read)
  obtain ⟨values', kept', same'⟩ := Draft.membersToValues?_perm same kept
  rw [decodeLine_of_kept isText kept, decodeLine_of_kept isText' kept']
  -- The values come in another order too, under the same keys.
  exact decodeValue_perm (by rwa [Draft.map_fst_of_kept kept]) same'

/-- A member that nests less deep than a text may is kept exactly if it is readable. -/
theorem isSome_toValue?_of_shallow {before after : List (Draft × Draft)} {key value : Draft}
    (shallow : (Draft.obj (before ++ (key, value) :: after) true).depth < depthLimit) :
    (value.toValue? (depthLimit - 1)).isSome ↔ value.IsReadable := by
  -- The object takes up one level.
  have shallower : value.depth < depthLimit - 1 := by
    have deepest := Draft.depth_le_membersDepth before after key value
    rw [Draft.depth] at shallow
    omega
  rw [value.isSome_toValue? (by decide)]
  exact and_iff_left shallower

/--
An object with a further member can be read exactly if it can be read without it, and the member has a key and is
readable.
-/
theorem canBeRead_between {before after : List (Draft × Draft)} {key value : Draft}
    (shallow : (Draft.obj (before ++ (key, value) :: after) true).depth < depthLimit) :
    (Draft.obj (before ++ (key, value) :: after) true).CanBeRead ↔
      (Draft.obj (before ++ after) true).CanBeRead ∧ (∃ name, key = .str name) ∧ value.IsReadable := by
  rw [Draft.canBeRead_obj, Draft.canBeRead_obj, ← isSome_toValue?_of_shallow shallow]
  by_cases named : ∃ name, key = .str name
  · obtain ⟨name, rfl⟩ := named
    rw [Draft.membersToValues?_between, Draft.membersToValues?_append]
    -- All three parts have to be kept, in whatever order they are looked at.
    cases Draft.membersToValues? (depthLimit - 1) before <;> cases value.toValue? (depthLimit - 1) <;>
      cases Draft.membersToValues? (depthLimit - 1) after <;> simp
  · -- Without a key nothing is kept.
    rw [Draft.membersToValues?_nameless _ _ _ _ (not_exists.mp named)]
    simp [named]

/-- A further member that names no field does not matter, if it is kept. -/
theorem decodeLine_unnamed {before after : List (Draft × Draft)} {key : String} {value : Draft} {other : String}
    (isText : (Draft.obj (before ++ after) true).IsText line) (unnamed : ∀ names ∈ synonyms, key ∉ names)
    (shallow : (Draft.obj (before ++ (.str key, value) :: after) true).depth < depthLimit)
    (isText' : (Draft.obj (before ++ (.str key, value) :: after) true).IsText other)
    (read : (Draft.obj (before ++ after) true).CanBeRead) (readable : value.IsReadable) :
    decodeLine other = decodeLine line := by
  obtain ⟨kept, isKept⟩ := Option.isSome_iff_exists.mp ((isSome_toValue?_of_shallow shallow).mpr readable)
  rw [Draft.canBeRead_obj, Draft.membersToValues?_append] at read
  rw [decodeLine_of_isText isText, decodeLine_of_isText isText', Draft.membersToValues?_between,
    Draft.membersToValues?_append, isKept]
  -- The other members are kept too, so that one text has one more value than the other.
  cases isFirst : Draft.membersToValues? (depthLimit - 1) before with
  | none => simp [isFirst] at read
  | some first =>
    cases isLast : Draft.membersToValues? (depthLimit - 1) after with
    | none => simp [isFirst, isLast] at read
    | some last => exact decodeValue_unnamed unnamed first last kept

/-- Which of its names a field goes by does not matter for which event a text announces. -/
theorem decodeLine_renamed {before after : List (Draft × Draft)} {key key' : String} {value : Draft}
    {group : List String} {other : String} {event : Event}
    (isText : (Draft.obj (before ++ (.str key, value) :: after) true).IsText line)
    (distinct : (Draft.keys (before ++ (.str key, value) :: after)).Nodup) (isGroup : group ∈ synonyms)
    (named : key ∈ group) (named' : key' ∈ group) (fresh : key' ∉ Draft.keys (before ++ (.str key, value) :: after))
    (isText' : (Draft.obj (before ++ (.str key', value) :: after) true).IsText other) :
    decodeLine other = .ok event ↔ decodeLine line = .ok event := by
  rw [decodeLine_of_isText isText, decodeLine_of_isText isText']
  have keptAs (key : String) := Draft.membersToValues?_between (depthLimit - 1) before after key value
  rw [keptAs key, keptAs key']
  -- If a member is not kept, neither text announces anything.
  cases isFirst : Draft.membersToValues? (depthLimit - 1) before with
  | none => simp
  | some first =>
    cases isKept : value.toValue? (depthLimit - 1) with
    | none => simp
    | some kept =>
      cases isLast : Draft.membersToValues? (depthLimit - 1) after with
      | none => simp
      | some last =>
        have keys_eq (key : String) : (first ++ (key, kept) :: last).map Prod.fst =
            Draft.keys (before ++ (.str key, value) :: after) :=
          Draft.map_fst_of_kept ((keptAs key).trans (by rw [isFirst, isKept, isLast]; rfl))
        rw [← keys_eq] at distinct fresh
        -- The new name is none of the keys, so that these are different under either name.
        have distinct' : ((first ++ (key', kept) :: last).map Prod.fst).Nodup := by
          rw [List.map_append, List.map_cons, List.nodup_middle, List.nodup_cons] at distinct ⊢
          rw [List.map_append, List.map_cons, List.mem_append, List.mem_cons] at fresh
          exact ⟨fun member => fresh ((List.mem_append.mp member).imp_right .inr), distinct.2⟩
        exact decodeValue_renamed isGroup named named' distinct distinct'

/--
Decoding depends only on which values are assigned to which fields.

Take any text of an object of different keys. If it can be read, any other text of its members, in any order and however
it is laid out, has the same outcome, event or refusal; if not, all these texts are refused as no JSON. A text with one
more member that names no field, not nesting too deep, has the same outcome too if the object can be read and so can the
member with its key, and otherwise it is refused as no JSON. And if a field goes by another of its names, which is not a
key yet, then the same events are announced and no others.
-/
theorem decodeLine_of_assignment {members : List (Draft × Draft)} {line : String}
    (isText : (Draft.obj members true).IsText line) (distinct : (Draft.keys members).Nodup) :
    (∀ others other, others.Perm members → (Draft.obj others true).IsText other →
      ((Draft.obj members true).CanBeRead → decodeLine other = decodeLine line) ∧
      (¬(Draft.obj members true).CanBeRead → decodeLine line = .error (@BookError.notJson line) ∧
        decodeLine other = .error (@BookError.notJson other))) ∧
    (∀ before after key value other, members = before ++ after →
      (∀ names ∈ synonyms, ∀ name ∈ names, key ≠ .str name) →
      (Draft.obj (before ++ (key, value) :: after) true).depth < depthLimit →
      (Draft.obj (before ++ (key, value) :: after) true).IsText other →
      ((Draft.obj members true).CanBeRead → (∃ name, key = .str name) → value.IsReadable →
        decodeLine other = decodeLine line) ∧
      (¬((Draft.obj members true).CanBeRead ∧ (∃ name, key = .str name) ∧ value.IsReadable) →
        decodeLine other = .error (@BookError.notJson other)) ∧
      (¬(Draft.obj members true).CanBeRead → decodeLine line = .error (@BookError.notJson line))) ∧
    ∀ before after key value names key' other, members = before ++ (.str key, value) :: after →
      names ∈ synonyms → key ∈ names → key' ∈ names → key' ∉ Draft.keys members →
      (Draft.obj (before ++ (.str key', value) :: after) true).IsText other →
      ∀ event, decodeLine other = .ok event ↔ decodeLine line = .ok event := by
  refine ⟨fun others other same isText' => ?reordered, ?extended, ?renamed⟩
  case reordered =>
    refine ⟨decodeLine_perm isText distinct same isText', fun unread => ⟨decodeLine_of_unread isText unread, ?_⟩⟩
    -- Were the others read, so would the members be.
    exact decodeLine_of_unread isText' fun read => unread (canBeRead_perm same.symm read)
  case extended =>
    rintro before after key value other rfl unnamed shallow isText'
    refine ⟨?_, fun unread => ?_, decodeLine_of_unread isText⟩
    · rintro read ⟨name, rfl⟩ readable
      -- The key is a text, and then it is none of the names.
      have notField : ∀ names ∈ synonyms, name ∉ names := fun names isNames isName =>
        unnamed names isNames name isName rfl
      exact decodeLine_unnamed isText notField shallow isText' read readable
    · exact decodeLine_of_unread isText' fun read => unread ((canBeRead_between shallow).mp read)
  case renamed =>
    rintro before after key value names key' other rfl isNames named named' fresh isText' event
    exact decodeLine_renamed isText distinct isNames named named' fresh isText'

/-- A cancellation is turned around and spread out, is given a note that nobody reads, and is put in other words. -/
theorem decodeLine_of_assignment_cancellation :
    let line := "\x7b\"type\":\"remove\",\"market\":7,\"sequence\":2,\"id\":1\x7d"
    decodeLine "\t\x7b \"id\" : 1 ,\"sequence\":2, \"market\":7,\n\"type\":\"remove\"\x7d " = decodeLine line ∧
      decodeLine "\x7b\"type\":\"remove\",\"note\":[\x7b\x7d,null],\"market\":7,\"sequence\":2,\"id\":1\x7d" =
        decodeLine line ∧
      ∀ event, decodeLine "\x7b\"type\":\"remove\",\"market\":7,\"tick\":2,\"id\":1\x7d" = .ok event ↔
        decodeLine line = .ok event := by
  -- All three texts are read by computation, and what they have in common follows.
  intro line
  have isText : (Draft.ofValue (.obj [("type", .str "remove"), ("market", .int 7), ("sequence", .int 2),
      ("id", .int 1)])).IsText line := Draft.isText_of_cut _ (by decide +kernel)
  have read : (Draft.ofValue (.obj [("type", .str "remove"), ("market", .int 7), ("sequence", .int 2),
      ("id", .int 1)])).CanBeRead := ⟨⟨rfl, trivial, trivial, trivial, trivial, trivial⟩, by decide⟩
  obtain ⟨reordered, extended, renamed⟩ := decodeLine_of_assignment isText (by decide)
  refine ⟨?_, ?_, ?_⟩
  · -- The members are given in another order and with blanks between them.
    refine (reordered _ _ (List.reverse_perm _) ?_).1 read
    exact Draft.isText_of_cut (.obj [("id", .int 1), ("sequence", .int 2), ("market", .int 7),
      ("type", .str "remove")]) (by decide +kernel)
  · -- A member that names no field is put in.
    have notField : ∀ names ∈ synonyms, ∀ name ∈ names, Draft.str "note" ≠ .str name := by simp [synonyms]
    refine (extended [(.str "type", .str "remove")] _ (.str "note") (Draft.ofValue (.arr [.obj [], .null])) _ rfl
      notField (by decide) ?_).1 read ⟨"note", rfl⟩ ⟨rfl, ⟨rfl, trivial⟩, trivial, trivial⟩
    exact Draft.isText_of_cut (.obj [("type", .str "remove"), ("note", .arr [.obj [], .null]),
      ("market", .int 7), ("sequence", .int 2), ("id", .int 1)]) (by decide +kernel)
  · -- The sequence is given under another name.
    refine renamed [(.str "type", .str "remove"), (.str "market", .int false 7)] _ "sequence" (.int false 2)
      ["sequence", "tick"] "tick" _ rfl (by decide) (by decide) (by decide) (by decide) ?_
    exact Draft.isText_of_cut (.obj [("type", .str "remove"), ("market", .int 7), ("tick", .int 2),
      ("id", .int 1)]) (by decide +kernel)

/--
A member that names no field and does not nest may still matter: with a number that no fraction reaches, well-formed as
it is, a cancellation is refused.
-/
theorem decodeLine_unreadable_note :
    let line := "\x7b\"type\":\"remove\",\"market\":7,\"sequence\":2,\"id\":1\x7d"
    let noted := "\x7b\"type\":\"remove\",\"market\":7,\"sequence\":2,\"id\":1,\"note\":1e400\x7d"
    let members := Draft.ofMembers [("type", .str "remove"), ("market", .int 7), ("sequence", .int 2), ("id", .int 1)]
    (Draft.obj members true).IsText line ∧ (Draft.keys members).Nodup ∧ (∀ names ∈ synonyms, "note" ∉ names) ∧
      (Draft.obj (members ++ [(.str "note", .unreadable)]) true).depth < depthLimit ∧
      (Draft.obj (members ++ [(.str "note", .unreadable)]) true).IsText noted ∧
      decodeLine line = .ok ⟨⟨7⟩, 2, .remove ⟨1⟩⟩ ∧ decodeLine noted = .error (@BookError.notJson noted) := by
  intro line noted members
  have parts := derives_members
    [("type", .str "remove"), ("market", .int 7), ("sequence", .int 2), ("id", .int 1)] nofun
  -- The number makes a token of its own, and this stands for no value.
  have further := @Derives.nextMember _ (some "note") _ _ _ _ parts rfl (@Derives.scalar .tooLarge _ rfl)
  have cut : tokens noted.toList =
      .openObject :: (Value.membersTokens [("type", .str "remove"), ("market", .int 7), ("sequence", .int 2),
        ("id", .int 1)] ++ .comma :: .str (some "note") :: .colon :: [.tooLarge]) ++ [.closeObject] := by
    decide +kernel
  refine ⟨Draft.isText_of_cut (.obj _) (by decide +kernel), by decide, by decide, by decide, Draft.isText_of_derives ?_,
    by decide +kernel, by decide +kernel⟩
  rw [cut]
  exact .object further

end Lines

end Announcement

end LimitBook
