import LimitBook.Json.Record
import LimitBook.Proofs.Json.Codec

/-!
What records accept. Each field is read by itself: off the one member that names it, whatever stands around this
member, or off nothing at all. An array stands for the object that gives its items their fields' names.
-/

namespace LimitBook.Json

/-- The values that are given under some names. -/
def given (members : List (String × Value)) (names : List String) : List Value :=
  (members.filter (·.1 ∈ names)).map Prod.snd

section Given

variable {members others : List (String × Value)} {names : List String} {key : String} {value : Value}

/-- Nothing gives nothing. -/
@[simp] theorem given_nil (names : List String) : given [] names = [] := rfl

/-- A member of one of the names gives its value. -/
theorem given_cons_of_mem (named : key ∈ names) :
    given ((key, value) :: members) names = value :: given members names := by
  simp [given, named]

/-- A member of another name gives nothing. -/
theorem given_cons_of_notMem (unnamed : key ∉ names) : given ((key, value) :: members) names = given members names := by
  simp [given, unnamed]

/-- Members of other names give nothing. -/
theorem given_eq_nil (unnamed : ∀ member ∈ members, member.1 ∉ names) : given members names = [] := by
  -- No member passes the filter.
  unfold given
  rw [List.filter_eq_nil_iff.mpr fun member isMember => by simpa using unnamed member isMember, List.map_nil]

/-- Under a name that gives nothing nothing is found. -/
theorem lookup_eq_none (named : key ∈ names) (nothing : given members names = []) : members.lookup key = none := by
  -- A member under this key would be one that is given.
  rw [List.lookup_eq_none_iff]
  intro member isMember
  simp only [given, List.map_eq_nil_iff, List.filter_eq_nil_iff, decide_eq_true_eq] at nothing
  have differs : key ≠ member.1 := by
    rintro rfl
    exact nothing member isMember named
  exact bne_iff_ne.mpr differs

/-- A value that is given once under two names is found under one of them. -/
theorem lookup_or_lookup {first second : String} (once : given members [first, second] = [value]) :
    (members.lookup first).or (members.lookup second) = some value := by
  induction members with
  | nil => simp at once
  | cons member members ih =>
    obtain ⟨key, value'⟩ := member
    by_cases named : key ∈ [first, second]
    · -- This is the value, and the other members give none.
      rw [given_cons_of_mem named] at once
      obtain ⟨rfl, nothing⟩ := List.cons.inj once
      have notFirst : members.lookup first = none := lookup_eq_none List.mem_cons_self nothing
      simp only [List.mem_cons, List.not_mem_nil, or_false] at named
      rcases named with rfl | rfl
      · rw [List.lookup_cons_self, Option.some_or]
      · rw [List.lookup_cons_self, List.lookup_cons]
        split <;> simp [notFirst]
    · -- The member is given under neither name, and the value is among the others.
      rw [given_cons_of_notMem named] at once
      simp only [List.mem_cons, List.not_mem_nil, or_false, not_or] at named
      rw [List.lookup_cons, List.lookup_cons, beq_false_of_ne (Ne.symm named.1), beq_false_of_ne (Ne.symm named.2)]
      exact ih once

/-- The order of the members matters only among values of the same names. -/
theorem given_perm (same : members.Perm others) : (given members names).Perm (given others names) :=
  (same.filter _).map _

/-- A new key is put in somewhere among the others. -/
theorem insertMember_perm (fresh : key ∉ members.map Prod.fst) :
    (Value.insertMember key value members).Perm ((key, value) :: members) := by
  induction members with
  | nil => exact .refl _
  | cons member members ih =>
    obtain ⟨key', value'⟩ := member
    obtain ⟨differs, fresh⟩ := not_or.mp (mt List.mem_cons.mpr fresh)
    unfold Value.insertMember
    rw [if_neg differs]
    split
    · exact .refl _
    · -- The key goes behind the first member.
      exact ((ih fresh).cons _).trans (.swap _ _ _)

/-- Sorting members of different keys loses and adds nothing. -/
theorem sortMembers_perm (distinct : (members.map Prod.fst).Nodup) : (Value.sortMembers members).Perm members := by
  -- The members that have been sorted so far grow, and their keys are not among those of the others.
  have general : ∀ sorted : List (String × Value), ((members ++ sorted).map Prod.fst).Nodup →
      (members.foldl (fun sorted member => Value.insertMember member.1 member.2 sorted) sorted).Perm
        (members ++ sorted) := by
    clear distinct
    induction members with
    | nil => exact fun sorted _ => .refl _
    -- The first member is put in, and the others follow with it among the sorted ones.
    | cons member members ih =>
      intro sorted distinct
      have fresh : member.1 ∉ sorted.map Prod.fst := fun known => by
        rw [List.cons_append, List.map_cons, List.map_append] at distinct
        exact (List.nodup_cons.mp distinct).1 (List.mem_append_right _ known)
      have inserted : (Value.insertMember member.1 member.2 sorted).Perm (member :: sorted) := insertMember_perm fresh
      have moved : (members ++ Value.insertMember member.1 member.2 sorted).Perm (member :: members ++ sorted) :=
        (inserted.append_left members).trans List.perm_middle
      exact (ih _ (((moved.map Prod.fst).nodup_iff).mpr distinct)).trans moved
  have whole := general [] (by rwa [List.append_nil])
  rwa [List.append_nil] at whole

/-- A value has no breaks. -/
theorem isWhole_ofValue (value : Value) : (Draft.ofValue value).isWhole = true := by
  cases value <;> rfl

end Given

namespace FieldFormat

variable {α : Type}

/-- All names of a field. -/
def names (field : FieldFormat α) : List String := field.name :: field.aliases

/-- A field is read off the one value that is given for it, or off nothing if it may be absent. -/
def Reads (field : FieldFormat α) (values : List Value) (a : α) : Prop :=
  values = [] ∧ field.absent = some a ∨ ∃ value, values = [value] ∧ field.codec.ofValue value = .ok a

/-- The values that are given for a field fill its slot, which they find empty, or leave it as it is. -/
def Fills (field : FieldFormat α) (values : List Value) (slot slot' : Option α) : Prop :=
  values = [] ∧ slot' = slot ∨
    slot = none ∧ ∃ value a, values = [value] ∧ field.codec.ofValue value = .ok a ∧ slot' = some a

variable {field : FieldFormat α} {key : String} {value : Value} {values : List Value} {slot slot' : Option α} {a : α}

/-- A key names a field if it is one of its names. -/
theorem isNamed_iff : field.isNamed key = true ↔ key ∈ field.names := by
  simp [isNamed, names]

/-- Without a value a slot stays as it is. -/
@[simp] theorem fills_nil : field.Fills [] slot slot' ↔ slot' = slot := by
  simp [Fills]

/-- The first value fills an empty slot, and none may follow it. -/
theorem fills_cons : field.Fills (value :: values) slot slot' ↔
    slot = none ∧ values = [] ∧ ∃ a, field.codec.ofValue value = .ok a ∧ slot' = some a := by
  -- A first value is only taken while the slot is empty, and nothing may be left behind it.
  simp only [Fills, reduceCtorEq, false_and, false_or, List.cons.injEq]
  constructor
  · rintro ⟨empty, _, a, ⟨rfl, rfl⟩, read, filled⟩
    exact ⟨empty, rfl, a, read, filled⟩
  · rintro ⟨empty, rfl, a, read, filled⟩
    exact ⟨empty, value, a, ⟨rfl, rfl⟩, read, filled⟩

/-- A slot that is full takes nothing more. -/
theorem fills_some : field.Fills values (some a) slot' ↔ values = [] ∧ slot' = some a := by
  simp [Fills]

/-- Off nothing a field is read as what it is when absent. -/
@[simp] theorem reads_nil : field.Reads [] a ↔ field.absent = some a := by
  simp [Reads]

/-- Off a single value a field is read by its codec. -/
@[simp] theorem reads_singleton : field.Reads [value] a ↔ field.codec.ofValue value = .ok a := by
  simp [Reads]

/-- The order of the values does not matter, since there is one at most. -/
theorem Reads.perm {others : List Value} (same : values.Perm others) (reads : field.Reads values a) :
    field.Reads others a := by
  -- There is at most one value, and a list of one value has no other order.
  rcases reads with ⟨rfl, absent⟩ | ⟨value, rfl, read⟩
  · rw [List.nil_perm.mp same]
    exact reads_nil.mpr absent
  · rw [← List.singleton_perm.mp same]
    exact reads_singleton.mpr read

/-- A field that must be given is read off the one value that says what it is. -/
theorem reads_required {written : Value} (must : field.absent = none)
    (reads : ∀ value, field.codec.ofValue value = .ok a ↔ value = written) :
    field.Reads values a ↔ values = [written] := by
  simp [Reads, must, reads]

/-- A slot that is empty at first holds in the end what the field is read as, unless the field is absent. -/
theorem exists_fills_iff_reads :
    (∃ slot, field.Fills values none slot ∧ slot.or field.absent = some a) ↔ field.Reads values a := by
  -- Without a value the absent one stands, if there is one; one value fills the slot.
  cases values with
  | nil => simp [Reads]
  | cons value values =>
    simp only [fills_cons, true_and, Reads, reduceCtorEq, false_and, false_or, List.cons.injEq]
    constructor
    · rintro ⟨_, ⟨rfl, a', read, rfl⟩, isValue⟩
      obtain rfl := Option.some.inj isValue
      exact ⟨value, ⟨rfl, rfl⟩, read⟩
    · rintro ⟨_, ⟨rfl, rfl⟩, read⟩
      exact ⟨some a, ⟨rfl, a, read, rfl⟩, rfl⟩

end FieldFormat

namespace Fields

/-- All names of all fields. -/
def names {αs : List Type} : Fields αs → List String
  | nil => []
  | cons field fields => field.names ++ fields.names

/-- Every field of a row is read off the values that are given under its names. -/
def Reads {αs : List Type} (members : List (String × Value)) : Fields αs → Row αs → Prop
  | nil, _ => True
  | cons field fields, (a, row) => field.Reads (given members field.names) a ∧ fields.Reads members row

/-- The members fill the slots of the fields that they name. -/
def Fills {αs : List Type} (members : List (String × Value)) : Fields αs → Slots αs → Slots αs → Prop
  | nil, _, _ => True
  | cons field fields, (slot, slots), (slot', slots') =>
    field.Fills (given members field.names) slot slot' ∧ fields.Fills members slots slots'

variable {αs : List Type} {fields : Fields αs} {members : List (String × Value)} {key : String} {value : Value}
  {slots slots' : Slots αs} {row : Row αs}

/-- Without members the slots stay as they are. -/
theorem fills_nil : fields.Fills [] slots slots' ↔ slots' = slots := by
  -- No field is given anything, and so each slot is as it was.
  induction fields with
  | nil => simp [Fills]
  | cons field fields ih =>
    obtain ⟨slot, slots⟩ := slots
    obtain ⟨slot', slots'⟩ := slots'
    simp only [Fills, given_nil, FieldFormat.fills_nil, ih, Prod.mk.injEq]

/-- A member that names no field changes nothing. -/
theorem fills_cons_of_notMem (unnamed : key ∉ fields.names) :
    fields.Fills ((key, value) :: members) slots slots' ↔ fields.Fills members slots slots' := by
  -- Neither the first field nor a later one is given the member.
  induction fields with
  | nil => rfl
  | cons field fields ih =>
    obtain ⟨notFirst, notLater⟩ := not_or.mp (mt List.mem_append.mpr unnamed)
    simp only [Fills, given_cons_of_notMem notFirst, ih notLater]

/-- A member that names no field is not read. -/
theorem reads_cons_of_notMem (unnamed : key ∉ fields.names) :
    fields.Reads ((key, value) :: members) row ↔ fields.Reads members row := by
  -- Neither the first field nor a later one is given the member.
  induction fields with
  | nil => rfl
  | cons field fields ih =>
    obtain ⟨notFirst, notLater⟩ := not_or.mp (mt List.mem_append.mpr unnamed)
    simp only [Reads, given_cons_of_notMem notFirst, ih notLater]

/-- The order of the members does not matter. -/
theorem Reads.perm {others : List (String × Value)} (same : members.Perm others) (reads : fields.Reads members row) :
    fields.Reads others row := by
  -- Each field reads its own members, whose order does not matter.
  induction fields with
  | nil => trivial
  | cons field fields ih => exact ⟨reads.1.perm (given_perm same), ih reads.2⟩

/-- A member that names no field has no slot. -/
theorem assign?_of_notMem (unnamed : key ∉ fields.names) (draft : Draft) (slots : Slots αs) :
    fields.assign? .tree key draft slots = none := by
  -- The member is passed on from field to field, and none has its name.
  induction fields with
  | nil => rfl
  | cons field fields ih =>
    obtain ⟨notFirst, notLater⟩ := not_or.mp (mt List.mem_append.mpr unnamed)
    obtain ⟨slot, slots⟩ := slots
    have notNamed : field.isNamed key = false := by simpa using mt FieldFormat.isNamed_iff.mp notFirst
    simp [assign?, notNamed, ih notLater]

/-- A member that names a field goes into its slot, and the others fill the slots that result. -/
theorem assign?_of_mem (distinct : fields.names.Nodup) (named : key ∈ fields.names) (slots : Slots αs) :
    ∃ outcome, fields.assign? .tree key (.ofValue value) slots = some outcome ∧
      ∀ members slots', fields.Fills ((key, value) :: members) slots slots' ↔
        ∃ next, outcome = .ok next ∧ fields.Fills members next slots' := by
  -- The induction is on the fields: the member goes to the first one of its name, and names do not repeat.
  induction fields with
  | nil => simp [names] at named
  | cons field fields ih =>
    obtain ⟨slot, slots⟩ := slots
    obtain ⟨-, distinct', apart⟩ := List.nodup_append.mp distinct
    unfold assign?
    by_cases isFirst : key ∈ field.names
    · have notLater : key ∉ fields.names := fun later => apart key isFirst key later rfl
      rw [if_pos (FieldFormat.isNamed_iff.mpr isFirst)]
      cases slot with
      -- A slot that is filled takes no second value.
      | some a =>
        refine ⟨_, rfl, fun members (slot', slots') => ?_⟩
        simp [Fills, given_cons_of_mem isFirst, FieldFormat.fills_cons]
      -- An empty slot takes the value if it can be read as the field asks.
      | none =>
        refine ⟨_, rfl, fun members (slot', slots') => ?_⟩
        simp only [Fills, given_cons_of_mem isFirst, FieldFormat.fills_cons, fills_cons_of_notMem notLater]
        show _ ↔ ∃ next, (field.codec.ofValue value).map _ = .ok next ∧ _
        cases field.codec.ofValue value with
        | error error => simp [Except.map]
        | ok a => simp [Except.map, FieldFormat.fills_some, and_assoc]
    · have isLater : key ∈ fields.names := (List.mem_append.mp named).resolve_left isFirst
      obtain ⟨outcome, assigned, fills⟩ := ih distinct' isLater slots
      have notNamed : field.isNamed key = false := by simpa using mt FieldFormat.isNamed_iff.mp isFirst
      simp only [notNamed, Bool.false_eq_true, if_false, assigned]
      refine ⟨_, rfl, fun members (slot', slots') => ?_⟩
      simp only [Fills, given_cons_of_notMem isFirst, fills]
      cases outcome <;> simp [Except.map]

/-- Reading members one after another fills the slots of the fields that they name. -/
theorem readMembers_iff (distinct : fields.names.Nodup) (members : List (String × Value)) (slots : Slots αs) :
    fields.readMembers .tree (Draft.ofMembers members) slots = .ok slots' ↔ fields.Fills members slots slots' := by
  -- The slots vary along the members, each of which is taken by one field or by none.
  induction members generalizing slots with
  | nil =>
    show Except.ok slots = Except.ok slots' ↔ _
    rw [Except.ok.injEq, fills_nil, eq_comm]
  | cons member members ih =>
    obtain ⟨key, value⟩ := member
    unfold Draft.ofMembers readMembers
    by_cases named : key ∈ fields.names
    · obtain ⟨outcome, assigned, fills⟩ := assign?_of_mem distinct named slots
      rw [assigned, fills]
      cases outcome with
      | error error => simp
      | ok next => simp [ih]
    · rw [assign?_of_notMem named, fills_cons_of_notMem named, ← ih]
      simp only [isWhole_ofValue, if_true]

/-- Slots hold a row if each of them holds the value of its field, or the field may be absent. -/
theorem fill_cons {α : Type} {field : FieldFormat α} {slot : Option α} {a : α} :
    (cons field fields).fill (slot, slots) = .ok (a, row) ↔
      slot.or field.absent = some a ∧ fields.fill slots = .ok row := by
  -- A slot without a value falls back on the absent one; if there is none, the row is not filled.
  simp only [fill]
  cases slot.or field.absent with
  | none => simp
  | some a' => cases fields.fill slots <;> simp [Except.map]

/-- The slots that members have filled hold a row exactly if every field of the row is read off its members. -/
theorem exists_fills_iff_reads :
    (∃ slots, fields.Fills members (Slots.empty αs) slots ∧ fields.fill slots = .ok row) ↔
      fields.Reads members row := by
  induction fields with
  | nil => simp [Fills, Reads, fill]
  | cons field fields ih =>
    obtain ⟨a, row⟩ := row
    rw [Reads, ← FieldFormat.exists_fills_iff_reads, ← ih]
    -- Slots of a record are a slot of its first field and slots of the others.
    constructor
    · rintro ⟨⟨slot, slots⟩, ⟨fills, fillsOthers⟩, holds⟩
      obtain ⟨isValue, holdsOthers⟩ := fill_cons.mp holds
      exact ⟨⟨slot, fills, isValue⟩, slots, fillsOthers, holdsOthers⟩
    · rintro ⟨⟨slot, fills, isValue⟩, slots, fillsOthers, holdsOthers⟩
      exact ⟨(slot, slots), ⟨fills, fillsOthers⟩, fill_cons.mpr ⟨isValue, holdsOthers⟩⟩

/-- A record is read off an object by reading each field off the members that name it. -/
theorem ofMembers_iff (distinct : fields.names.Nodup) (members : List (String × Value)) :
    fields.ofMembers .tree (Draft.ofMembers members) true = .ok row ↔ fields.Reads members row := by
  -- Members fill the slots that were empty at first, and the slots are turned into a row.
  rw [← exists_fills_iff_reads]
  unfold ofMembers
  simp only [← readMembers_iff distinct]
  cases fields.readMembers .tree (Draft.ofMembers members) (Slots.empty αs) <;> simp [Bind.bind, Except.bind]

section Items

/-- The names under which fields are written, in order. -/
def mainNames {αs : List Type} : Fields αs → List String
  | nil => []
  | cons field fields => field.name :: fields.mainNames

/-- A row is read off items in order; only fields that may be missing at the end are not given an item. -/
def ReadsItems {αs : List Type} : Fields αs → List Value → Row αs → Prop
  | nil, items, _ => items = []
  | cons field fields, item :: items, (a, row) => field.codec.ofValue item = .ok a ∧ fields.ReadsItems items row
  | cons field fields, [], (a, row) => field.short = some a ∧ fields.ReadsItems [] row

/-- Reading items one after another reads a row off them, if none is left over. -/
theorem readItems_iff (shape : String) (position : Nat) (items : List Value) :
    fields.readItems .tree true shape position (Draft.ofItems items) = .ok (row, []) ↔ fields.ReadsItems items row := by
  -- The position varies along the fields, and every field takes one item.
  induction fields generalizing items position with
  | nil => cases items <;> simp [readItems, ReadsItems, Draft.ofItems]
  | cons field fields ih =>
    obtain ⟨a, row⟩ := row
    cases items with
    -- Without an item the field falls back on what it has for a short array.
    | nil =>
      simp only [readItems, Draft.ofItems, if_true, ReadsItems, ← ih (position + 1) []]
      cases field.short with
      | none => simp
      | some a' =>
        cases fields.readItems .tree true shape (position + 1) [] <;>
          simp [Bind.bind, Except.bind, Pure.pure, Except.pure, Prod.ext_iff, and_assoc]
    -- The item is read as the field asks, and the others are left to the fields behind it.
    | cons item items =>
      simp only [readItems, Draft.ofItems, ReadsItems, ← ih (position + 1) items]
      show (field.codec.ofValue item >>= _) = _ ↔ _
      cases field.codec.ofValue item with
      | error error => simp [Bind.bind, Except.bind]
      | ok a' =>
        cases fields.readItems .tree true shape (position + 1) (Draft.ofItems items) <;>
          simp [Bind.bind, Except.bind, Pure.pure, Except.pure, Prod.ext_iff, and_assoc]

/-- A record is read off an array if its items are read in order and none is left over. -/
theorem ofItems_iff (name : String) (items : List Value) :
    fields.ofItems .tree name (Draft.ofItems items) true = .ok row ↔ fields.ReadsItems items row := by
  -- Behind the fields nothing may be left of the items.
  rw [← readItems_iff (shape name αs.length) 0 items]
  unfold ofItems
  cases fields.readItems .tree true (shape name αs.length) 0 (Draft.ofItems items) with
  | error error => simp [Bind.bind, Except.bind]
  | ok read =>
    obtain ⟨row', others⟩ := read
    cases others <;> simp [Bind.bind, Except.bind, Pure.pure, Except.pure, throw, throwThe, MonadExceptOf.throw]

/-- The names that items are given are some of the names that there are. -/
theorem map_fst_zip_sublist (names : List String) (items : List Value) :
    ((names.zip items).map Prod.fst).Sublist names := by
  -- Each item takes one name, in the order of the names.
  induction names generalizing items with
  | nil => exact .refl _
  | cons name names ih =>
    cases items with
    | nil => exact List.nil_sublist _
    | cons item items => exact (ih items).cons_cons name

/-- Every name under which a field is written is one of its names. -/
theorem mainNames_sublist (fields : Fields αs) : fields.mainNames.Sublist fields.names := by
  -- The main name of a field is the first of its names.
  induction fields with
  | nil => exact .refl _
  | cons field fields ih => exact (ih.trans (List.sublist_append_right _ _)).cons_cons _

/-- An item that is named for a field is given for this field and for no other. -/
theorem reads_zip_cons {α : Type} {field : FieldFormat α} {item : Value} {items : List Value} {a : α}
    (distinct : (cons field fields).names.Nodup) :
    (cons field fields).Reads ((cons field fields).mainNames.zip (item :: items)) (a, row) ↔
      field.codec.ofValue item = .ok a ∧ fields.Reads (fields.mainNames.zip items) row := by
  obtain ⟨-, -, apart⟩ := List.nodup_append.mp distinct
  have first : field.name ∈ field.names := List.mem_cons_self
  have notLater : field.name ∉ fields.names := fun later => apart _ first _ later rfl
  -- The other items are named for other fields.
  have others : ∀ member ∈ fields.mainNames.zip items, member.1 ∉ field.names := fun member isMember named =>
    apart _ named _ ((mainNames_sublist fields).subset (List.of_mem_zip isMember).1) rfl
  simp only [mainNames, List.zip_cons_cons, Reads, given_cons_of_mem first, given_eq_nil others,
    FieldFormat.reads_singleton, reads_cons_of_notMem notLater]

/-- Fields that may be missing in an object are those that may be missing at the end of an array. -/
def ShortIfAbsent {αs : List Type} : Fields αs → Prop
  | nil => True
  | cons field fields => field.short = field.absent ∧ fields.ShortIfAbsent

/-- An array of items stands for the object of these items under the names of the fields. -/
theorem readsItems_iff_reads (distinct : fields.names.Nodup) (short : fields.ShortIfAbsent) (items : List Value) :
    fields.ReadsItems items row ↔ items.length ≤ αs.length ∧ fields.Reads (fields.mainNames.zip items) row := by
  -- An item in its position is a member under the main name in this position.
  induction fields generalizing items with
  | nil => cases items <;> simp [ReadsItems, Reads]
  | cons field fields ih =>
    obtain ⟨a, row⟩ := row
    have distinct' := (List.nodup_append.mp distinct).2.1
    cases items with
    | nil => simp [ReadsItems, Reads, ih distinct' short.2, short.1]
    | cons item items =>
      rw [ReadsItems, ih distinct' short.2, reads_zip_cons distinct]
      simp only [List.length_cons, Nat.add_le_add_iff_right]
      exact and_left_comm

end Items

end Fields

namespace Codec

variable {α : Type} {αs : List Type} {name : String} {fields : Fields αs} {toRow : α → Row αs}
  {ofRow : Row αs → α} {a : α}

/-- A record is read off an object if each of its fields is. -/
theorem record_ofValue_obj (distinct : fields.names.Nodup) (members : List (String × Value)) :
    (record name fields toRow ofRow).ofValue (.obj members) = .ok a ↔
      ∃ row, fields.Reads members row ∧ ofRow row = a := by
  -- The members are read into a row, and the record is made of the row.
  show (fields.ofMembers .tree (Draft.ofMembers members) true).map ofRow = .ok a ↔ _
  simp only [← Fields.ofMembers_iff distinct]
  cases fields.ofMembers .tree (Draft.ofMembers members) true <;> simp [Except.map]

/-- A record is read off an array if it is read off the object with these items, and no item is left over. -/
theorem record_ofValue_arr (distinct : fields.names.Nodup) (short : fields.ShortIfAbsent) (items : List Value) :
    (record name fields toRow ofRow).ofValue (.arr items) = .ok a ↔
      items.length ≤ αs.length ∧
        (record name fields toRow ofRow).ofValue (.obj (fields.mainNames.zip items)) = .ok a := by
  -- An array is read as the object that it stands for, if it is not too long.
  rw [record_ofValue_obj distinct]
  show (fields.ofItems .tree name (Draft.ofItems items) true).map ofRow = .ok a ↔ _
  simp only [← Fields.readsItems_iff_reads distinct short, ← Fields.ofItems_iff name,
    ← exists_and_left, ← and_assoc]
  cases fields.ofItems .tree name (Draft.ofItems items) true <;> simp [Except.map]

end Codec

end LimitBook.Json
