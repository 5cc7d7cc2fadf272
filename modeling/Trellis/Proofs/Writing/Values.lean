import Trellis.Proofs.Writing.Parsing
import Trellis.Proofs.Writing.Scalars

/-!
Values that are written as elements and read again.

One element is written in front of any row, and a reader makes something equal of every content that
shows what was written in it.  So are scalars, entries of maps, items, and the rows of items in
lists and sets.
-/

namespace Trellis.Reading

open Trellis.Graph (Entity Unequal Value textElement writeEntries)
open Markup (Body Content Tag isName)
open Schema (Collection Field ItemType MapEncoding ScalarType TaggedField)

variable {context : Context}

/-! ### Texts -/

theorem shows_of_holds {inside : Body} {content : Content} (holds : content.Holds "" inside) :
    content.Shows inside := by
  obtain ⟨later, begins, showsInside⟩ := holds
  cases begins with
  | nothing _ => exact showsInside
  | filled _ filled => exact absurd rfl filled

private theorem textOf_eq {text : String} {content : Content} (holds : content.Holds text .stop) :
    context.textOf content = .ok text := by
  obtain ⟨later, begins, showsStop⟩ := holds
  obtain ⟨encoding, rfl⟩ := showsStop.stop_inv
  cases begins with
  | nothing empty =>
      rw [empty]
      rfl
  | filled position _ =>
      change Except.ok (text ++ "") = _
      rw [String.append_empty]

theorem scalar_eq (field : Field) {type : ScalarType} (exact : type.isExact = true) {text : String}
    (tag : Tag) {content : Content} (holds : content.Holds text .stop) :
    context.scalar field type tag content =
      coerce context.strict field type text (context.locate tag.position) := by
  have textual (outcome : Except ReadError String) (outcomeEq : outcome = .ok text) :
      (outcome >>= fun text => coerce context.strict field type text (context.locate tag.position)) =
        coerce context.strict field type text (context.locate tag.position) := by
    rw [outcomeEq]
    rfl
  cases type with
  | tree => cases exact
  | _ => exact textual _ (textOf_eq holds)

/-! ### Elements -/

/-- The writer puts one element in front of any row, and such an element is read as it should be. -/
def ReadsElement (tag : String) (write : Body → Option Body) (reads : Tag → Content → Prop) : Prop :=
  ∃ attributes text inside,
    (Body.element tag attributes text inside .stop).WellFormed ∧
    (∀ rest, write rest = some (.element tag attributes text inside rest)) ∧
    ∀ position content, content.Holds text inside → reads ⟨tag, attributes, position⟩ content

theorem wellFormed_before {tag text : String} {attributes : List (String × String)}
    {inside rest : Body} (formed : (Body.element tag attributes text inside .stop).WellFormed)
    (restFormed : rest.WellFormed) :
    (Body.element tag attributes text inside rest).WellFormed := by
  obtain ⟨tagNamed, named, distinct, insideFormed, _⟩ := formed
  exact ⟨tagNamed, named, distinct, insideFormed, restFormed⟩

theorem wellFormed_plain {tag text : String} {inside rest : Body} (named : isName tag = true)
    (insideFormed : inside.WellFormed) (restFormed : rest.WellFormed) :
    (Body.element tag [] text inside rest).WellFormed := by
  refine ⟨named, ?_, List.nodup_nil, insideFormed, restFormed⟩
  intro pair member
  cases member

theorem readsElement_scalar (context : Context) (field : Field) {type : ScalarType}
    (exact : type.isExact = true) {value : Value} (typed : value.HasType type)
    (trimmed : field.trims = true → value.IsTrim) {tag : String} (named : isName tag = true) :
    ReadsElement tag (fun rest => value.writtenText?.map (textElement tag · rest))
      (fun tag content => context.scalar field type tag content = .ok value) := by
  obtain ⟨text, written, reads⟩ := coerce_written exact typed trimmed
  refine ⟨[], text, .stop, wellFormed_plain named trivial trivial, ?_, ?_⟩
  · intro rest
    rw [written]
    rfl
  · intro position content holds
    rw [scalar_eq field exact _ holds]
    exact reads context.strict _

/-! ### Entries -/

private theorem entryParts_written (field : Field) {key text : String}
    (kept : fieldText field text = text)
    {content : Content}
    (showsEntry : content.Shows (textElement "key" key (textElement "value" text .stop))) :
    ∃ position, context.entryParts field {} content = .ok ⟨some key, some text, some position⟩ := by
  obtain ⟨keyPosition, keyContent, behindKey, rfl, keyHolds, showsValue⟩ := showsEntry.element_inv
  obtain ⟨position, valueContent, behindValue, rfl, valueHolds, showsStop⟩ := showsValue.element_inv
  obtain ⟨encoding, rfl⟩ := showsStop.stop_inv
  refine ⟨position, ?_⟩
  have keyPart : context.entryPart field {} ⟨"key", [], keyPosition⟩ keyContent =
      .ok ⟨some key, none, none⟩ := by
    unfold Context.entryPart
    rw [if_pos rfl, textOf_eq keyHolds]
    rfl
  have valuePart : context.entryPart field ⟨some key, none, none⟩ ⟨"value", [], position⟩ valueContent =
      .ok ⟨some key, some text, some position⟩ := by
    have notKey : ¬ "value" = "key" := by decide
    unfold Context.entryPart
    rw [if_neg notKey, if_pos rfl, textOf_eq valueHolds]
    change Except.ok (EntryParts.mk (some key) (some (fieldText field text)) (some position)) = _
    rw [kept]
  rw [Context.entryParts, keyPart]
  change context.entryParts field ⟨some key, none, none⟩ _ = _
  rw [Context.entryParts, valuePart]
  rfl

private theorem readEntry_written (context : Context) (id : EntityId) (field : TaggedField)
    (encoding : MapEncoding) (entries : OrderedMap String String) {key text : String}
    {others : List (String × String)} (kept : fieldText field.declared text = text)
    {content : Content}
    (showsEntries : content.Shows (writeEntries encoding field.itemTag ((key, text) :: others))) :
    ∃ tag inner after, content = .element tag inner after ∧
      after.Shows (writeEntries encoding field.itemTag others) ∧
      Yields (context.readEntry id field encoding entries tag inner) (· = entries.set key text) := by
  cases encoding with
  | inline =>
      obtain ⟨position, inner, after, rfl, holds, showsRest⟩ := showsEntries.element_inv
      refine ⟨_, inner, after, rfl, showsRest, ?_⟩
      apply Yields.afterLift (textOf_eq holds)
      apply Yields.afterModify
      apply Yields.pure
      rw [kept]
  | explode =>
      obtain ⟨position, inner, after, rfl, holds, showsRest⟩ := showsEntries.element_inv
      obtain ⟨valuePosition, parts⟩ := entryParts_written field.declared kept (shows_of_holds holds)
      refine ⟨_, inner, after, rfl, showsRest, ?_⟩
      simp only [Context.readEntry, if_true]
      apply Yields.afterLift parts
      apply Yields.afterModify
      exact .pure rfl

theorem readEntries_written (id : EntityId) (field : TaggedField) (encoding : MapEncoding)
    {entries before : OrderedMap String String}
    (kept : ∀ entry ∈ entries, fieldText field.declared entry.2 = entry.2)
    (distinct : OrderedMap.DistinctKeys (before ++ entries)) {content : Content}
    (showsEntries : content.Shows (writeEntries encoding field.itemTag entries)) :
    Yields (context.readEntries id field encoding before content) (· = before ++ entries) := by
  induction entries generalizing before content with
  | nil =>
      obtain ⟨code, rfl⟩ := showsEntries.stop_inv
      apply Yields.pure
      rw [List.append_nil]
  | cons entry others ih =>
      obtain ⟨key, text⟩ := entry
      have fresh : key ∉ OrderedMap.keys before := by
        intro known
        simp only [OrderedMap.DistinctKeys, OrderedMap.keys, List.map_append, List.map_cons] at distinct
        exact List.disjoint_of_nodup_append distinct known List.mem_cons_self
      obtain ⟨keptHere, keptOthers⟩ := List.forall_mem_cons.1 kept
      obtain ⟨tag, inner, after, rfl, showsRest, reads⟩ :=
        readEntry_written context id field encoding before keptHere showsEntries
      rw [Context.readEntries]
      apply reads.bind
      intro found foundEq
      have split : before ++ (key, text) :: others = before ++ [(key, text)] ++ others :=
        List.append_cons before (key, text) others
      rw [foundEq, OrderedMap.set_of_notMem fresh]
      rw [split] at distinct ⊢
      exact ih keptOthers distinct showsRest

/-! ### Items -/

/-- The entity is written as an element of any tag, and read from it as an equal entity. -/
def EntityReads (context : Context) (entity : Entity) : Prop :=
  ∀ tag, isName tag = true →
    ReadsElement tag (fun rest => entity.write context.schema tag rest) fun tag content =>
      ∀ atRoot, Yields (context.readEntity entity.className tag content atRoot) fun read =>
        read.equal entity = true

def ItemReads (context : Context) (field : TaggedField) (type : ItemType) (item : Value) : Prop :=
  ReadsElement field.itemTag (fun rest => item.writeItem context.schema field.itemTag rest)
    fun tag content => Yields (context.item field type tag content (context.childrenIn content)) fun read =>
      read.equal item = true

theorem itemReads_scalar (field : TaggedField) {type : ScalarType} (exact : type.isExact = true)
    {item : Value} (typed : item.HasType type) (trimmed : field.declared.trims = true → item.IsTrim)
    (named : isName field.itemTag = true) : ItemReads context field (.scalar type) item := by
  obtain ⟨attributes, text, inside, formed, writes, reads⟩ :=
    readsElement_scalar context field.declared exact typed trimmed named
  refine ⟨attributes, text, inside, formed, ?_, ?_⟩
  · intro rest
    have writesItem : item.writeItem context.schema field.itemTag rest =
        item.writtenText?.map (textElement field.itemTag · rest) := by
      cases isExact_of_hasType exact typed <;> rfl
    exact writesItem.trans (writes rest)
  · intro position content holds
    exact .lift (reads position content holds) (equal_self_of_hasType exact typed)

theorem itemReads_entity (field : TaggedField) {inner : Entity} (inside : EntityReads context inner)
    (named : isName field.itemTag = true) :
    ItemReads context field (.entity inner.className) (.entity inner) := by
  obtain ⟨attributes, text, body, formed, writes, reads⟩ := inside field.itemTag named
  refine ⟨attributes, text, body, formed, writes, ?_⟩
  intro position content holds
  apply (reads position content holds false).map
  intro read same
  exact Value.equal_iff.2 (.entity same)

/-- The items are written as elements in front of the rest, and each is read from its element. -/
inductive ItemRow (context : Context) (field : TaggedField) (type : ItemType) (rest : Body) :
    List Value → Body → Prop
  | nil : ItemRow context field type rest [] rest
  | cons {item : Value} {others : List Value} {attributes : List (String × String)} {text : String}
      {inside body : Body} (formed : (Body.element field.itemTag attributes text inside .stop).WellFormed)
      (reads : ∀ position content, content.Holds text inside →
        Yields (context.item field type ⟨field.itemTag, attributes, position⟩ content
          (context.childrenIn content)) fun read => read.equal item = true)
      (row : ItemRow context field type rest others body) :
      ItemRow context field type rest (item :: others)
        (.element field.itemTag attributes text inside body)

theorem writeItems_row {field : TaggedField} {type : ItemType} {items : List Value}
    (each : ∀ item ∈ items, ItemReads context field type item) (rest : Body) :
    ∃ body, Value.writeItems context.schema field.itemTag rest items = some body ∧
      ItemRow context field type rest items body := by
  induction items with
  | nil => exact ⟨rest, rfl, .nil⟩
  | cons item others ih =>
      obtain ⟨first, eachOther⟩ := List.forall_mem_cons.1 each
      obtain ⟨body, writesOthers, row⟩ := ih eachOther
      obtain ⟨attributes, text, inside, formed, writes, reads⟩ := first
      refine ⟨_, ?_, .cons formed reads row⟩
      rw [Value.writeItems, writesOthers]
      exact writes body

theorem ItemRow.wellFormed {field : TaggedField} {type : ItemType} {rest body : Body}
    {items : List Value} (row : ItemRow context field type rest items body)
    (restFormed : rest.WellFormed) : body.WellFormed := by
  induction row with
  | nil => exact restFormed
  | cons formed _ _ ih => exact wellFormed_before formed ih

/-! ### Lists and sets -/

abbrev SameItems (read written : List Value) : Prop :=
  List.Forall₂ (fun value item => value.equal item = true) read written

theorem SameItems.exists_written {read written : List Value} (same : SameItems read written)
    {value : Value} (member : value ∈ read) : ∃ item ∈ written, value.equal item = true := by
  induction same with
  | nil => cases member
  | cons first _ ih =>
      rcases List.mem_cons.1 member with rfl | later
      · exact ⟨_, List.mem_cons_self, first⟩
      · obtain ⟨item, isItem, itemSame⟩ := ih later
        exact ⟨item, List.mem_cons_of_mem _ isItem, itemSame⟩

theorem SameItems.push {read written : List Value} (same : SameItems read written)
    {value item : Value} (valueSame : value.equal item = true) :
    SameItems (read ++ [value]) (written ++ [item]) :=
  List.rel_append same (.cons valueSame .nil)

/-- An item of a set that differs from those before it is read as one that differs from those
read. -/
private theorem any_equal_eq_false {read written : List Value} (same : SameItems read written)
    {value item : Value} (valueSame : value.equal item = true)
    (unequal : Unequal (written ++ [item])) : read.any (·.equal value) = false := by
  rw [List.any_eq_false]
  intro other member equal
  -- If it were equal to one of those read, the items that both stand for would be equal.
  obtain ⟨known, isKnown, otherSame⟩ := same.exists_written member
  have apart := (List.pairwise_append.1 unequal).2.2 known isKnown item List.mem_cons_self
  have together : known.equal item = true :=
    Value.equal_trans (Value.equal_symm otherSame) (Value.equal_trans equal valueSame)
  rw [apart.1] at together
  cases together

theorem addItem_yields (id : EntityId) (field : TaggedField) {collection : Collection}
    (type : ItemType) (tag : Tag) {read written : List Value} (same : SameItems read written)
    {value item : Value} (valueSame : value.equal item = true)
    (unequal : collection = .set → Unequal (written ++ [item])) :
    Yields (context.addItem id field collection type tag (.collection collection read) value)
      (· = .collection collection (read ++ [value])) := by
  have pushed : (Value.collection collection read).push value =
      (.collection collection (read ++ [value]), some read.length) := by
    cases collection with
    | list => rfl
    | set =>
        have fresh := any_equal_eq_false same valueSame (unequal rfl)
        simp only [Value.push, fresh, Bool.false_eq_true, if_false]
  unfold Context.addItem
  rw [pushed]
  simp only
  split
  · apply Yields.afterModify
    exact .pure rfl
  · exact .pure rfl

theorem unequal_first {written others : List Value} {item : Value}
    (unequal : Unequal (written ++ item :: others)) : Unequal (written ++ [item]) := by
  rw [List.append_cons] at unequal
  exact (List.pairwise_append.1 unequal).1

theorem readItems_row {field : TaggedField} {type : ItemType} {items : List Value} {body : Body}
    (row : ItemRow context field type .stop items body) (id : EntityId) (collection : Collection)
    {read written : List Value} (same : SameItems read written)
    (unequal : collection = .set → Unequal (written ++ items)) {content : Content}
    (showsBody : content.Shows body) :
    Yields (context.readItems id field collection type (.collection collection read) content)
      fun holder => ∃ all, holder = .collection collection all ∧ SameItems all (written ++ items) := by
  induction row generalizing read written content with
  | nil =>
      obtain ⟨code, rfl⟩ := showsBody.stop_inv
      refine .pure ⟨read, rfl, ?_⟩
      rw [List.append_nil]
      exact same
  | cons formed reads row ih =>
      rename_i item others attributes text inside body
      obtain ⟨position, inner, after, rfl, holds, showsRest⟩ := showsBody.element_inv
      rw [Context.readItems, if_pos rfl]
      apply (reads position inner holds).bind
      intro value valueSame
      apply (addItem_yields id field type _ same valueSame fun isSet =>
        unequal_first (unequal isSet)).bind
      intro holder holderEq
      rw [holderEq]
      rw [List.append_cons written item others] at unequal ⊢
      exact ih (same.push valueSame) unequal showsRest

end Trellis.Reading
