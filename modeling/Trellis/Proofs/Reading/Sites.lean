import Mathlib.Data.List.Forall2
import Mathlib.Data.List.Induction
import Trellis.Proofs.Reading.Starts

/-!
Where the parts of a field stand.

The children of an entity that belong to a field are the elements that its value is read from.  Of
the elements of a list or set each gives one item, and a set keeps those that equal none before.  The
elements in that of a map each give one entry.  What is recorded for the items and entries are their
keys and places, in that order.
-/

namespace Trellis.Markup

def Content.elements : Content → List (Tag × Content)
  | .closed _ => []
  | .broken _ => []
  | .text _ _ rest => rest.elements
  | .element tag inside rest => (tag, inside) :: rest.elements

def Content.ownText : Content → String
  | .closed _ => ""
  | .broken _ => ""
  | .text _ content rest => content ++ rest.ownText
  | .element _ _ rest => rest.ownText

end Trellis.Markup

namespace Trellis.Reading

open Trellis.Graph (Value)
open Markup (Content Tag)
open Schema (Collection ItemType Layout MapEncoding ScalarType TaggedField)

/-! ### Texts and elements -/

theorem textOf_eq_ok {context : Context} {content : Content} {text : String}
    (read : context.textOf content = .ok text) : text = content.ownText := by
  induction content generalizing text with
  | closed encoding =>
      cases read
      rfl
  | broken ending => cases read
  | text position here rest ih =>
      cases restEq : context.textOf rest with
      | error error =>
          rw [Context.textOf, restEq] at read
          cases read
      | ok later =>
          rw [Context.textOf, restEq] at read
          cases read
          rw [Content.ownText, ih restEq]
  | element tag inside rest => cases read

def routed (layout : Layout) (field : TaggedField) (content : Content) : List (Tag × Content) :=
  content.elements.filter fun child => layout.elementField? child.1.name = some field

def itemElements (field : TaggedField) (wrapped : Bool) (children : List (Tag × Content)) :
    List (Tag × Content) :=
  if wrapped then children.flatMap fun child => child.2.elements.filter (·.1.name = field.itemTag)
  else children

def ItemsRead (context : Context) (field : TaggedField) (type : ScalarType) :
    List (Tag × Content) → List (Tag × Value) → Prop :=
  List.Forall₂ fun element item =>
    item.1 = element.1 ∧ context.scalar field.declared type element.1 element.2 = .ok item.2

def Context.entrySite? (context : Context) (field : TaggedField) (encoding : MapEncoding)
    (element : Tag × Content) : Option (String × Position) :=
  match encoding with
  | .inline => some (element.1.name, element.1.position)
  | .explode =>
      if element.1.name = field.itemTag then
        (context.entryParts field.declared {} element.2).toOption.map fun parts =>
          (parts.key.getD "", parts.position.getD element.1.position)
      else none

/-! ### Items that are kept -/

/-- A list keeps every item, a set those that equal none before. -/
def keepNext (collection : Collection) (kept : List (Tag × Value)) (item : Tag × Value) :
    List (Tag × Value) :=
  if collection = .set ∧ kept.any (·.2.equal item.2) then kept else kept ++ [item]

def keptItems (collection : Collection) (items : List (Tag × Value)) : List (Tag × Value) :=
  items.foldl (keepNext collection) []

theorem keptItems_concat (collection : Collection) (items : List (Tag × Value)) (item : Tag × Value) :
    keptItems collection (items ++ [item]) = keepNext collection (keptItems collection items) item := by
  rw [keptItems, List.foldl_append]
  rfl

theorem keptItems_list (items : List (Tag × Value)) : keptItems .list items = items := by
  induction items using List.reverseRecOn with
  | nil => rfl
  | append_singleton items item ih =>
      have isList : ¬(Collection.list = .set ∧ items.any (·.2.equal item.2) = true) := by
        rintro ⟨impossible, _⟩
        cases impossible
      rw [keptItems_concat, ih, keepNext, if_neg isList]

theorem push_kept (collection : Collection) (kept : List (Tag × Value)) (item : Tag × Value) :
    (Value.collection collection (kept.map (·.2))).push item.2 =
      (.collection collection ((keepNext collection kept item).map (·.2)),
        if collection = .set ∧ kept.any (·.2.equal item.2) then none else some kept.length) := by
  cases collection with
  | list => simp [Value.push, keepNext]
  | set =>
      simp only [Value.push, keepNext, List.any_map, true_and]
      by_cases known : kept.any (·.2.equal item.2) = true
      · have same : kept.any ((·.equal item.2) ∘ (·.2)) = true := known
        simp [same, known]
      · have other : ¬ kept.any ((·.equal item.2) ∘ (·.2)) = true := known
        simp [other, known]

/-! ### Entries -/

/-- The keys and places of the items that a list or set keeps. -/
def Context.itemEntries (context : Context) (collection : Collection) (kept : List (Tag × Value)) :
    List (EntryKey × Location) :=
  kept.zipIdx.map fun entry =>
    (itemKey collection entry.1.2 entry.2, context.locate entry.1.1.position)

def Context.mapEntries (context : Context) (field : TaggedField) (encoding : MapEncoding)
    (elements : List (Tag × Content)) : List (EntryKey × Location) :=
  (elements.filterMap (context.entrySite? field encoding)).map fun site =>
    (.key site.1, context.locate site.2)

/-- What is recorded for the entries of the field is what has been recorded last among these. -/
def HasEntries (id : EntityId) (field : TaggedField) (entries : List (EntryKey × Location))
    (session : Session) : Prop :=
  ∀ key, session.locations.entryPlace? id field.name key = entries.reverse.lookup key

theorem Context.itemEntries_concat (context : Context) (collection : Collection)
    (kept : List (Tag × Value)) (item : Tag × Value) :
    context.itemEntries collection (kept ++ [item]) = context.itemEntries collection kept ++
      [(itemKey collection item.2 kept.length, context.locate item.1.position)] := by
  rw [Context.itemEntries, List.zipIdx_append, List.map_append]
  simp [Context.itemEntries]

variable {context : Context} {id : EntityId} {field : TaggedField} {session session' : Session}

theorem HasEntries.same {entries : List (EntryKey × Location)}
    (has : HasEntries id field entries session) (same : SameRecords id field.name session session') :
    HasEntries id field entries session' :=
  fun key => (same.entries key).trans (has key)

theorem HasEntries.recordField {entries : List (EntryKey × Location)} {location : Location}
    (has : HasEntries id field entries session) :
    HasEntries id field entries
      { session with locations := session.locations.setField id field.name location } := by
  intro key
  rw [LocationMap.entryPlace?_setField]
  exact has key

theorem HasEntries.recordEntry {entries : List (EntryKey × Location)} {key : EntryKey}
    {location : Location} (has : HasEntries id field entries session) :
    HasEntries id field (entries ++ [(key, location)])
      { session with locations := session.locations.setEntry id field.name key location } := by
  intro another
  rw [LocationMap.entryPlace?_setEntry, List.reverse_append, List.reverse_singleton,
    List.singleton_append, LocationMap.lookup_cons_eq_ite, has another]
  simp only [true_and, beq_iff_eq]

/-! ### Items of a list or set -/

theorem addItem_found {collection : Collection} {type : ScalarType} {kept : List (Tag × Value)}
    {tag : Tag} {value holder : Value}
    (runs : context.addItem id field collection (.scalar type) tag
      (.collection collection (kept.map (·.2))) value session = .ok (holder, session'))
    (has : HasEntries id field (context.itemEntries collection kept) session) :
    holder = .collection collection ((keepNext collection kept (tag, value)).map (·.2)) ∧
      HasEntries id field (context.itemEntries collection (keepNext collection kept (tag, value)))
        session' ∧
      session'.locations.fieldPlace? id field.name = session.locations.fieldPlace? id field.name := by
  have pushed := push_kept collection kept (tag, value)
  simp only at pushed
  unfold Context.addItem at runs
  rw [pushed] at runs
  by_cases dropped : collection = .set ∧ kept.any (·.2.equal value) = true
  · simp only [if_pos dropped] at runs
    cases runs
    refine ⟨rfl, ?_, rfl⟩
    rw [keepNext, if_pos dropped]
    exact has
  · simp only [if_neg dropped, isRecorded, if_true] at runs
    obtain ⟨_, _, records, ends⟩ := Read.bind_eq_ok runs
    cases ends
    cases records
    refine ⟨rfl, ?_, LocationMap.fieldPlace?_setEntry _ _ _ _ _ _ _⟩
    rw [keepNext, if_neg dropped, Context.itemEntries_concat]
    exact has.recordEntry

theorem readItems_found {collection : Collection} {type : ScalarType} {content : Content}
    {items : List (Tag × Value)} {holder value : Value}
    (runs : context.readItems id field collection (.scalar type) holder content session =
      .ok (value, session'))
    (holderEq : holder = .collection collection ((keptItems collection items).map (·.2)))
    (has : HasEntries id field (context.itemEntries collection (keptItems collection items)) session) :
    ∃ more, ItemsRead context field type (content.elements.filter (·.1.name = field.itemTag)) more ∧
      value = .collection collection ((keptItems collection (items ++ more)).map (·.2)) ∧
      HasEntries id field (context.itemEntries collection (keptItems collection (items ++ more)))
        session' ∧
      session'.locations.fieldPlace? id field.name = session.locations.fieldPlace? id field.name := by
  -- Whether a set keeps an item depends on those before it, so these are generalized.
  induction content generalizing items holder session with
  | closed encoding =>
      cases runs
      refine ⟨[], .nil, ?_, ?_, rfl⟩
      · rw [List.append_nil]
        exact holderEq
      · rw [List.append_nil]
        exact has
  | broken ending => cases runs
  | text position text rest ih =>
      obtain ⟨_, _, goesOn⟩ := Read.lift_bind_eq_ok runs
      exact ih goesOn holderEq has
  | element tag inside rest _ ih =>
      simp only [Context.readItems] at runs
      split at runs
      · rename_i same
        obtain ⟨item, _, itemRun, goesOn⟩ := Read.bind_eq_ok runs
        obtain ⟨pushed, middle, adds, goesOn⟩ := Read.bind_eq_ok goesOn
        obtain ⟨scalarEq, rfl⟩ := Read.lift_eq_ok itemRun
        rw [holderEq] at adds
        obtain ⟨pushedEq, hasAfter, placeEq⟩ := addItem_found adds has
        rw [← keptItems_concat] at pushedEq hasAfter
        obtain ⟨more, read, valueEq, hasMore, placeEq'⟩ := ih goesOn pushedEq hasAfter
        rw [List.append_assoc] at valueEq hasMore
        refine ⟨(tag, item) :: more, ?_, valueEq, hasMore, placeEq'.trans placeEq⟩
        rw [Content.elements, List.filter_cons_of_pos (by simpa using same)]
        exact .cons ⟨rfl, scalarEq⟩ read
      · rename_i other
        obtain ⟨_, _, goesOn⟩ := Read.lift_bind_eq_ok runs
        rw [Content.elements, List.filter_cons_of_neg (by simpa using other)]
        exact ih goesOn holderEq has

/-! ### Entries of a map -/

private theorem readEntry_found {encoding : MapEncoding} {entries : List (EntryKey × Location)}
    {texts texts' : OrderedMap String String} {tag : Tag} {inside : Content}
    (runs : context.readEntry id field encoding texts tag inside session = .ok (texts', session'))
    (has : HasEntries id field entries session) :
    HasEntries id field (entries ++ context.mapEntries field encoding [(tag, inside)]) session' ∧
      (∀ key, key ∈ texts'.keys ↔
        key ∈ texts.keys ∨ .key key ∈ (context.mapEntries field encoding [(tag, inside)]).map (·.1)) ∧
      session'.locations.fieldPlace? id field.name = session.locations.fieldPlace? id field.name := by
  have grown (key another text : String) :
      another ∈ (texts.set key text).keys ↔ another ∈ texts.keys ∨ another = key := by
    rw [OrderedMap.keys_set]
    split
    · rename_i known
      constructor
      · exact .inl
      · rintro (member | rfl)
        · exact member
        · exact known
    · rw [List.mem_append, List.mem_singleton]
  cases encoding with
  | inline =>
      obtain ⟨text, _, goesOn⟩ := Read.lift_bind_eq_ok runs
      obtain ⟨_, _, records, ends⟩ := Read.bind_eq_ok goesOn
      cases ends
      cases records
      refine ⟨has.recordEntry, ?_, LocationMap.fieldPlace?_setEntry _ _ _ _ _ _ _⟩
      intro key
      rw [grown]
      simp [Context.mapEntries, Context.entrySite?]
  | explode =>
      simp only [Context.readEntry] at runs
      split at runs
      · rename_i same
        obtain ⟨parts, partsEq, goesOn⟩ := Read.lift_bind_eq_ok runs
        obtain ⟨_, _, records, ends⟩ := Read.bind_eq_ok goesOn
        cases ends
        cases records
        have siteEq : context.mapEntries field .explode [(tag, inside)] =
            [(.key (parts.key.getD ""), context.locate (parts.position.getD tag.position))] := by
          simp [Context.mapEntries, Context.entrySite?, same, partsEq, Except.toOption]
        rw [siteEq]
        refine ⟨has.recordEntry, ?_, LocationMap.fieldPlace?_setEntry _ _ _ _ _ _ _⟩
        intro key
        rw [grown]
        simp
      · rename_i other
        obtain ⟨_, _, ends⟩ := Read.lift_bind_eq_ok runs
        cases ends
        have siteEq : context.mapEntries field .explode [(tag, inside)] = [] := by
          simp [Context.mapEntries, Context.entrySite?, other]
        rw [siteEq, List.append_nil]
        exact ⟨has, fun key => by simp, rfl⟩

theorem Context.mapEntries_cons (context : Context) (field : TaggedField) (encoding : MapEncoding)
    (element : Tag × Content) (rest : List (Tag × Content)) :
    context.mapEntries field encoding (element :: rest) =
      context.mapEntries field encoding [element] ++ context.mapEntries field encoding rest := by
  rw [← List.singleton_append, Context.mapEntries, List.filterMap_append, List.map_append]
  rfl

theorem readEntries_found {encoding : MapEncoding} {entries : List (EntryKey × Location)}
    {texts texts' : OrderedMap String String} {content : Content}
    (runs : context.readEntries id field encoding texts content session = .ok (texts', session'))
    (has : HasEntries id field entries session) :
    HasEntries id field (entries ++ context.mapEntries field encoding content.elements) session' ∧
      (∀ key, key ∈ texts'.keys ↔
        key ∈ texts.keys ∨ .key key ∈ (context.mapEntries field encoding content.elements).map (·.1)) ∧
      session'.locations.fieldPlace? id field.name = session.locations.fieldPlace? id field.name := by
  induction content generalizing entries texts session with
  | closed encoding =>
      cases runs
      refine ⟨?_, ?_, rfl⟩
      · rw [Content.elements, Context.mapEntries, List.filterMap_nil, List.map_nil, List.append_nil]
        exact has
      · intro key
        simp [Content.elements, Context.mapEntries]
  | broken ending => cases runs
  | text position text rest ih =>
      obtain ⟨_, _, goesOn⟩ := Read.lift_bind_eq_ok runs
      exact ih goesOn has
  | element tag inside rest _ ih =>
      obtain ⟨between, middle, entryRun, goesOn⟩ := Read.bind_eq_ok runs
      obtain ⟨hasEntry, keys, placeEq⟩ := readEntry_found entryRun has
      obtain ⟨hasRest, keys', placeEq'⟩ := ih goesOn hasEntry
      rw [Content.elements, Context.mapEntries_cons, ← List.append_assoc]
      refine ⟨hasRest, ?_, placeEq'.trans placeEq⟩
      intro key
      rw [keys', keys, List.map_append, List.mem_append, or_assoc]

end Trellis.Reading
