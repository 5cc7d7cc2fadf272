import Trellis.Proofs.Reading.Origins
import Trellis.Proofs.Reading.Placement
import Trellis.Proofs.Writing.Scalars

/-!
Members of sets by their texts.

A truth value, a character, an integer or a text is read back from its text, whatever the field says
besides that it does not trim.  So no two values of one of these types have one text, and each member
of a set of them has a place of its own under its text.
-/

namespace Trellis.Reading

open Trellis.Graph (Entity Value)
open Markup (Content Document Tag)
open Schema (Collection Declarations Field Layout ScalarType TaggedField)

/-! ### Statements -/

/-- The set in the field has the items read for it that equal none before.  Each of them has the place
of its element under its text, and no other member has this text. -/
structure MembersPlaced (context : Context) (layout : Layout) (start : Start) (entity : Entity)
    (field : TaggedField) (type : ScalarType) (wrapped : Bool) (map : LocationMap)
    (items : List (Tag × Value)) : Prop where
  read : ItemsRead context field type
    (itemElements field wrapped (childrenOf layout field start.inside)) items
  value_eq : entity.get? field.name = if childrenOf layout field start.inside = [] then none
    else some (.collection .set ((keptItems .set items).map (·.2)))
  placed : ∀ item ∈ keptItems .set items, ∃ text, item.2.scalarText? = some text ∧
    map.entryPlace? entity.id field.name (.member text) = some (context.locate item.1.position)
  apart : (keptItems .set items).Pairwise fun item item' => item.2.scalarText? ≠ item'.2.scalarText?

/-! ### Texts -/

private theorem coerce_scalarText {field : Field} (keeps : field.trims = false) {type : ScalarType}
    (exact : type.isExact = true) {value : Value} (typed : value.HasType type) :
    ∃ text, value.scalarText? = some text ∧
      ∀ strict location, coerce strict field type text location = .ok value := by
  have trimmed : field.trims = true → value.IsTrim := by
    rw [keeps]
    exact nofun
  obtain ⟨text, written, reads⟩ := coerce_written exact typed trimmed
  refine ⟨text, ?_, reads⟩
  cases isExact_of_hasType exact typed <;> exact written

private theorem exists_scalarText {type : ScalarType} (exact : type.isExact = true) {value : Value}
    (typed : value.HasType type) : ∃ text, value.scalarText? = some text := by
  cases isExact_of_hasType exact typed <;> exact ⟨_, rfl⟩

private theorem eq_of_scalarText?_eq {type : ScalarType} (exact : type.isExact = true)
    {value value' : Value}
    (typed : value.HasType type) (typed' : value'.HasType type)
    (same : value.scalarText? = value'.scalarText?) : value = value' := by
  let plain : Field := { name := "", kind := .scalar type, trims := false }
  have keeps : plain.trims = false := rfl
  obtain ⟨text, textEq, reads⟩ := coerce_scalarText keeps exact typed
  obtain ⟨text', textEq', reads'⟩ := coerce_scalarText keeps exact typed'
  rw [same, textEq', Option.some.injEq] at textEq
  rw [textEq] at reads'
  exact Except.ok.inj ((reads true ⟨⟨1, 1⟩, none⟩).symm.trans (reads' true ⟨⟨1, 1⟩, none⟩))

private theorem scalarText?_eq_iff {type : ScalarType} (exact : type.isExact = true)
    {value value' : Value}
    (typed : value.HasType type) (typed' : value'.HasType type) :
    value.scalarText? = value'.scalarText? ↔ value.equal value' = true := by
  constructor
  · intro same
    rw [eq_of_scalarText?_eq exact typed typed' same]
    exact equal_self_of_hasType exact typed'
  · intro equal
    have same := Value.equal_iff.1 equal
    cases isExact_of_hasType exact typed <;> cases same <;> rfl

/-! ### Sets -/

theorem ItemsRead.hasType {context : Context} {field : TaggedField} {type : ScalarType}
    {elements : List (Tag × Content)} {items : List (Tag × Value)}
    (read : ItemsRead context field type elements items) {item : Tag × Value}
    (member : item ∈ keptItems .set items) : item.2.HasType type := by
  obtain ⟨_, _, scalarEq⟩ := read.exists_read (mem_keptItems member)
  exact scalar_hasType scalarEq

private theorem membersPlaced_of_found {context : Context} {layout : Layout} {start : Start}
    {entity : Entity}
    {field : TaggedField} {type : ScalarType} {wrapped : Bool} {session : Session}
    (exact : type.isExact = true)
    (found : ItemsFound context entity.id field .set type wrapped
      (childrenOf layout field start.inside) (entity.get? field.name) session) :
    ∃ items, MembersPlaced context layout start entity field type wrapped session.locations items := by
  obtain ⟨items, read, has, valueEq⟩ := found
  have told : Collection.set = .list ∨ ∀ precision, type ≠ .floating precision := by
    refine .inr ?_
    rintro precision rfl
    cases exact
  refine ⟨items, read, valueEq, ?_, ?_⟩
  · intro item member
    obtain ⟨text, textEq⟩ := exists_scalarText exact (read.hasType member)
    obtain ⟨position, itemFound⟩ := List.getElem?_of_mem member
    refine ⟨text, textEq, ?_⟩
    rw [has, ← itemKey_set_of_text textEq position,
      lookup_itemEntries itemFound (lastOfKey read told itemFound)]
  · refine (keptItems_set_pairwise items).imp_of_mem ?_
    intro item item' member member' unequal same
    rw [(scalarText?_eq_iff exact (read.hasType member) (read.hasType member')).1 same] at unequal
    cases unequal

/-- A scalar of an exact type is read back from its text, so that its text tells it from all others of
the type, and from the members of a set as well: looking one up by its text gives the place of its
element.  For sets this takes a field whose name no other field of the class has. -/
theorem scalar_texts_tell_members :
    (∀ (field : Field) (type : ScalarType) (value : Value), field.trims = false →
      type.isExact = true → value.HasType type →
        ∃ text, value.scalarText? = some text ∧
          ∀ strict location, coerce strict field type text location = .ok value) ∧
    (∀ (type : ScalarType) (value value' : Value), type.isExact = true → value.HasType type →
      value'.HasType type → (value.scalarText? = value'.scalarText? ↔ value.equal value' = true)) ∧
    ∀ (reader : Reader) (className document : String) (source : Option Source) (graph : ObjectGraph)
      (map : LocationMap), reader.readAs className document source = .ok graph →
      graph.locations = some map →
      let context : Context :=
        ⟨reader.schema, reader.options.strict, if reader.schema.tracksSources then source else none⟩
      ∃ tag inside, Document.parse reader.options.extended document = .rooted tag inside ∧
        ∀ entity, graph.root.Reaches entity → ∃ start layout,
          (Start.all reader.schema ⟨className, tag, inside⟩)[entity.id.value]? = some start ∧
          start.IsReadAs context entity ∧ reader.schema.layout? entity.className = some layout ∧
          ∀ field ∈ layout.fields, layout.Sole field → ∀ type wrapped, type.isExact = true →
            field.declared.kind = .many .set (.scalar type) wrapped →
              ∃ items, MembersPlaced context layout start entity field type wrapped map items := by
  refine ⟨fun _ _ _ keeps exact typed => coerce_scalarText keeps exact typed,
    fun _ _ _ exact typed typed' => scalarText?_eq_iff exact typed typed', ?_⟩
  intro reader className document source graph map reads tracked context
  obtain ⟨tag, inside, session, documentEq, entityEq, locationsEq⟩ := readDocument_eq_ok reads
  have mapEq : session.locations = map :=
    Option.some.inj (Option.ite_none_right_eq_some.1 (locationsEq.symm.trans tracked)).2
  refine ⟨tag, inside, documentEq, ?_⟩
  intro entity reaches
  have numbered := root_numbered entityEq
  obtain ⟨start, isStart, before, after, nextEq, fresh, readEq, _, same⟩ :=
    (numbered.settled entity (Trellis.Graph.Entity.mem_all_iff.2 reaches)).read
  obtain ⟨layout, layoutEq, classEq, found, _⟩ := readEntity_found_of_sole readEq fresh
  refine ⟨start, layout, isStart, ⟨before, after, nextEq, readEq⟩, classEq ▸ layoutEq, ?_⟩
  intro field _ sole type wrapped exact kindEq
  rw [← mapEq]
  exact membersPlaced_of_found exact
    ((entriesFound_items_iff kindEq).1 ((found field sole).same (same field.name)).entries)

def chest : Declarations where
  classes := [
    { name := "Chest"
      fields := [
        { name := "things", kind := .many .set (.scalar .text) true },
        { name := "things", kind := .many .list (.scalar .text) false, itemTag := some "extra" }] },
    { name := "Place" }]
  roots := ["Chest"]
  locationTracker := some "Place"

private theorem eq_map_text {items : List Value} {contents : List String}
    (same : List.Forall₂ (fun item content => item.equal (.text content) = true) items contents) :
    items = contents.map .text := by
  induction same with
  | nil => rfl
  | cons first _ ih =>
      cases Value.equal_iff.1 first
      rw [List.map_cons, ih]

private theorem eq_of_equal_texts {held : Value} {kind : Collection} {contents : List String}
    (same : held.equal (.collection kind (contents.map .text)) = true) :
    held = .collection kind (contents.map .text) := by
  cases Value.equal_iff.1 same with
  | collection same => rw [eq_map_text (List.forall₂_map_right_iff.1 same)]

/-- What is read for the list of a chest becomes a member of the set, but its text has no place. -/
theorem member_without_place :
    let document := "<chest><things><thing>p</thing></things><extra>q</extra></chest>"
    ∃ schema graph map items, chest.build = .ok schema ∧
      (Reader.mk schema {}).readAs "Chest" document none = .ok graph ∧ graph.locations = some map ∧
      graph.root.get? "things" = some (.collection .set items) ∧
      (∀ item ∈ items, item.HasType .text) ∧
      ∃ item ∈ items, ∃ text, item.scalarText? = some text ∧
        map.entryPlace? graph.root.id "things" (.member text) = none := by
  intro document
  have passes : chest.build.toOption.any (fun schema =>
      ((Reader.mk schema {}).readAs "Chest" document none).toOption.any fun graph =>
        graph.locations.any fun map =>
          (graph.root.get? "things").any (·.equal (.collection .set [.text "p", .text "q"])) ∧
            map.entryPlace? graph.root.id "things" (.member "q") = none) = true := by
    decide +kernel
  obtain ⟨schema, built, passes⟩ := Schema.exists_built passes
  simp only [Option.any_eq_true, decide_eq_true_eq] at passes
  obtain ⟨graph, found, map, mapEq, ⟨held, heldEq, same⟩, unplaced⟩ := passes
  rw [@eq_of_equal_texts held .set ["p", "q"] same] at heldEq
  refine ⟨schema, graph, map, _, built, eq_ok_of_toOption found, mapEq, heldEq, ?_, .text "q", ?_, "q",
    rfl, unplaced⟩
  · intro item member
    obtain ⟨content, _, rfl⟩ := List.mem_map.1 member
    trivial
  · exact List.mem_cons_of_mem _ List.mem_cons_self

def till : Declarations where
  classes := [
    { name := "Till", fields := [{ name := "coins", kind := .many .set (.scalar (.integer .short)) true }] },
    { name := "Place" }]
  roots := ["Till"]
  locationTracker := some "Place"

/-- Of two coins with the number seven a till has the first one, under the text of the number. -/
theorem scalar_texts_tell_members_of_till :
    let document := "<till><coins><coin>-7</coin><coin>+7</coin><coin>07</coin></coins></till>"
    let plain : Field := { name := "coins", kind := .scalar .character, trims := false, default := some "x" }
    coerce true plain .character " " ⟨⟨1, 1⟩, none⟩ = .ok (.character ' ') ∧
    (Value.text "a").scalarText? ≠ (Value.text "A").scalarText? ∧
    ∃ schema graph map, till.build = .ok schema ∧
      (Reader.mk schema {}).readAs "Till" document none = .ok graph ∧ graph.locations = some map ∧
      map.entryPlace? ⟨0⟩ "coins" (.member "7") = some ⟨⟨1, 29⟩, none⟩ ∧
      ∃ start layout field items, field.name = "coins" ∧
        MembersPlaced ⟨schema, true, none⟩ layout start graph.root field (.integer .short) true map
          items := by
  intro document plain
  obtain ⟨reads, tells, placed⟩ := scalar_texts_tell_members
  refine ⟨?_, ?_, ?_⟩
  · obtain ⟨text, textEq, readsBack⟩ := reads plain .character (.character ' ') rfl rfl trivial
    cases textEq
    exact readsBack true _
  · intro same
    have equal := (tells .text (.text "a") (.text "A") rfl trivial trivial).1 same
    exact absurd equal (by decide)
  · have passes : till.build.toOption.any (fun schema =>
        ((Reader.mk schema {}).readAs "Till" document none).toOption.any fun graph =>
          graph.root.className = "Till" ∧
          (graph.locations.any fun map =>
            map.entryPlace? ⟨0⟩ "coins" (.member "7") = some ⟨⟨1, 29⟩, none⟩) ∧
          (schema.layout? "Till").any fun layout => layout.fields.any fun field =>
            field.name = "coins" ∧ layout.Sole field ∧
              field.declared.kind = .many .set (.scalar (.integer .short)) true) = true := by
      decide +kernel
    obtain ⟨schema, built, passes⟩ := Schema.exists_built passes
    simp only [Option.any_eq_true, List.any_eq_true, decide_eq_true_eq] at passes
    obtain ⟨graph, found, classEq, ⟨map, mapEq, placeEq⟩, layout, layoutEq, field, member, nameEq, sole,
      kindEq⟩ := passes
    have graphEq := eq_ok_of_toOption found
    have rooted := placed (Reader.mk schema {}) "Till" document none graph map graphEq mapEq
    simp only [ite_self] at rooted
    obtain ⟨tag, inside, _, entities⟩ := rooted
    obtain ⟨start, layout', _, _, layoutEq', members⟩ := entities graph.root (.self _)
    rw [classEq, layoutEq] at layoutEq'
    cases layoutEq'
    obtain ⟨items, isPlaced⟩ := members field member sole (.integer .short) true rfl kindEq
    exact ⟨schema, graph, map, built, graphEq, mapEq, placeEq, start, layout, field, items, nameEq,
      isPlaced⟩

end Trellis.Reading
