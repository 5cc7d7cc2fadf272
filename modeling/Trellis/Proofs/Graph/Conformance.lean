import Trellis.Proofs.Graph.Equality
import Trellis.Reading.Coercion
import Trellis.Schema

/-!
Entities that conform to a schema.

An entity conforms if its class is declared and can have instances, if it binds fields of the class
only, and if every value is of the kind that its field declares.  What conforms is one entity; all
entities in a value conform if it is sound.
-/

namespace Trellis.Graph

open Schema (Collection FieldKind ItemType Layout ResolvedClass ScalarType TaggedField)

/-! ### Values of a kind -/

def Value.HasType : ScalarType → Value → Prop
  | .boolean, .boolean _ => True
  | .character, .character _ => True
  | .integer width, .integer number => number.width = width
  | .floating precision, .floating precision' _ => precision' = precision
  | .text, .text _ => True
  | .date, .date _ => True
  | .tree, .tree _ => True
  | _, _ => False

def Value.IsItem : ItemType → Value → Prop
  | .entity target, .entity inner => inner.className = target
  | .scalar type, value => value.HasType type
  | _, _ => False

/-- No two items are equal, whichever of them comes first. -/
def Unequal (items : List Value) : Prop :=
  items.Pairwise fun item item' => item.equal item' = false ∧ item'.equal item = false

inductive Value.IsCollection (collection : Collection) (type : ItemType) : Value → Prop
  | mk {items : List Value} (areItems : ∀ item ∈ items, item.IsItem type)
      (unequal : collection = .set → Unequal items) :
      IsCollection collection type (.collection collection items)

def Value.Fits : FieldKind → Value → Prop
  | .scalar type, value => value.HasType type
  | .one target, .entity inner => inner.className = target
  | .many kind type _, value => value.IsCollection kind type
  | .map _, .map entries => OrderedMap.DistinctKeys entries
  | _, _ => False

/-! ### Entities inside -/

inductive Value.Holds : Value → Entity → Prop
  | entity (inner : Entity) : Holds (.entity inner) inner
  | item {kind : Collection} {items : List Value} {item : Value} {inner : Entity} (member : item ∈ items)
      (holds : Holds item inner) : Holds (.collection kind items) inner

/-- The entity is the first one or stands somewhere in its fields, at any depth. -/
inductive Entity.Reaches : Entity → Entity → Prop
  | self (entity : Entity) : Reaches entity entity
  | field {entity inner target : Entity} {name : String} {value : Value}
      (bound : (name, value) ∈ entity.fields) (holds : value.Holds inner)
      (reaches : Reaches inner target) : Reaches entity target

def Value.Sound (property : Entity → Prop) (value : Value) : Prop :=
  ∀ inner, value.Holds inner → ∀ target, inner.Reaches target → property target

theorem Value.Sound.of_scalar {property : Entity → Prop} {value : Value} {type : ScalarType}
    (typed : value.HasType type) : value.Sound property := by
  intro inner holds
  cases holds with
  | entity inner => cases type <;> exact typed.elim
  | item member _ => cases type <;> exact typed.elim

theorem Value.Sound.entity {property : Entity → Prop} {inner : Entity}
    (sound : ∀ target, inner.Reaches target → property target) :
    (Value.entity inner).Sound property := by
  intro held holds
  cases holds
  exact sound

theorem Value.Sound.map {property : Entity → Prop} {entries : List (String × String)} :
    (Value.map entries).Sound property := by
  intro held holds
  cases holds

theorem Value.Sound.collection {property : Entity → Prop} {kind : Collection} {items : List Value}
    (sound : ∀ item ∈ items, item.Sound property) :
    (Value.collection kind items).Sound property := by
  intro inner holds
  cases holds with
  | item member holds => exact sound _ member inner holds

theorem Entity.reaches_of_sound {property : Entity → Prop} {entity : Entity}
    (here : property entity)
    (sound : ∀ name value, (name, value) ∈ entity.fields → value.Sound property) :
    ∀ target, entity.Reaches target → property target := by
  intro target reaches
  cases reaches with
  | self => exact here
  | field bound holds inner => exact sound _ _ bound _ holds target inner

/-! ### Conformance -/

def IsDefault (declared : Schema.Field) (value : Value) : Prop :=
  ∃ text type location, declared.default = some text ∧ declared.scalarType? = some type ∧
    Reading.coerce false declared type text location = .ok value

/-- The entity is an instance of the class and binds its fields as their kinds ask for. -/
structure Entity.IsInstance (schema : Schema) (resolved : ResolvedClass) (entity : Entity) :
    Prop where
  declared : schema.find? entity.className = some resolved
  concrete : resolved.declared.isAbstract = false
  distinct : OrderedMap.DistinctKeys entity.fields
  known : ∀ name ∈ OrderedMap.keys entity.fields, ∃ field ∈ resolved.layout.fields, field.name = name
  fits : ∀ field ∈ resolved.layout.fields, ∀ value, entity.get? field.name = some value →
    value.Fits field.declared.kind
  /-- Beside a content field, element fields have nothing but their defaults. -/
  defaults : resolved.layout.contentField?.isSome → ∀ field ∈ resolved.layout.elementFields,
    ∀ value, entity.get? field.name = some value → IsDefault field.declared value

def Entity.Conforms (schema : Schema) (entity : Entity) : Prop :=
  ∃ resolved, entity.IsInstance schema resolved

/-! ### Lists and sets that grow -/

theorem Value.IsCollection.empty (collection : Collection) (type : ItemType) :
    (Value.collection collection []).IsCollection collection type := by
  refine .mk ?_ ?_
  · intro item member
    cases member
  · intro _
    exact .nil

theorem Value.IsCollection.push {collection : Collection} {type : ItemType} {holder value : Value}
    (holds : holder.IsCollection collection type) (isItem : value.IsItem type) :
    (holder.push value).1.IsCollection collection type := by
  obtain ⟨areItems, unequal⟩ := holds
  rename_i items
  have allItems : ∀ item ∈ items ++ [value], item.IsItem type := by
    intro item member
    rcases List.mem_append.1 member with known | added
    · exact areItems item known
    · rw [List.mem_singleton.1 added]
      exact isItem
  cases collection with
  | list => exact .mk allItems (fun impossible => by cases impossible)
  | set =>
      simp only [Value.push]
      split
      · exact .mk areItems unequal
      · rename_i absent
        refine .mk allItems ?_
        intro _
        refine List.pairwise_append.2 ⟨unequal rfl, List.pairwise_singleton _ _, ?_⟩
        intro item known other added
        rw [List.mem_singleton.1 added]
        have differs : item.equal value = false := by
          rw [Bool.not_eq_true, List.any_eq_false] at absent
          exact Bool.eq_false_iff.2 (absent item known)
        refine ⟨differs, ?_⟩
        rw [Bool.eq_false_iff]
        intro same
        rw [Value.equal_symm same] at differs
        cases differs

theorem Value.Sound.push {property : Entity → Prop} {holder value : Value}
    (holderSound : holder.Sound property) (sound : value.Sound property) :
    (holder.push value).1.Sound property := by
  obtain _ | _ | _ | _ | _ | _ | _ | _ | ⟨kind, items⟩ | _ := holder
  case collection =>
    have itemsSound : ∀ item ∈ items ++ [value], item.Sound property := by
      intro item member inner holds
      rcases List.mem_append.1 member with known | added
      · exact holderSound inner (.item known holds)
      · rw [List.mem_singleton.1 added] at holds
        exact sound inner holds
    cases kind with
    | list => exact .collection itemsSound
    | set =>
        simp only [Value.push]
        split
        · exact holderSound
        · exact .collection itemsSound
  all_goals exact holderSound

end Trellis.Graph
