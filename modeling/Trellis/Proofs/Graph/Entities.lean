import Mathlib.Data.List.Perm.Subperm
import Trellis.Proofs.Graph.Conformance

/-!
The entities of a graph in a row.

An entity comes before those inside it, and those of one field before those of the next.  Setting a
field puts the entities of a value in the place of those that it replaces.
-/

namespace Trellis.Graph

open Schema (Collection)

mutual

def Value.entities : Value → List Entity
  | .entity inner => inner :: inner.inside
  | .collection _ items => Value.entitiesAmong items
  | _ => []
termination_by structural value => value

def Entity.inside : Entity → List Entity
  | .mk _ _ fields => Value.entitiesUnder fields
termination_by structural entity => entity

def Value.entitiesAmong : List Value → List Entity
  | [] => []
  | value :: rest => value.entities ++ Value.entitiesAmong rest
termination_by structural values => values

def Value.entitiesUnder : List (String × Value) → List Entity
  | [] => []
  | (_, value) :: rest => value.entities ++ Value.entitiesUnder rest
termination_by structural fields => fields

end

def Entity.all (entity : Entity) : List Entity :=
  entity :: entity.inside

theorem Value.entitiesAmong_eq (items : List Value) :
    Value.entitiesAmong items = items.flatMap Value.entities := by
  induction items with
  | nil => rfl
  | cons value rest ih => rw [Value.entitiesAmong, List.flatMap_cons, ih]

theorem Value.entitiesUnder_eq (fields : List (String × Value)) :
    Value.entitiesUnder fields = fields.flatMap (·.2.entities) := by
  induction fields with
  | nil => rfl
  | cons entry rest ih => rw [Value.entitiesUnder, List.flatMap_cons, ih]

theorem Value.entities_collection (collection : Collection) (items : List Value) :
    (Value.collection collection items).entities = items.flatMap Value.entities := by
  rw [Value.entities, Value.entitiesAmong_eq]

theorem Entity.inside_eq (entity : Entity) : entity.inside = entity.fields.flatMap (·.2.entities) := by
  cases entity with
  | mk id className fields => rw [Entity.inside, Value.entitiesUnder_eq]; rfl

private theorem reaches_of_mem (target : Entity) :
    Steps (fun value => target ∈ value.entities → ∃ inner, value.Holds inner ∧ inner.Reaches target)
      (fun entity => target ∈ entity.inside → entity.Reaches target) where
  boolean _ := nofun
  character _ := nofun
  integer _ := nofun
  floating _ _ := nofun
  text _ := nofun
  date _ := nofun
  tree _ := nofun
  map _ := nofun
  entity inner ih member := by
    refine ⟨inner, .entity inner, ?_⟩
    rcases List.mem_cons.1 member with same | within
    · exact same ▸ .self inner
    · exact ih within
  collection kind items ih member := by
    rw [Value.entities_collection] at member
    obtain ⟨item, itemMember, within⟩ := List.mem_flatMap.1 member
    obtain ⟨inner, holds, reaches⟩ := ih item itemMember within
    exact ⟨inner, .item itemMember holds, reaches⟩
  fields id className fields ih member := by
    rw [Entity.inside_eq] at member
    obtain ⟨entry, bound, within⟩ := List.mem_flatMap.1 member
    obtain ⟨inner, holds, reaches⟩ := ih entry bound within
    exact .field bound holds reaches

theorem Value.Holds.all_subset {value : Value} {inner : Entity} (holds : value.Holds inner) :
    inner.all ⊆ value.entities := by
  induction holds with
  | entity inner => exact List.Subset.refl _
  | @item kind items item inner member _ ih =>
      rw [Value.entities_collection]
      exact fun target within => List.mem_flatMap.2 ⟨item, member, ih within⟩

/-- The entity and those inside it are those that it reaches. -/
theorem Entity.mem_all_iff {entity target : Entity} :
    target ∈ entity.all ↔ entity.Reaches target := by
  constructor
  · intro member
    rcases List.mem_cons.1 member with same | within
    · exact same ▸ .self entity
    · exact (reaches_of_mem target).ofEntity entity within
  · intro reaches
    induction reaches with
    | self entity => exact List.mem_cons_self
    | @field entity inner target name value bound holds _ ih =>
        refine List.mem_cons_of_mem _ ?_
        rw [Entity.inside_eq]
        exact List.mem_flatMap.2 ⟨(name, value), bound, holds.all_subset ih⟩

theorem Value.entities_of_hasType {type : Schema.ScalarType} {value : Value}
    (typed : value.HasType type) : value.entities = [] := by
  cases value with
  | entity inner => cases type <;> exact typed.elim
  | collection kind items => cases type <;> exact typed.elim
  | _ => rfl

theorem Value.entities_push (holder item : Value) :
    (holder.push item).1.entities = holder.entities ∨
      (holder.push item).1.entities = holder.entities ++ item.entities := by
  cases holder with
  | collection kind items =>
      have added : (Value.collection kind (items ++ [item])).entities =
          (Value.collection kind items).entities ++ item.entities := by
        simp only [Value.entities_collection, List.flatMap_append, List.flatMap_cons,
          List.flatMap_nil, List.append_nil]
      cases kind with
      | list => exact .inr added
      | set =>
          simp only [Value.push]
          split
          · exact .inl rfl
          · exact .inr added
  | _ => exact .inl rfl

/-- If a value has no entities but new ones beside those of the value that it replaces, the fields
have no entities but new ones beside those that they had. -/
theorem entitiesUnder_set {fields : OrderedMap String Value} {name : String} {value : Value}
    {added : List Entity}
    (among : List.Subperm value.entities ((fields.get? name).elim [] Value.entities ++ added)) :
    List.Subperm (Value.entitiesUnder (fields.set name value)) (Value.entitiesUnder fields ++ added) := by
  induction fields with
  | nil =>
      simp only [OrderedMap.set, Value.entitiesUnder, List.append_nil, List.nil_append]
      exact among
  | cons entry rest ih =>
      obtain ⟨key, old⟩ := entry
      rw [OrderedMap.get?_cons] at among
      by_cases same : key = name
      · simp only [OrderedMap.set, same, if_true, Value.entitiesUnder] at among ⊢
        have swapped : List.Perm (old.entities ++ added ++ Value.entitiesUnder rest)
            (old.entities ++ Value.entitiesUnder rest ++ added) := by
          rw [List.append_assoc, List.append_assoc]
          exact List.Perm.append_left _ List.perm_append_comm
        exact ((List.subperm_append_right _).2 among).trans swapped.subperm
      · simp only [OrderedMap.set, same, if_false, Value.entitiesUnder] at among ⊢
        rw [List.append_assoc]
        exact (List.subperm_append_left _).2 (ih among)

/-! ### Lists and sets in order -/

/-- The entities among the items of a list or set have greater and greater identities. -/
def Value.Rising : Value → Prop
  | .collection _ items =>
      (items.filterMap Value.entity?).Pairwise fun earlier later => earlier.id.value < later.id.value
  | _ => True

theorem Value.Rising.of_hasType {type : Schema.ScalarType} {value : Value}
    (typed : value.HasType type) : value.Rising := by
  cases value with
  | collection kind items => cases type <;> exact typed.elim
  | _ => trivial

theorem Value.mem_entities_of_entity? {value : Value} {inner : Entity}
    (isEntity : value.entity? = some inner) : inner ∈ value.entities := by
  cases value with
  | entity other =>
      cases isEntity
      exact List.mem_cons_self
  | _ => cases isEntity

theorem Value.Rising.push {holder item : Value} {middle : Nat} (rising : holder.Rising)
    (before : ∀ entity ∈ holder.entities, entity.id.value < middle)
    (later : ∀ entity ∈ item.entities, middle ≤ entity.id.value) :
    (holder.push item).1.Rising := by
  cases holder with
  | collection kind items =>
      have added : (Value.collection kind (items ++ [item])).Rising := by
        simp only [Value.Rising, List.filterMap_append] at rising ⊢
        refine List.pairwise_append.2 ⟨rising, ?_, ?_⟩
        · cases isEntity : item.entity? <;> simp [isEntity]
        · intro entity member other otherMember
          obtain ⟨known, knownMember, isEntity⟩ := List.mem_filterMap.1 member
          obtain ⟨new, newMember, isOther⟩ := List.mem_filterMap.1 otherMember
          rw [List.mem_singleton.1 newMember] at isOther
          have within : entity ∈ (Value.collection kind items).entities := by
            rw [Value.entities_collection]
            exact List.mem_flatMap.2 ⟨known, knownMember, Value.mem_entities_of_entity? isEntity⟩
          exact Nat.lt_of_lt_of_le (before entity within)
            (later other (Value.mem_entities_of_entity? isOther))
      cases kind with
      | list => exact added
      | set =>
          simp only [Value.push]
          split
          · exact rising
          · exact added
  | _ => exact rising

end Trellis.Graph
