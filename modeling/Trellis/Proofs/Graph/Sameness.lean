import Mathlib.Data.List.Zip
import Trellis.Proofs.Graph.Equality

/-!
Values that differ in what equality does not look at.

Entities may have other identities and keep their fields in another order, at every depth, and trees
may have their attributes in another order.  Everything else is the same, numbers that are no numbers
among it, so nothing that equality finds out about one of two such values differs for the other.
-/

namespace Trellis.Graph

open Schema (Collection)

/-! ### Values -/

/-- The values differ at most in identities, and in the orders of fields and of attributes of
trees. -/
inductive Value.Same : Value → Value → Prop
  | refl (value : Value) : Same value value
  | tree {root root' : Tree} (same : root.equal root' = true) : Same (.tree root) (.tree root')
  | entity {id id' : EntityId} {className : String} {fields fields' : OrderedMap String Value}
      (names : ∀ name, fields.contains name = fields'.contains name)
      (bound : ∀ name value value', fields.get? name = some value → fields'.get? name = some value' →
        Same value value') :
      Same (.entity (.mk id className fields)) (.entity (.mk id' className fields'))
  | collection {kind : Collection} {items items' : List Value} (lengths : items.length = items'.length)
      (members : ∀ pair ∈ items.zip items', Same pair.1 pair.2) :
      Same (.collection kind items) (.collection kind items')

def FieldsSame (fields fields' : OrderedMap String Value) : Prop :=
  ∀ name, Option.Rel Value.Same (fields.get? name) (fields'.get? name)

structure Entity.Same (entity entity' : Entity) : Prop where
  className_eq : entity.className = entity'.className
  fields : FieldsSame entity.fields entity'.fields

theorem rel_iff_of_bound {α : Type} {relation : α → α → Prop} {bound bound' : Option α} :
    Option.Rel relation bound bound' ↔ bound.isSome = bound'.isSome ∧
      ∀ value value', bound = some value → bound' = some value' → relation value value' := by
  cases bound <;> cases bound' <;> simp

private theorem fieldsSame_iff {fields fields' : OrderedMap String Value} :
    FieldsSame fields fields' ↔ (∀ name, fields.contains name = fields'.contains name) ∧
      ∀ name value value', fields.get? name = some value → fields'.get? name = some value' →
        value.Same value' := by
  unfold FieldsSame OrderedMap.contains
  simp only [rel_iff_of_bound, forall_and]

theorem FieldsSame.refl (fields : OrderedMap String Value) : FieldsSame fields fields := by
  intro name
  cases fields.get? name with
  | none => exact .none
  | some value => exact .some (.refl value)

theorem FieldsSame.set {fields fields' : OrderedMap String Value} (same : FieldsSame fields fields')
    (name : String) {value value' : Value} (valueSame : value.Same value') :
    FieldsSame (fields.set name value) (fields'.set name value') := by
  intro other
  rw [OrderedMap.get?_set, OrderedMap.get?_set]
  split
  · exact .some valueSame
  · exact same other

theorem Entity.Same.refl (entity : Entity) : entity.Same entity :=
  ⟨rfl, .refl _⟩

theorem Value.same_entity_iff {entity : Entity} {other : Value} :
    (Value.entity entity).Same other ↔ ∃ entity', other = .entity entity' ∧ entity.Same entity' := by
  obtain ⟨id, className, fields⟩ := entity
  constructor
  · intro same
    cases same with
    | refl => exact ⟨_, rfl, .refl _⟩
    | entity names bound => exact ⟨_, rfl, rfl, fieldsSame_iff.2 ⟨names, bound⟩⟩
  · rintro ⟨⟨id', className', fields'⟩, rfl, sameClass, sameFields⟩
    cases sameClass
    obtain ⟨names, bound⟩ := fieldsSame_iff.1 sameFields
    exact .entity names bound

theorem Value.same_collection_iff {kind : Collection} {items : List Value} {other : Value} :
    (Value.collection kind items).Same other ↔
      ∃ items', other = .collection kind items' ∧ List.Forall₂ Value.Same items items' := by
  constructor
  · intro same
    cases same with
    | refl => exact ⟨items, rfl, List.forall₂_same.2 fun item _ => .refl item⟩
    | collection lengths members =>
        refine ⟨_, rfl, List.forall₂_iff_zip.2 ⟨lengths, ?_⟩⟩
        intro item item' member
        exact members (item, item') member
  · rintro ⟨items', rfl, each⟩
    obtain ⟨lengths, members⟩ := List.forall₂_iff_zip.1 each
    exact .collection lengths fun pair member => members member

/-- What the items of one row carry over to those of another, they carry over as rows. -/
private theorem forall₂_carry {α : Type} {relation relation' : α → α → Prop}
    {left middle right : List α}
    (carries : List.Forall₂ (fun item item' => ∀ other, relation item other → relation' item' other)
      left middle)
    (related : List.Forall₂ relation left right) : List.Forall₂ relation' middle right := by
  induction carries generalizing right with
  | nil =>
      cases related
      exact .nil
  | cons first _ ih =>
      cases related with
      | cons head tail => exact .cons (first _ head) (ih tail)

theorem Value.Same.symm {value value' : Value} (same : value.Same value') : value'.Same value := by
  induction same with
  | refl value => exact .refl value
  | tree same => exact .tree (Tree.equal_symm _ _ same)
  | entity names bound ih =>
      exact .entity (fun name => (names name).symm)
        fun name value' value found' found => ih name value value' found found'
  | @collection kind items items' lengths members ih =>
      apply Value.Same.collection lengths.symm
      intro pair member
      have swapped : pair.swap ∈ items.zip items' := by
        rw [← List.zip_swap]
        exact List.mem_map_of_mem member
      exact ih pair.swap swapped

theorem Value.Same.trans {value value' value'' : Value} (first : value.Same value')
    (second : value'.Same value'') : value.Same value'' := by
  induction first generalizing value'' with
  | refl value => exact second
  | @tree root root' first =>
      cases second with
      | refl => exact .tree first
      | tree second => exact .tree (root.equal_trans _ _ first second)
  | @entity id id' className fields fields' names bound ih =>
      obtain ⟨⟨id'', className'', fields''⟩, rfl, sameClass, sameFields⟩ := same_entity_iff.1 second
      cases sameClass
      obtain ⟨names', bound'⟩ := fieldsSame_iff.1 sameFields
      apply Value.Same.entity fun name => (names name).trans (names' name)
      intro name value value'' found found''
      have present : OrderedMap.contains fields' name = true := by
        rw [← names name, OrderedMap.contains, found]
        rfl
      obtain ⟨value', found'⟩ := Option.isSome_iff_exists.1 present
      exact ih name value value' found found' (bound' name value' value'' found' found'')
  | @collection kind items items' lengths members ih =>
      obtain ⟨items'', rfl, each⟩ := same_collection_iff.1 second
      rw [same_collection_iff]
      refine ⟨items'', rfl, ?_⟩
      have carries : List.Forall₂ (fun item item' : Value => ∀ item'' : Value, item'.Same item'' →
          item.Same item'') items items' :=
        List.forall₂_iff_zip.2 ⟨lengths, fun member item'' => ih _ member⟩
      exact forall₂_carry carries.flip each

theorem FieldsSame.trans {fields fields' fields'' : OrderedMap String Value}
    (first : FieldsSame fields fields') (second : FieldsSame fields' fields'') :
    FieldsSame fields fields'' := by
  intro name
  have here := first name
  have there := second name
  generalize fields.get? name = bound at here ⊢
  generalize fields'.get? name = bound' at here there
  generalize fields''.get? name = bound'' at there ⊢
  cases here with
  | none => exact there
  | some same =>
      cases there with
      | some same' => exact .some (same.trans same')

theorem Entity.Same.trans {entity entity' entity'' : Entity} (first : entity.Same entity')
    (second : entity'.Same entity'') : entity.Same entity'' :=
  ⟨first.className_eq.trans second.className_eq, first.fields.trans second.fields⟩

/-! ### Equality does not tell them apart -/

/-- Whatever is equal to one of the values is equal to the other. -/
def Value.Indistinct (value value' : Value) : Prop :=
  ∀ other, value.equal other = value'.equal other

private theorem sameBinding_congr {bound bound' : Option Value}
    (both : Option.Rel Value.Indistinct bound bound') (other : Option Value) :
    SameBinding bound other ↔ SameBinding bound' other := by
  cases both with
  | none => exact Iff.rfl
  | some indistinct =>
      cases other with
      | none => exact Iff.rfl
      | some other => rw [SameBinding, SameBinding, indistinct other]

theorem Entity.equal_congr {entity entity' : Entity} (sameClass : entity.className = entity'.className)
    (bindings : ∀ name, Option.Rel Value.Indistinct (entity.get? name) (entity'.get? name)) :
    (Value.entity entity).Indistinct (.entity entity') := by
  intro other
  cases other with
  | entity other =>
      rw [Bool.eq_iff_iff, Value.equal, Value.equal, Entity.equal_iff, Entity.equal_iff, sameClass]
      exact and_congr_right fun _ => forall_congr' fun name => sameBinding_congr (bindings name) _
  | _ => rfl

theorem Value.collection_congr (kind : Collection) {items items' : List Value}
    (each : List.Forall₂ Value.Indistinct items items') :
    (Value.collection kind items).Indistinct (.collection kind items') := by
  have rows (others : List Value) : Value.allEqual items others = Value.allEqual items' others := by
    induction each generalizing others with
    | nil => rfl
    | cons first _ ih =>
        cases others with
        | nil => rfl
        | cons other rest => rw [Value.allEqual, Value.allEqual, first other, ih rest]
  intro other
  cases other with
  | collection kind' others => rw [Value.equal, Value.equal, rows]
  | _ => rfl

theorem Tree.equal_congr {tree tree' : Tree} (equal : tree.equal tree' = true) :
    (Value.tree tree).Indistinct (.tree tree') := by
  intro other
  cases other with
  | tree other =>
      rw [Bool.eq_iff_iff, Value.equal, Value.equal]
      exact ⟨tree'.equal_trans _ _ (tree.equal_symm _ equal), tree.equal_trans _ _ equal⟩
  | _ => rfl

theorem Value.Same.indistinct {value value' : Value} (same : value.Same value') :
    value.Indistinct value' := by
  induction same with
  | refl value =>
      intro other
      rfl
  | tree same => exact Tree.equal_congr same
  | entity names _ ih => exact Entity.equal_congr rfl fun name => rel_iff_of_bound.2 ⟨names name, ih name⟩
  | collection lengths _ ih =>
      exact Value.collection_congr _ (List.forall₂_iff_zip.2 ⟨lengths, fun member => ih _ member⟩)

theorem Value.Indistinct.equal_eq {value value' other other' : Value} (first : value.Indistinct value')
    (second : other.Indistinct other') : value.equal other = value'.equal other' := by
  rw [first other, Value.equal_comm, second value', Value.equal_comm]

theorem Value.Same.equal_eq {value value' other other' : Value} (same : value.Same value')
    (sameOther : other.Same other') : value.equal other = value'.equal other' :=
  same.indistinct.equal_eq sameOther.indistinct

/-- Of entities that are the same, each is equal to the other as it is to itself: they are equal
unless there is a number in them that is none. -/
theorem Entity.Same.equal_eq {entity entity' : Entity} (same : entity.Same entity') :
    entity'.equal entity = entity.equal entity := by
  have values := Value.same_entity_iff.2 ⟨entity', rfl, same⟩
  have equal := values.symm.equal_eq (.refl (.entity entity))
  rwa [Value.equal, Value.equal] at equal

/-! ### Lists and sets that grow -/

theorem any_equal_eq {items items' : List Value} (same : List.Forall₂ Value.Same items items')
    {value value' : Value} (valueSame : value.Same value') :
    items.any (·.equal value) = items'.any (·.equal value') := by
  induction same with
  | nil => rfl
  | cons first _ ih => rw [List.any_cons, List.any_cons, ih, first.equal_eq valueSame]

theorem Value.Same.push {holder holder' value value' : Value} (same : holder.Same holder')
    (valueSame : value.Same value') :
    (holder.push value).1.Same (holder'.push value').1 ∧
      (holder.push value).2 = (holder'.push value').2 := by
  cases holder with
  | collection kind items =>
      obtain ⟨items', rfl, each⟩ := same_collection_iff.1 same
      have grown : (Value.collection kind (items ++ [value])).Same
          (.collection kind (items' ++ [value'])) :=
        same_collection_iff.2 ⟨_, rfl, List.rel_append each (.cons valueSame .nil)⟩
      cases kind with
      | list => exact ⟨grown, congrArg some each.length_eq⟩
      | set =>
          simp only [Value.push, any_equal_eq each valueSame]
          split
          · exact ⟨same, rfl⟩
          · exact ⟨grown, congrArg some each.length_eq⟩
  | entity inner =>
      obtain ⟨inner', rfl, _⟩ := same_entity_iff.1 same
      exact ⟨same, rfl⟩
  | _ => cases same <;> exact ⟨by first | exact .refl _ | exact .tree ‹_›, rfl⟩

/-! ### Attributes of trees -/

theorem get?_eq_some_iff_of_nodup {κ α : Type} [DecidableEq κ] {pairs : OrderedMap κ α}
    (distinct : (pairs.map (·.1)).Nodup) {key : κ} {value : α} :
    pairs.get? key = some value ↔ (key, value) ∈ pairs := by
  constructor
  · exact OrderedMap.mem_of_get?
  · intro member
    induction pairs with
    | nil => cases member
    | cons pair rest ih =>
        have fresh : pair.1 ∉ rest.map (·.1) := (List.nodup_cons.1 distinct).1
        rw [OrderedMap.get?_cons]
        rcases List.mem_cons.1 member with same | later
        · rw [← same, if_pos rfl]
        · have other : pair.1 ≠ key := by
            intro same
            apply fresh
            rw [same]
            exact List.mem_map_of_mem later
          rw [if_neg other]
          exact ih distinct.of_cons later

theorem get?_eq_of_perm {α : Type} {pairs pairs' : OrderedMap String α}
    (distinct : (pairs.map (·.1)).Nodup) (perm : pairs.Perm pairs') (key : String) :
    pairs.get? key = pairs'.get? key := by
  have distinct' : (pairs'.map (·.1)).Nodup := (perm.map _).nodup_iff.1 distinct
  apply Option.ext
  intro value
  rw [get?_eq_some_iff_of_nodup distinct, get?_eq_some_iff_of_nodup distinct', perm.mem_iff]

private theorem get?_foldl_set {pairs : OrderedMap String String} (distinct : (pairs.map (·.1)).Nodup)
    (map : OrderedMap String String) (key : String) :
    (pairs.foldl (fun map pair => map.set pair.1 pair.2) map).get? key =
      (pairs.get? key).or (map.get? key) := by
  induction pairs generalizing map with
  | nil => rfl
  | cons pair rest ih =>
      have fresh : pair.1 ∉ rest.map (·.1) := (List.nodup_cons.1 distinct).1
      rw [List.foldl_cons, ih distinct.of_cons, OrderedMap.get?_set, OrderedMap.get?_cons]
      by_cases same : pair.1 = key
      · rw [same] at fresh
        rw [if_pos same, if_pos same, OrderedMap.get?_eq_none_iff.2 fresh]
        rfl
      · rw [if_neg same, if_neg same]

theorem agrees_ofPairs {pairs pairs' : List (String × String)} (distinct : (pairs.map (·.1)).Nodup)
    (perm : pairs.Perm pairs') :
    (OrderedMap.ofPairs pairs).agrees (OrderedMap.ofPairs pairs') = true := by
  have distinct' : (pairs'.map (·.1)).Nodup := (perm.map _).nodup_iff.1 distinct
  rw [OrderedMap.agrees_iff]
  intro key
  unfold OrderedMap.ofPairs
  rw [get?_foldl_set distinct, get?_foldl_set distinct', get?_eq_of_perm distinct perm]

end Trellis.Graph
