import Mathlib.Data.List.Perm.Subperm
import Trellis.Proofs.Graph.Sameness

/-!
Equality is lawful.

On values, on entities and on trees alike, equality goes both ways and carries on.  Only a number that
is no number, at whatever depth, keeps a value from being equal to itself.  Identities play no part,
nor do the orders of fields, of entries and of attributes; all else does.
-/

namespace Trellis

/-! ### Maps compared by their sizes -/

namespace OrderedMap

variable {κ α : Type}

/-- A map that binds the keys of another one of its size binds no key besides. -/
private theorem keys_perm_of_covered {left right : OrderedMap κ α} (distinct : left.DistinctKeys)
    (sizes : left.length = right.length) (covered : left.keys ⊆ right.keys) :
    left.keys.Perm right.keys := by
  apply (List.subperm_of_subset distinct covered).perm_of_length_le
  rw [keys, keys, List.length_map, List.length_map, sizes]

variable [DecidableEq κ]

private theorem contains_iff {map : OrderedMap κ α} {key : κ} :
    map.contains key = true ↔ key ∈ map.keys := by
  rw [contains, Option.isSome_iff_ne_none, ne_eq, get?_eq_none_iff, not_not]

private theorem contains_eq_of_perm {left right : OrderedMap κ α} (perm : left.keys.Perm right.keys)
    (key : κ) :
    left.contains key = right.contains key := by
  rw [Bool.eq_iff_iff, contains_iff, contains_iff, perm.mem_iff]

private theorem length_eq_of_contains_eq {left right : OrderedMap κ α} (distinct : left.DistinctKeys)
    (distinct' : right.DistinctKeys) (present : ∀ key, left.contains key = right.contains key) :
    left.length = right.length := by
  have perm : left.keys.Perm right.keys := by
    rw [List.perm_ext_iff_of_nodup distinct distinct']
    intro key
    rw [← contains_iff, ← contains_iff, present key]
  have lengths := perm.length_eq
  rwa [keys, keys, List.length_map, List.length_map] at lengths

/-- Whether the maps are of one size, and every key of the left one is bound alike in the right one. -/
def agreesByCount (alike : α → α → Bool) (left right : OrderedMap κ α) : Bool :=
  left.length == right.length && left.all fun entry => (right.get? entry.1).any (alike entry.2)

private theorem all_any_iff {alike : α → α → Bool} {left right : OrderedMap κ α}
    (distinct : left.DistinctKeys) :
    (left.all fun entry => (right.get? entry.1).any (alike entry.2)) = true ↔
      ∀ key value, left.get? key = some value →
        ∃ value', right.get? key = some value' ∧ alike value value' = true := by
  simp only [List.all_eq_true, Option.any_eq_true, Prod.forall]
  constructor
  · intro each key value bound
    exact each key value (mem_of_get? bound)
  · intro each key value member
    exact each key value ((Graph.get?_eq_some_iff_of_nodup distinct).2 member)

private theorem agreesByCount_iff {alike : α → α → Bool} {left right : OrderedMap κ α}
    (distinct : left.DistinctKeys) (distinct' : right.DistinctKeys) :
    left.agreesByCount alike right = true ↔
      ∀ key, Option.Rel (fun value value' => alike value value' = true) (left.get? key)
        (right.get? key) := by
  simp only [agreesByCount, Bool.and_eq_true, beq_iff_eq, all_any_iff distinct, Graph.rel_iff_of_bound,
    forall_and]
  constructor
  · rintro ⟨sizes, each⟩
    have covered : left.keys ⊆ right.keys := by
      intro key member
      obtain ⟨value, bound⟩ := Option.isSome_iff_exists.1 (contains_iff.2 member)
      obtain ⟨value', bound', _⟩ := each key value bound
      exact contains_iff.1 (Option.isSome_iff_exists.2 ⟨value', bound'⟩)
    refine ⟨contains_eq_of_perm (keys_perm_of_covered distinct sizes covered), ?_⟩
    intro key value value' bound bound'
    obtain ⟨found, bound'', same⟩ := each key value bound
    rw [bound'] at bound''
    cases bound''
    exact same
  · rintro ⟨present, each⟩
    refine ⟨length_eq_of_contains_eq distinct distinct' present, ?_⟩
    intro key value bound
    have bound' : (right.get? key).isSome = true := by
      rw [← present key, bound]
      rfl
    obtain ⟨value', bound'⟩ := Option.isSome_iff_exists.1 bound'
    exact ⟨value', bound', each key value value' bound bound'⟩

private theorem agrees_eq_agreesByCount [DecidableEq α] {left right : OrderedMap κ α}
    (distinct : left.DistinctKeys) (distinct' : right.DistinctKeys) :
    left.agrees right = left.agreesByCount (· == ·) right := by
  rw [Bool.eq_iff_iff, agrees_iff, agreesByCount_iff distinct distinct']
  refine forall_congr' fun key => ?_
  cases left.get? key <;> cases right.get? key <;> simp

end OrderedMap

namespace Graph

open Calendar (DateTime)
open Number (Binary Precision Width)
open Schema (Collection)

/-! ### The laws -/

/-- The laws of an equality: which items equal themselves, what it does not look at, and what items
that are equal have in common. -/
structure EqualityLaws {α : Type} (equal : α → α → Bool) (hasNaN : α → Prop)
    (Rearranged Matches : α → α → Prop) : Prop where
  comm : ∀ left right, equal left right = equal right left
  trans : ∀ left middle right, equal left middle = true → equal middle right = true →
    equal left right = true
  self_iff : ∀ item, equal item item = true ↔ ¬ hasNaN item
  unchanged : ∀ left left' right right', Rearranged left left' → Rearranged right right' →
    equal left right = equal left' right'
  only_matching : ∀ left right, equal left right = true → Matches left right

/-! ### Numbers that are no numbers -/

inductive Value.HasNaN : Value → Prop
  | floating (precision : Precision) : HasNaN (.floating precision .nan)
  | entity {id : EntityId} {className : String} {fields : OrderedMap String Value} {name : String}
      {value : Value} (bound : fields.get? name = some value) (inside : HasNaN value) :
      HasNaN (.entity (.mk id className fields))
  | collection {kind : Collection} {items : List Value} {item : Value} (member : item ∈ items)
      (inside : HasNaN item) : HasNaN (.collection kind items)

def Entity.HasNaN (entity : Entity) : Prop :=
  (Value.entity entity).HasNaN

/-- No number is in a tree, so none is no number. -/
def Tree.HasNaN (_ : Tree) : Prop :=
  False

private theorem binary_equal_self_iff {number : Binary} :
    number.equal number = true ↔ number ≠ .nan := by
  constructor
  · rintro equal rfl
    cases equal
  · exact Binary.equal_self

theorem Tree.equal_self (tree : Tree) : tree.equal tree = true := by
  have step : Tree.Step fun tree => tree.equal tree = true := by
    intro name attributes value children ih
    simp only [Tree.equal, Bool.and_eq_true, beq_iff_eq, OrderedMap.agrees_iff, Tree.allEqual_iff,
      true_and, implies_true]
    exact List.forall₂_same.2 ih
  exact step.tree tree

private theorem equal_self_steps :
    Steps (fun value => value.equal value = true ↔ ¬ value.HasNaN)
      (fun entity => entity.equal entity = true ↔ ¬ entity.HasNaN) where
  boolean := by
    intro truth
    exact iff_of_true (Value.equal_iff.2 (.boolean truth)) (by rintro ⟨⟩)
  character := by
    intro c
    exact iff_of_true (Value.equal_iff.2 (.character c)) (by rintro ⟨⟩)
  integer := by
    intro number
    exact iff_of_true (Value.equal_iff.2 (.integer number)) (by rintro ⟨⟩)
  floating := by
    intro precision number
    rw [Value.equal, beq_self_eq_true, Bool.true_and, binary_equal_self_iff, not_iff_not]
    constructor
    · rintro rfl
      exact .floating precision
    · intro inside
      cases inside
      rfl
  text := by
    intro content
    exact iff_of_true (Value.equal_iff.2 (.text content)) (by rintro ⟨⟩)
  date := by
    intro moment
    exact iff_of_true (Value.equal_iff.2 (.date moment)) (by rintro ⟨⟩)
  tree := by
    intro root
    exact iff_of_true (Value.equal_iff.2 (.tree root.equal_self)) (by rintro ⟨⟩)
  entity := by
    intro inner ih
    rw [Value.equal]
    exact ih
  collection := by
    intro kind items ih
    rw [Value.equal, beq_self_eq_true, Bool.true_and, Value.allEqual_iff, List.forall₂_same]
    constructor
    · rintro each (_ | _ | ⟨member, inside⟩)
      exact (ih _ member).1 (each _ member) inside
    · intro numbers item member
      exact (ih item member).2 fun inside => numbers (.collection member inside)
  map := by
    intro entries
    exact iff_of_true (Value.equal_iff.2 (.map fun _ => rfl)) (by rintro ⟨⟩)
  fields := by
    intro id className fields ih
    rw [Entity.equal_iff]
    constructor
    · rintro ⟨_, bindings⟩ (_ | @⟨_, _, _, name, value, bound, inside⟩)
      have binding := bindings name
      change SameBinding (OrderedMap.get? fields name) (OrderedMap.get? fields name) at binding
      rw [bound] at binding
      exact (ih _ (OrderedMap.mem_of_get? bound)).1 binding inside
    · intro numbers
      refine ⟨rfl, ?_⟩
      intro name
      change SameBinding (OrderedMap.get? fields name) (OrderedMap.get? fields name)
      cases bound : OrderedMap.get? fields name with
      | none => trivial
      | some value =>
          exact (ih _ (OrderedMap.mem_of_get? bound)).2 fun inside => numbers (.entity bound inside)

/-! ### What equality does not look at -/

inductive Tree.Rearranged : Tree → Tree → Prop
  | mk {name : String} {attributes attributes' : OrderedMap String String} {value : Option String}
      {children children' : List Tree} (distinct : attributes.DistinctKeys)
      (reordered : attributes.Perm attributes') (lengths : children.length = children'.length)
      (inside : ∀ pair ∈ children.zip children', Rearranged pair.1 pair.2) :
      Rearranged (.mk name attributes value children) (.mk name attributes' value children')

/-- The values differ at most in identities, and in the orders of fields, of entries and of attributes
of trees. -/
inductive Value.Rearranged : Value → Value → Prop
  | refl (value : Value) : Rearranged value value
  | tree {root root' : Tree} (inside : root.Rearranged root') : Rearranged (.tree root) (.tree root')
  | entity {id id' : EntityId} {className : String} {fields fields' : OrderedMap String Value}
      (distinct : fields.DistinctKeys) (reordered : fields.keys.Perm fields'.keys)
      (inside : ∀ name value value', fields.get? name = some value → fields'.get? name = some value' →
        Rearranged value value') :
      Rearranged (.entity (.mk id className fields)) (.entity (.mk id' className fields'))
  | collection {kind : Collection} {items items' : List Value} (lengths : items.length = items'.length)
      (inside : ∀ pair ∈ items.zip items', Rearranged pair.1 pair.2) :
      Rearranged (.collection kind items) (.collection kind items')
  | map {entries entries' : OrderedMap String String} (distinct : entries.DistinctKeys)
      (reordered : entries.Perm entries') : Rearranged (.map entries) (.map entries')

def Entity.Rearranged (entity entity' : Entity) : Prop :=
  (Value.entity entity).Rearranged (.entity entity')

theorem Tree.Rearranged.equal {tree tree' : Tree} (rearranged : tree.Rearranged tree') :
    tree.equal tree' = true := by
  induction rearranged with
  | mk distinct reordered lengths _ ih =>
      simp only [Tree.equal, Bool.and_eq_true, beq_iff_eq, OrderedMap.agrees_iff, Tree.allEqual_iff,
        true_and, and_true]
      exact ⟨get?_eq_of_perm distinct reordered,
        List.forall₂_iff_zip.2 ⟨lengths, fun member => ih _ member⟩⟩

theorem Value.map_congr {entries entries' : OrderedMap String String}
    (bound : ∀ key, entries.get? key = entries'.get? key) :
    (Value.map entries).Indistinct (.map entries') := by
  intro other
  cases other with
  | map others =>
      rw [Value.equal, Value.equal, Bool.eq_iff_iff, OrderedMap.agrees_iff, OrderedMap.agrees_iff]
      simp only [bound]
  | _ => rfl

theorem Value.Rearranged.indistinct {value value' : Value} (rearranged : value.Rearranged value') :
    value.Indistinct value' := by
  induction rearranged with
  | refl value =>
      intro other
      rfl
  | tree inside => exact Tree.equal_congr inside.equal
  | entity _ reordered _ ih =>
      exact Entity.equal_congr rfl fun name =>
        rel_iff_of_bound.2 ⟨OrderedMap.contains_eq_of_perm reordered name, ih name⟩
  | collection lengths _ ih =>
      exact Value.collection_congr _ (List.forall₂_iff_zip.2 ⟨lengths, fun member => ih _ member⟩)
  | map distinct reordered => exact Value.map_congr (get?_eq_of_perm distinct reordered)

/-! ### What equal values have in common -/

inductive Kind where
  | boolean
  | character
  | integer (width : Width)
  | floating (precision : Precision)
  | text
  | date
  | tree
  | entity
  | collection (kind : Collection)
  | map
  deriving DecidableEq, Repr

def Value.kind : Value → Kind
  | .boolean _ => .boolean
  | .character _ => .character
  | .integer number => .integer number.width
  | .floating precision _ => .floating precision
  | .text _ => .text
  | .date _ => .date
  | .tree _ => .tree
  | .entity _ => .entity
  | .collection kind _ => .collection kind
  | .map _ => .map

structure Tree.Matches (tree tree' : Tree) : Prop where
  name_eq : tree.name = tree'.name
  attributes : ∀ key, tree.attribute? key = tree'.attribute? key
  value_eq : tree.value = tree'.value
  children : List.Forall₂ (fun child child' => child.equal child' = true) tree.children tree'.children

structure Entity.Matches (entity entity' : Entity) : Prop where
  className_eq : entity.className = entity'.className
  names : ∀ name, entity.contains name = entity'.contains name
  bound : ∀ name value value', entity.get? name = some value → entity'.get? name = some value' →
    value.equal value' = true

structure Value.Matches (value value' : Value) : Prop where
  kind_eq : value.kind = value'.kind
  trees : Option.Rel Tree.Matches value.tree? value'.tree?
  entities : Option.Rel Entity.Matches value.entity? value'.entity?
  items : Option.Rel (List.Forall₂ fun item item' => item.equal item' = true) value.items? value'.items?

theorem Tree.equal_iff {tree tree' : Tree} : tree.equal tree' = true ↔ tree.Matches tree' := by
  obtain ⟨name, attributes, value, children⟩ := tree
  obtain ⟨name', attributes', value', children'⟩ := tree'
  simp only [Tree.equal, Bool.and_eq_true, beq_iff_eq, OrderedMap.agrees_iff, Tree.allEqual_iff]
  constructor
  · rintro ⟨⟨⟨nameEq, attributesEq⟩, valueEq⟩, childrenEq⟩
    exact ⟨nameEq, attributesEq, valueEq, childrenEq⟩
  · intro same
    exact ⟨⟨⟨same.name_eq, same.attributes⟩, same.value_eq⟩, same.children⟩

private theorem sameBinding_iff {bound bound' : Option Value} :
    SameBinding bound bound' ↔
      Option.Rel (fun value value' => value.equal value' = true) bound bound' := by
  cases bound <;> cases bound' <;> simp [SameBinding]

theorem Entity.equal_iff_matches {entity entity' : Entity} :
    entity.equal entity' = true ↔ entity.Matches entity' := by
  simp only [Entity.equal_iff, sameBinding_iff, rel_iff_of_bound, forall_and]
  constructor
  · rintro ⟨sameClass, names, bound⟩
    exact ⟨sameClass, names, bound⟩
  · intro same
    exact ⟨same.className_eq, same.names, same.bound⟩

theorem Value.matches_of_equal {value value' : Value} (equal : value.equal value' = true) :
    value.Matches value' := by
  cases Value.equal_iff.1 equal with
  | tree same => exact ⟨rfl, .some (Tree.equal_iff.1 same), .none, .none⟩
  | entity same => exact ⟨rfl, .none, .some (Entity.equal_iff_matches.1 same), .none⟩
  | collection same => exact ⟨rfl, .none, .none, .some same⟩
  | _ => exact ⟨rfl, .none, .none, .none⟩

/-! ### Equality by counting -/

theorem Entity.equal_eq_agreesByCount {left right : Entity} (distinct : left.fields.DistinctKeys)
    (distinct' : right.fields.DistinctKeys) :
    left.equal right =
      (left.className == right.className && left.fields.agreesByCount Value.equal right.fields) := by
  rw [Bool.eq_iff_iff, Entity.equal_iff, Bool.and_eq_true, beq_iff_eq,
    OrderedMap.agreesByCount_iff distinct distinct']
  simp only [sameBinding_iff, Entity.get?]

/-! ### Equality is lawful -/

theorem Value.laws : EqualityLaws Value.equal Value.HasNaN Value.Rearranged Value.Matches where
  comm := Value.equal_comm
  trans _ _ _ first second := Value.equal_trans first second
  self_iff := equal_self_steps.value
  unchanged _ _ _ _ left right := left.indistinct.equal_eq right.indistinct
  only_matching _ _ := Value.matches_of_equal

theorem Entity.laws : EqualityLaws Entity.equal Entity.HasNaN Entity.Rearranged Entity.Matches where
  comm := Entity.equal_comm
  trans _ _ _ first second := Entity.equal_trans first second
  self_iff := equal_self_steps.ofEntity
  unchanged left left' right right' rearranged rearranged' := by
    have values := rearranged.indistinct.equal_eq rearranged'.indistinct
    rwa [Value.equal, Value.equal] at values
  only_matching _ _ := Entity.equal_iff_matches.1

theorem Tree.laws : EqualityLaws Tree.equal Tree.HasNaN Tree.Rearranged Tree.Matches where
  comm := Tree.equal_comm
  trans tree tree' tree'' := tree.equal_trans tree' tree''
  self_iff tree := iff_of_true tree.equal_self id
  unchanged left left' right right' rearranged rearranged' := by
    have values := (Tree.equal_congr rearranged.equal).equal_eq (Tree.equal_congr rearranged'.equal)
    rwa [Value.equal, Value.equal] at values
  only_matching _ _ := Tree.equal_iff.1

/-- Equality is lawful on values, entities and trees, to whatever depth; and where each name stands
once it is the comparison of maps that counts their keys and looks each key of one up in the other. -/
theorem equality_is_lawful :
    EqualityLaws Value.equal Value.HasNaN Value.Rearranged Value.Matches ∧
    EqualityLaws Entity.equal Entity.HasNaN Entity.Rearranged Entity.Matches ∧
    EqualityLaws Tree.equal Tree.HasNaN Tree.Rearranged Tree.Matches ∧
    (∀ left right : Entity, left.fields.DistinctKeys → right.fields.DistinctKeys →
      left.equal right =
        (left.className == right.className && left.fields.agreesByCount Value.equal right.fields)) ∧
    ∀ left right : OrderedMap String String, left.DistinctKeys → right.DistinctKeys →
      left.agrees right = left.agreesByCount (· == ·) right :=
  ⟨Value.laws, Entity.laws, Tree.laws, fun _ _ => Entity.equal_eq_agreesByCount,
    fun _ _ => OrderedMap.agrees_eq_agreesByCount⟩

example :
    (Value.collection .list [.entity (.mk ⟨0⟩ "Shop" [("stock", .map [("pens", "3"), ("ink", "4")]),
        ("balance", .floating .double (.finite false 0 (-1074)))])]).equal
      (.collection .list [.entity (.mk ⟨7⟩ "Shop" [("balance", .floating .double (.finite true 0 (-1074))),
        ("stock", .map [("ink", "4"), ("pens", "3")])])]) = true := by
  decide +kernel

end Graph

end Trellis
