import Mathlib.Data.List.Forall2
import Trellis.Graph.Value

/-!
Equality of values and entities.

Two entities are equal if they have one class and bind every name alike; in what order they bind the
names plays no part.  Equality goes both ways and carries on, and everything but a number that is no
number equals itself.
-/

namespace Trellis.Graph

open Calendar (DateTime)
open Number (Binary FixedInt Precision)
open Schema (Collection)

/-! ### Induction -/

def Tree.Step (motive : Tree → Prop) : Prop :=
  ∀ name attributes value children, (∀ child ∈ children, motive child) →
    motive (.mk name attributes value children)

theorem Tree.Step.tree {motive : Tree → Prop} (step : Tree.Step motive) : ∀ tree, motive tree
  | .mk name attributes value children =>
      step name attributes value children fun child member =>
        have := List.sizeOf_lt_of_mem member
        step.tree child
termination_by tree => sizeOf tree

structure Steps (motive : Value → Prop) (entityMotive : Entity → Prop) : Prop where
  boolean : ∀ truth, motive (.boolean truth)
  character : ∀ c, motive (.character c)
  integer : ∀ number, motive (.integer number)
  floating : ∀ precision number, motive (.floating precision number)
  text : ∀ content, motive (.text content)
  date : ∀ moment, motive (.date moment)
  tree : ∀ root, motive (.tree root)
  entity : ∀ inner, entityMotive inner → motive (.entity inner)
  collection : ∀ kind items, (∀ item ∈ items, motive item) → motive (.collection kind items)
  map : ∀ entries, motive (.map entries)
  fields : ∀ id className fields, (∀ entry ∈ fields, motive entry.2) →
    entityMotive (.mk id className fields)

namespace Steps

variable {motive : Value → Prop} {entityMotive : Entity → Prop}

private theorem sizeOf_snd_lt_of_mem {entry : String × Value} {fields : List (String × Value)}
    (member : entry ∈ fields) : sizeOf entry.2 < sizeOf fields := by
  have smaller := List.sizeOf_lt_of_mem member
  obtain ⟨name, value⟩ := entry
  simp only [Prod.mk.sizeOf_spec] at smaller
  change sizeOf value < sizeOf fields
  omega

mutual

theorem value (steps : Steps motive entityMotive) : ∀ value, motive value
  | .boolean truth => steps.boolean truth
  | .character c => steps.character c
  | .integer number => steps.integer number
  | .floating precision number => steps.floating precision number
  | .text content => steps.text content
  | .date moment => steps.date moment
  | .tree root => steps.tree root
  | .entity inner => steps.entity inner (steps.ofEntity inner)
  | .collection kind items => steps.collection kind items fun item member =>
      have := List.sizeOf_lt_of_mem member
      steps.value item
  | .map entries => steps.map entries
termination_by value => sizeOf value

theorem ofEntity (steps : Steps motive entityMotive) : ∀ entity, entityMotive entity
  | .mk id className fields => steps.fields id className fields fun entry member =>
      have := sizeOf_snd_lt_of_mem member
      steps.value entry.2
termination_by entity => sizeOf entity

end

end Steps

/-! ### What equality of entities says -/

/-- Two names bound to equal values, or both to none. -/
def SameBinding : Option Value → Option Value → Prop
  | some value, some value' => value.equal value' = true
  | none, none => True
  | _, _ => False

private theorem fieldsEqual_iff {fields : List (String × Value)} {fields' : OrderedMap String Value}
    {seen : List String} :
    Value.fieldsEqual seen fields fields' = true ↔
      ∀ name value, name ∉ seen → OrderedMap.get? fields name = some value →
        ∃ value', fields'.get? name = some value' ∧ value.equal value' = true := by
  induction fields generalizing seen with
  | nil => simp [Value.fieldsEqual]
  | cons entry rest ih =>
      obtain ⟨first, firstValue⟩ := entry
      simp only [Value.fieldsEqual, Bool.and_eq_true, ih, OrderedMap.get?_cons]
      constructor
      · intro both name value fresh found
        obtain ⟨here, later⟩ := both
        by_cases same : first = name
        · subst same
          rw [if_pos rfl] at found
          cases found
          have unseen : seen.contains first = false := by simpa using fresh
          rw [unseen, Bool.false_or] at here
          split at here
          · rename_i value' found'
            exact ⟨value', found', here⟩
          · cases here
        · rw [if_neg same] at found
          have stillFresh : name ∉ first :: seen := by
            simp only [List.mem_cons, not_or]
            exact ⟨Ne.symm same, fresh⟩
          exact later name value stillFresh found
      · intro all
        constructor
        · by_cases known : first ∈ seen
          · simp [known]
          · obtain ⟨value', found', same⟩ := all first firstValue known (if_pos rfl)
            rw [found']
            simp [same]
        · intro name value fresh found
          simp only [List.mem_cons, not_or] at fresh
          have different : ¬ first = name := fun same => fresh.1 same.symm
          apply all name value fresh.2
          rw [if_neg different]
          exact found

/-- Equal entities bind every name alike. -/
theorem Entity.equal_iff {left right : Entity} :
    left.equal right = true ↔
      left.className = right.className ∧
        ∀ name, SameBinding (left.get? name) (right.get? name) := by
  obtain ⟨id, className, fields⟩ := left
  obtain ⟨id', className', fields'⟩ := right
  simp only [Entity.equal, Bool.and_eq_true, beq_iff_eq, fieldsEqual_iff, List.all_eq_true]
  change (className = className' ∧ _) ∧ _ ↔ className = className' ∧
    ∀ name, SameBinding (OrderedMap.get? fields name) (OrderedMap.get? fields' name)
  constructor
  · intro equal
    obtain ⟨⟨classEq, present⟩, bound⟩ := equal
    refine ⟨classEq, ?_⟩
    intro name
    cases found : OrderedMap.get? fields name with
    | some value =>
        obtain ⟨value', found', same⟩ := bound name value List.not_mem_nil found
        rw [found']
        exact same
    | none =>
        have absent : OrderedMap.get? fields' name = none := by
          rw [OrderedMap.get?_eq_none_iff]
          intro member
          have contained := present name member
          rw [OrderedMap.contains, found] at contained
          cases contained
        rw [absent]
        trivial
  · intro alike
    obtain ⟨classEq, same⟩ := alike
    refine ⟨⟨classEq, ?_⟩, ?_⟩
    · intro name member
      have binding := same name
      cases found' : OrderedMap.get? fields' name with
      | none => exact absurd member (OrderedMap.get?_eq_none_iff.1 found')
      | some value' =>
          rw [found'] at binding
          cases found : OrderedMap.get? fields name with
          | none =>
              rw [found] at binding
              exact binding.elim
          | some value => rw [OrderedMap.contains, found]; rfl
    · intro name value _ found
      have binding := same name
      rw [found] at binding
      cases found' : OrderedMap.get? fields' name with
      | none =>
          rw [found'] at binding
          exact binding.elim
      | some value' =>
          rw [found'] at binding
          exact ⟨value', rfl, binding⟩

/-! ### Rows -/

theorem Tree.allEqual_iff {trees trees' : List Tree} :
    Tree.allEqual trees trees' = true ↔
      List.Forall₂ (fun tree tree' => tree.equal tree' = true) trees trees' := by
  induction trees generalizing trees' with
  | nil => cases trees' <;> simp [Tree.allEqual]
  | cons tree rest ih => cases trees' <;> simp [Tree.allEqual, ih]

theorem Value.allEqual_iff {values values' : List Value} :
    Value.allEqual values values' = true ↔
      List.Forall₂ (fun value value' => value.equal value' = true) values values' := by
  induction values generalizing values' with
  | nil => cases values' <;> simp [Value.allEqual]
  | cons value rest ih => cases values' <;> simp [Value.allEqual, ih]

/-- Equal values, by the kind that they have in common. -/
inductive Alike : Value → Value → Prop
  | boolean (truth : Bool) : Alike (.boolean truth) (.boolean truth)
  | character (c : Char) : Alike (.character c) (.character c)
  | integer (number : FixedInt) : Alike (.integer number) (.integer number)
  | floating {precision : Precision} {number number' : Binary} (same : number.equal number' = true) :
      Alike (.floating precision number) (.floating precision number')
  | text (content : String) : Alike (.text content) (.text content)
  | date (moment : DateTime) : Alike (.date moment) (.date moment)
  | tree {root root' : Tree} (same : root.equal root' = true) : Alike (.tree root) (.tree root')
  | entity {inner inner' : Entity} (same : inner.equal inner' = true) :
      Alike (.entity inner) (.entity inner')
  | collection {kind : Collection} {items items' : List Value}
      (same : List.Forall₂ (fun item item' => item.equal item' = true) items items') :
      Alike (.collection kind items) (.collection kind items')
  | map {entries entries' : OrderedMap String String}
      (same : ∀ key, entries.get? key = entries'.get? key) : Alike (.map entries) (.map entries')

theorem Value.equal_iff {value value' : Value} : value.equal value' = true ↔ Alike value value' := by
  constructor
  · intro same
    cases value <;> cases value' <;>
      simp only [Value.equal, Bool.and_eq_true, beq_iff_eq, OrderedMap.agrees_iff,
        Value.allEqual_iff, Bool.false_eq_true] at same
    case boolean.boolean =>
      subst same
      exact .boolean _
    case character.character =>
      subst same
      exact .character _
    case integer.integer =>
      subst same
      exact .integer _
    case floating.floating =>
      obtain ⟨rfl, numberSame⟩ := same
      exact .floating numberSame
    case text.text =>
      subst same
      exact .text _
    case date.date =>
      subst same
      exact .date _
    case tree.tree => exact .tree same
    case entity.entity => exact .entity same
    case collection.collection =>
      obtain ⟨rfl, itemsSame⟩ := same
      exact .collection itemsSame
    case map.map => exact .map same
  · intro alike
    cases alike <;>
      simp only [Value.equal, Bool.and_eq_true, beq_iff_eq, OrderedMap.agrees_iff,
        Value.allEqual_iff, true_and] <;> assumption

private theorem forall₂_symm_of_mem {α : Type} {relation : α → α → Prop} {left right : List α}
    (symm : ∀ item ∈ left, ∀ other, relation item other → relation other item)
    (related : List.Forall₂ relation left right) : List.Forall₂ relation right left := by
  induction related with
  | nil => exact .nil
  | cons first _ ih =>
      obtain ⟨symmHead, symmTail⟩ := List.forall_mem_cons.1 symm
      exact .cons (symmHead _ first) (ih symmTail)

private theorem forall₂_trans_of_mem {α : Type} {relation : α → α → Prop} {left middle right : List α}
    (trans : ∀ item ∈ left, ∀ other third, relation item other → relation other third →
      relation item third)
    (first : List.Forall₂ relation left middle) (second : List.Forall₂ relation middle right) :
    List.Forall₂ relation left right := by
  induction first generalizing right with
  | nil => exact second
  | cons firstHead _ ih =>
      cases second with
      | cons secondHead secondTail =>
          obtain ⟨transHead, transTail⟩ := List.forall_mem_cons.1 trans
          exact .cons (transHead _ _ firstHead secondHead) (ih transTail secondTail)

/-! ### Equality goes both ways -/

theorem Tree.equal_symm (tree : Tree) :
    ∀ tree', tree.equal tree' = true → tree'.equal tree = true := by
  have step : Tree.Step fun tree => ∀ tree', tree.equal tree' = true → tree'.equal tree = true := by
    intro name attributes value children ih tree' same
    obtain ⟨name', attributes', value', children'⟩ := tree'
    simp only [Tree.equal, Bool.and_eq_true, beq_iff_eq, OrderedMap.agrees_iff,
      Tree.allEqual_iff] at same ⊢
    obtain ⟨⟨⟨nameEq, attributesEq⟩, valueEq⟩, childrenEq⟩ := same
    exact ⟨⟨⟨nameEq.symm, fun key => (attributesEq key).symm⟩, valueEq.symm⟩,
      forall₂_symm_of_mem ih childrenEq⟩
  exact step.tree tree

private theorem sameBinding_symm {left right : Option Value}
    (symm : ∀ value, left = some value → ∀ other, value.equal other = true → other.equal value = true)
    (same : SameBinding left right) : SameBinding right left := by
  cases left with
  | none =>
      cases right with
      | none => trivial
      | some value' => exact same.elim
  | some value =>
      cases right with
      | none => exact same.elim
      | some value' => exact symm value rfl value' same

private theorem equal_symm_steps :
    Steps (fun value => ∀ other, Alike value other → Alike other value)
      (fun entity => ∀ other, entity.equal other = true → other.equal entity = true) where
  boolean := by
    intro truth other alike
    cases alike
    exact .boolean truth
  character := by
    intro c other alike
    cases alike
    exact .character c
  integer := by
    intro number other alike
    cases alike
    exact .integer number
  floating := by
    intro precision number other alike
    cases alike with
    | floating same =>
        apply Alike.floating
        rw [Number.Binary.equal_comm]
        exact same
  text := by
    intro content other alike
    cases alike
    exact .text content
  date := by
    intro moment other alike
    cases alike
    exact .date moment
  tree := by
    intro root other alike
    cases alike with
    | tree same => exact .tree (root.equal_symm _ same)
  entity := by
    intro inner ih other alike
    cases alike with
    | entity same => exact .entity (ih _ same)
  collection := by
    intro kind items ih other alike
    cases alike with
    | collection same =>
        apply Alike.collection
        apply forall₂_symm_of_mem _ same
        intro item member item' itemSame
        exact Value.equal_iff.2 (ih item member item' (Value.equal_iff.1 itemSame))
  map := by
    intro entries other alike
    cases alike with
    | map same => exact .map fun key => (same key).symm
  fields := by
    intro id className fields ih other same
    obtain ⟨classEq, bindings⟩ := Entity.equal_iff.1 same
    refine Entity.equal_iff.2 ⟨classEq.symm, ?_⟩
    intro name
    apply sameBinding_symm _ (bindings name)
    intro value found value' valueSame
    exact Value.equal_iff.2
      (ih (name, value) (OrderedMap.mem_of_get? found) value' (Value.equal_iff.1 valueSame))

theorem Value.equal_symm {value other : Value} (same : value.equal other = true) :
    other.equal value = true :=
  Value.equal_iff.2 (equal_symm_steps.value value other (Value.equal_iff.1 same))

theorem Entity.equal_symm {entity other : Entity} (same : entity.equal other = true) :
    other.equal entity = true :=
  equal_symm_steps.ofEntity entity other same

theorem Tree.equal_comm (tree other : Tree) : tree.equal other = other.equal tree := by
  rw [Bool.eq_iff_iff]
  exact ⟨tree.equal_symm other, other.equal_symm tree⟩

theorem Value.equal_comm (value other : Value) : value.equal other = other.equal value := by
  rw [Bool.eq_iff_iff]
  exact ⟨equal_symm, equal_symm⟩

theorem Entity.equal_comm (entity other : Entity) : entity.equal other = other.equal entity := by
  rw [Bool.eq_iff_iff]
  exact ⟨equal_symm, equal_symm⟩

/-! ### Equality carries on -/

theorem Tree.equal_trans (tree : Tree) : ∀ tree' tree'', tree.equal tree' = true →
    tree'.equal tree'' = true → tree.equal tree'' = true := by
  have step : Tree.Step fun tree => ∀ tree' tree'', tree.equal tree' = true →
      tree'.equal tree'' = true → tree.equal tree'' = true := by
    intro name attributes value children ih tree' tree'' first second
    obtain ⟨name', attributes', value', children'⟩ := tree'
    obtain ⟨name'', attributes'', value'', children''⟩ := tree''
    simp only [Tree.equal, Bool.and_eq_true, beq_iff_eq, OrderedMap.agrees_iff,
      Tree.allEqual_iff] at first second ⊢
    obtain ⟨⟨⟨nameEq, attributesEq⟩, valueEq⟩, childrenEq⟩ := first
    obtain ⟨⟨⟨nameEq', attributesEq'⟩, valueEq'⟩, childrenEq'⟩ := second
    exact ⟨⟨⟨nameEq.trans nameEq', fun key => (attributesEq key).trans (attributesEq' key)⟩,
      valueEq.trans valueEq'⟩, forall₂_trans_of_mem ih childrenEq childrenEq'⟩
  exact step.tree tree

private theorem sameBinding_trans {left middle right : Option Value}
    (trans : ∀ value, left = some value → ∀ other third, value.equal other = true →
      other.equal third = true → value.equal third = true)
    (first : SameBinding left middle) (second : SameBinding middle right) :
    SameBinding left right := by
  cases left with
  | none =>
      cases middle with
      | none => exact second
      | some value' => exact first.elim
  | some value =>
      cases middle with
      | none => exact first.elim
      | some value' =>
          cases right with
          | none => exact second.elim
          | some value'' => exact trans value rfl value' value'' first second

private theorem equal_trans_steps :
    Steps (fun value => ∀ other third, Alike value other → Alike other third → Alike value third)
      (fun entity => ∀ other third, entity.equal other = true → other.equal third = true →
        entity.equal third = true) where
  boolean := by
    intro truth other third first second
    cases first
    exact second
  character := by
    intro c other third first second
    cases first
    exact second
  integer := by
    intro number other third first second
    cases first
    exact second
  floating := by
    intro precision number other third first second
    cases first with
    | floating first =>
        cases second with
        | floating second => exact .floating (Number.Binary.equal_trans first second)
  text := by
    intro content other third first second
    cases first
    exact second
  date := by
    intro moment other third first second
    cases first
    exact second
  tree := by
    intro root other third first second
    cases first with
    | tree first =>
        cases second with
        | tree second => exact .tree (root.equal_trans _ _ first second)
  entity := by
    intro inner ih other third first second
    cases first with
    | entity first =>
        cases second with
        | entity second => exact .entity (ih _ _ first second)
  collection := by
    intro kind items ih other third first second
    cases first with
    | collection first =>
        cases second with
        | collection second =>
            apply Alike.collection
            apply forall₂_trans_of_mem _ first second
            intro item member item' item'' itemFirst itemSecond
            exact Value.equal_iff.2
              (ih item member item' item'' (Value.equal_iff.1 itemFirst) (Value.equal_iff.1 itemSecond))
  map := by
    intro entries other third first second
    cases first with
    | map first =>
        cases second with
        | map second => exact .map fun key => (first key).trans (second key)
  fields := by
    intro id className fields ih other third first second
    obtain ⟨classEq, bindings⟩ := Entity.equal_iff.1 first
    obtain ⟨classEq', bindings'⟩ := Entity.equal_iff.1 second
    refine Entity.equal_iff.2 ⟨classEq.trans classEq', ?_⟩
    intro name
    apply sameBinding_trans _ (bindings name) (bindings' name)
    intro value found value' value'' valueFirst valueSecond
    exact Value.equal_iff.2 (ih (name, value) (OrderedMap.mem_of_get? found) value' value''
      (Value.equal_iff.1 valueFirst) (Value.equal_iff.1 valueSecond))

theorem Value.equal_trans {value other third : Value} (first : value.equal other = true)
    (second : other.equal third = true) : value.equal third = true :=
  Value.equal_iff.2
    (equal_trans_steps.value value other third (Value.equal_iff.1 first) (Value.equal_iff.1 second))

theorem Entity.equal_trans {entity other third : Entity} (first : entity.equal other = true)
    (second : other.equal third = true) : entity.equal third = true :=
  equal_trans_steps.ofEntity entity other third first second

end Trellis.Graph
