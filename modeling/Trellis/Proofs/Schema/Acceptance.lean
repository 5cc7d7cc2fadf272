import Trellis.Proofs.Schema.Lineage
import Trellis.Proofs.Schema.Places

/-!
Which declarations build a schema.

Declarations are well formed if names tell classes apart, if the root and the trackers are there, if
one can go up from every class, and if the fields of every class, inherited ones included, can be
written where they are said to be.  Declarations build a schema if and only if they are well formed,
and what they build has one layout for each class, with the fields of its lineage in order.
-/

namespace Trellis.Schema

/-! ### What is asked of declarations -/

def Declarations.Declares (declarations : Declarations) (name : String) : Prop :=
  ∃ declared ∈ declarations.classes, declared.name = name

def Field.SuitsItsPlace (field : Field) : Prop :=
  field.isAttribute = true ∨ field.isContent = true →
    ∃ type, field.kind = .scalar type ∧
      (type = .tree → field.isContent = true ∧ field.isAttribute = false)

inductive Field.Holds (field : Field) (target : String) : Prop
  | one (kind : field.kind = .one target)
  | many {collection : Collection} {wrapped : Bool}
      (kind : field.kind = .many collection (.entity target) wrapped)

/-- What is asked of the fields of one class, its own and inherited ones. -/
structure Declarations.FieldsFine (declarations : Declarations) (fields : List Field) : Prop where
  content : fields.countP (·.isContent) ≤ 1
  places : ∀ field ∈ fields, field.SuitsItsPlace
  targets : ∀ field ∈ fields, ∀ target, field.Holds target → declarations.Declares target

structure Declarations.WellFormed (declarations : Declarations) : Prop where
  distinct : (declarations.classes.map (·.name)).Nodup
  root : ∃ root ∈ declarations.classes, declarations.roots = [root.name] ∧ root.isAbstract = false
  trackers : ∀ name, declarations.locationTracker = some name ∨ declarations.sourceTracker = some name →
    declarations.Declares name
  stays : StaysDeclared declarations.classes
  never : NeverRevisits declarations.classes
  fields : ∀ declared ∈ declarations.classes, ∀ lineage,
    IsLineage declarations.classes declared lineage →
      declarations.FieldsFine (lineage.flatMap (·.fields))

/-- The layout shows the fields of a lineage in order, with the tags that are given or follow from
names. -/
structure Layout.Settles (layout : Layout) (naming : Naming) (declared : Class) (lineage : List Class) :
    Prop where
  tag : layout.tag = declared.tagName.getD (naming.apply declared.name)
  fields : layout.fields.map (·.declared) = lineage.flatMap (·.fields)
  tags : ∀ field ∈ layout.fields,
    field.tag = field.declared.tagName.getD (naming.apply field.declared.name)
  itemTags : ∀ field ∈ layout.fields, field.itemTag = field.declared.itemTag.getD (singular field.tag)
  content : ∀ field,
    layout.contentField? = some field ↔ field ∈ layout.fields ∧ field.declared.isContent = true

structure Declarations.Describes (declarations : Declarations) (schema : Schema) : Prop where
  classes : schema.classes.map (·.declared) = declarations.classes
  root : declarations.roots = [schema.root]
  naming : schema.naming = declarations.naming
  strictAttributes : schema.strictAttributes = declarations.strictAttributes
  locationTracker : schema.locationTracker = declarations.locationTracker
  sourceTracker : schema.sourceTracker = declarations.sourceTracker
  layouts : ∀ declared ∈ declarations.classes, ∃ lineage layout,
    IsLineage declarations.classes declared lineage ∧
      schema.find? declared.name = some ⟨declared, layout⟩ ∧
      layout.Settles declarations.naming declared lineage

variable {declarations : Declarations}

/-! ### Names, root and trackers -/

private theorem firstRepeated?_eq_none_iff {names seen : List String} :
    firstRepeated? seen names = none ↔ names.Nodup ∧ ∀ name ∈ names, name ∉ seen := by
  induction names generalizing seen with
  | nil => simp [firstRepeated?]
  | cons name rest ih =>
      rw [firstRepeated?, List.nodup_cons]
      by_cases repeated : seen.contains name = true
      · rw [if_pos repeated]
        have isSeen : name ∈ seen := by simpa using repeated
        constructor
        · intro impossible
          cases impossible
        · intro fresh
          exact absurd isSeen (fresh.2 name List.mem_cons_self)
      · rw [if_neg repeated, ih]
        have isFresh : name ∉ seen := by simpa using repeated
        constructor
        · intro later
          refine ⟨⟨?_, later.1⟩, ?_⟩
          · intro inRest
            exact later.2 name inRest List.mem_cons_self
          · refine List.forall_mem_cons.2 ⟨isFresh, ?_⟩
            intro other inRest isSeen
            exact later.2 other inRest (List.mem_cons_of_mem name isSeen)
        · intro all
          refine ⟨all.1.2, ?_⟩
          intro other inRest isSeen
          rcases List.mem_cons.1 isSeen with same | before
          · rw [same] at inRest
            exact all.1.1 inRest
          · exact all.2 other (List.mem_cons_of_mem name inRest) before

private theorem declares_iff {name : String} :
    declarations.declares name = true ↔ declarations.Declares name := by
  unfold Declarations.declares Declarations.find? Declarations.Declares
  rw [List.find?_isSome]
  simp

private theorem checkedRoot_eq_ok_iff (distinct : (declarations.classes.map (·.name)).Nodup)
    {name : String} :
    declarations.checkedRoot = .ok name ↔
      ∃ root ∈ declarations.classes,
        declarations.roots = [name] ∧ root.name = name ∧ root.isAbstract = false := by
  unfold Declarations.checkedRoot
  constructor
  · intro checked
    split at checked
    · cases checked
    · rename_i root rootsEq
      cases foundEq : declarations.find? root with
      | none =>
          rw [foundEq] at checked
          cases checked
      | some found =>
          obtain ⟨member, same⟩ := find?_name_eq_some foundEq
          rw [foundEq] at checked
          simp only at checked
          split at checked
          · cases checked
          · rename_i concrete
            cases checked
            exact ⟨found, member, rootsEq, same, Bool.eq_false_iff.2 concrete⟩
    · cases checked
  · rintro ⟨root, member, rootsEq, rfl, concrete⟩
    have foundEq : declarations.find? root.name = some root := find?_of_nodup_map distinct member
    simp only [rootsEq, foundEq, concrete]
    rfl

private theorem unknownTracker?_eq_none_iff :
    declarations.unknownTracker? = none ↔
      ∀ name, declarations.locationTracker = some name ∨ declarations.sourceTracker = some name →
        declarations.Declares name := by
  have one (tracker : Option String) :
      (tracker.filter fun name => !declarations.declares name) = none ↔
        ∀ name, tracker = some name → declarations.Declares name := by
    rw [Option.filter_eq_none_iff]
    constructor
    · intro none name isTracker
      have declared := none name isTracker
      rw [← declares_iff]
      simpa using declared
    · intro all name isTracker
      rw [declares_iff.2 (all name isTracker)]
      decide
  unfold Declarations.unknownTracker?
  simp only [List.findSome?_eq_none_iff, List.mem_cons, List.not_mem_nil, or_false, forall_eq_or_imp,
    forall_eq, one]
  constructor
  · rintro ⟨location, source⟩ name (isLocation | isSource)
    · exact location name isLocation
    · exact source name isSource
  · intro all
    exact ⟨fun name isLocation => all name (.inl isLocation), fun name isSource => all name (.inr isSource)⟩

/-! ### Fields -/

private theorem scalarType?_eq_some_iff {field : Field} {type : ScalarType} :
    field.scalarType? = some type ↔ field.kind = .scalar type := by
  unfold Field.scalarType?
  cases field.kind with
  | scalar other => simp
  | one target => simp
  | many collection item wrapped => simp
  | map encoding => simp

private theorem fitsItsPlace_iff {field : Field} : field.fitsItsPlace = true ↔ field.SuitsItsPlace := by
  unfold Field.fitsItsPlace Field.SuitsItsPlace
  by_cases marked : (field.isAttribute || field.isContent) = true
  · have isMarked : field.isAttribute = true ∨ field.isContent = true := by simpa using marked
    rw [if_pos marked]
    cases typeEq : field.scalarType? with
    | none =>
        constructor
        · intro impossible
          cases impossible
        · intro suits
          obtain ⟨type, kind, _⟩ := suits isMarked
          rw [scalarType?_eq_some_iff.2 kind] at typeEq
          cases typeEq
    | some type =>
        have kind := scalarType?_eq_some_iff.1 typeEq
        constructor
        · intro fits _
          refine ⟨type, kind, ?_⟩
          intro isTree
          rw [isTree] at fits
          simpa [ScalarType.isTextual] using fits
        · intro suits
          obtain ⟨other, otherKind, treeOnly⟩ := suits isMarked
          rw [kind] at otherKind
          cases otherKind
          cases type with
          | tree => simpa [ScalarType.isTextual] using treeOnly rfl
          | _ => rfl
  · rw [if_neg marked]
    have notMarked : ¬ (field.isAttribute = true ∨ field.isContent = true) := by simpa using marked
    simp only [notMarked, false_implies]

private theorem target?_eq_some_iff {field : Field} {target : String} :
    field.target? = some target ↔ field.Holds target := by
  unfold Field.target?
  constructor
  · intro targetEq
    split at targetEq
    · rename_i kind
      cases targetEq
      exact .one kind
    · rename_i kind
      cases targetEq
      exact .many kind
    · cases targetEq
  · intro holds
    cases holds with
    | one kind => rw [kind]
    | many kind => rw [kind]

private theorem fieldProblem?_eq_none_iff {className : String} {field : TaggedField} :
    declarations.fieldProblem? className field = none ↔
      field.declared.SuitsItsPlace ∧
        ∀ target, field.declared.Holds target → declarations.Declares target := by
  unfold Declarations.fieldProblem?
  rw [← fitsItsPlace_iff]
  cases field.declared.fitsItsPlace with
  | false => simp
  | true =>
      cases targetEq : field.declared.target? with
      | none =>
          have nothing : ∀ target, ¬ field.declared.Holds target := by
            intro target holds
            rw [target?_eq_some_iff.2 holds] at targetEq
            cases targetEq
          simp [nothing]
      | some target =>
          have holds := target?_eq_some_iff.1 targetEq
          have only : ∀ other, field.declared.Holds other → other = target := by
            intro other holdsOther
            rw [target?_eq_some_iff.2 holdsOther] at targetEq
            exact Option.some.inj targetEq
          by_cases known : declarations.declares target = true
          · have isDeclared := declares_iff.1 known
            simp only [known, Bool.not_true, Bool.false_eq_true, if_false, if_true, true_and, true_iff]
            intro other holdsOther
            rw [only other holdsOther]
            exact isDeclared
          · simp only [known, Bool.not_true, Bool.false_eq_true, if_false, reduceCtorEq, true_and,
              false_iff]
            intro all
            exact known (declares_iff.2 (all target holds))

private theorem layout_fields_declared (naming : Naming) (lineage : List Class) (declared : Class) :
    (declared.layout naming lineage).fields.map (·.declared) = lineage.flatMap (·.fields) := by
  simp only [Class.layout, List.map_flatMap, List.map_map]
  have same : ((fun field : TaggedField => field.declared) ∘ Field.settle naming) = id := rfl
  simp only [same, List.map_id]

private theorem layoutProblem?_eq_none_iff {className : String} {layout : Layout} :
    declarations.layoutProblem? className layout = none ↔
      declarations.FieldsFine (layout.fields.map (·.declared)) := by
  unfold Declarations.layoutProblem?
  have counted : (layout.fields.map (·.declared)).countP (·.isContent) =
      layout.fields.countP (·.declared.isContent) := by
    rw [List.countP_map]
    rfl
  by_cases many : 1 < layout.fields.countP (·.declared.isContent)
  · rw [if_pos many]
    constructor
    · intro impossible
      cases impossible
    · intro fine
      have few := fine.content
      omega
  · rw [if_neg many, List.findSome?_eq_none_iff]
    simp only [fieldProblem?_eq_none_iff]
    constructor
    · intro all
      refine ⟨by omega, ?_, ?_⟩
      · exact List.forall_mem_map.2 fun field member => (all field member).1
      · exact List.forall_mem_map.2 fun field member => (all field member).2
    · intro fine field member
      have isField := List.mem_map_of_mem (f := TaggedField.declared) member
      exact ⟨fine.places _ isField, fine.targets _ isField⟩

/-! ### Classes -/

private theorem resolve_eq_ok_iff {declared : Class} {resolved : ResolvedClass} :
    declarations.resolve declared = .ok resolved ↔
      ∃ lineage, declarations.lineage declared = .ok lineage ∧
        declarations.FieldsFine (lineage.flatMap (·.fields)) ∧
        resolved = ⟨declared, declared.layout declarations.naming lineage⟩ := by
  unfold Declarations.resolve
  cases lineageEq : declarations.lineage declared with
  | error error => simp [bind, Except.bind]
  | ok lineage =>
      have fine : declarations.layoutProblem? declared.name
          (declared.layout declarations.naming lineage) = none ↔ _ := layoutProblem?_eq_none_iff
      rw [layout_fields_declared] at fine
      simp only [bind, Except.bind, Except.ok.injEq, exists_eq_left', ← fine]
      cases declarations.layoutProblem? declared.name (declared.layout declarations.naming lineage) with
      | none => simp [eq_comm]
      | some problem => simp

private theorem settles_layout {declared : Class} {lineage : List Class}
    (content : (lineage.flatMap (·.fields)).countP (·.isContent) ≤ 1) :
    (declared.layout declarations.naming lineage).Settles declarations.naming declared lineage := by
  have settled : ∀ field ∈ (declared.layout declarations.naming lineage).fields,
      ∃ own, field = Field.settle declarations.naming own := by
    intro field member
    obtain ⟨ancestor, _, isField⟩ := List.mem_flatMap.1 member
    obtain ⟨own, _, rfl⟩ := List.mem_map.1 isField
    exact ⟨own, rfl⟩
  constructor
  case tag => rfl
  case fields => exact layout_fields_declared _ _ _
  case tags =>
    intro field member
    obtain ⟨own, rfl⟩ := settled field member
    rfl
  case itemTags =>
    intro field member
    obtain ⟨own, rfl⟩ := settled field member
    rfl
  case content =>
    intro field
    rw [← layout_fields_declared declarations.naming lineage declared, List.countP_map] at content
    constructor
    · exact Layout.contentField?_mem_fields
    · rintro ⟨member, isContent⟩
      exact Layout.find?_of_countP_le_one content member isContent

private theorem exists_mapM {α β ε : Type} {f : α → Except ε β} {inputs : List α}
    (each : ∀ input ∈ inputs, ∃ output, f input = .ok output) :
    ∃ outputs, inputs.mapM f = .ok outputs := by
  induction inputs with
  | nil => exact ⟨[], rfl⟩
  | cons first rest ih =>
      obtain ⟨firstEach, restEach⟩ := List.forall_mem_cons.1 each
      obtain ⟨output, outputEq⟩ := firstEach
      obtain ⟨outputs, outputsEq⟩ := ih restEach
      refine ⟨output :: outputs, ?_⟩
      rw [List.mapM_cons, outputEq, outputsEq]
      rfl

private theorem map_eq_of_mapM {α β ε : Type} {f : α → Except ε β} {origin : β → α}
    (keeps : ∀ input output, f input = .ok output → origin output = input) {inputs : List α}
    {outputs : List β} (run : inputs.mapM f = .ok outputs) : outputs.map origin = inputs := by
  induction inputs generalizing outputs with
  | nil =>
      cases run
      rfl
  | cons first rest ih =>
      rw [List.mapM_cons] at run
      cases firstEq : f first with
      | error error =>
          rw [firstEq] at run
          cases run
      | ok output =>
          rw [firstEq] at run
          cases restEq : rest.mapM f with
          | error error =>
              rw [restEq] at run
              cases run
          | ok outputs =>
              rw [restEq] at run
              cases run
              rw [List.map_cons, keeps first output firstEq, ih restEq]

/-! ### Building -/

structure Declarations.Builds (declarations : Declarations) (schema : Schema) : Prop where
  distinct : (declarations.classes.map (·.name)).Nodup
  root : declarations.checkedRoot = .ok schema.root
  trackers : declarations.unknownTracker? = none
  classes : declarations.classes.mapM declarations.resolve = .ok schema.classes
  naming : schema.naming = declarations.naming
  strictAttributes : schema.strictAttributes = declarations.strictAttributes
  locationTracker : schema.locationTracker = declarations.locationTracker
  sourceTracker : schema.sourceTracker = declarations.sourceTracker

theorem build_eq_ok_iff {schema : Schema} :
    declarations.build = .ok schema ↔ declarations.Builds schema := by
  have names : firstRepeated? [] (declarations.classes.map (·.name)) = none ↔ _ :=
    firstRepeated?_eq_none_iff
  simp only [List.not_mem_nil, not_false_iff, implies_true, and_true] at names
  unfold Declarations.build
  constructor
  · intro built
    simp only [bind, Except.bind] at built
    cases repeatedEq : firstRepeated? [] (declarations.classes.map (·.name)) with
    | some name =>
        simp only [repeatedEq] at built
        cases built
    | none =>
        simp only [repeatedEq, pure, Except.pure] at built
        cases rootEq : declarations.checkedRoot with
        | error error =>
            simp only [rootEq] at built
            cases built
        | ok root =>
            cases trackerEq : declarations.unknownTracker? with
            | some name =>
                simp only [rootEq, trackerEq] at built
                cases built
            | none =>
                cases classesEq : declarations.classes.mapM declarations.resolve with
                | error error =>
                    simp only [rootEq, trackerEq, classesEq] at built
                    cases built
                | ok classes =>
                    simp only [rootEq, trackerEq, classesEq] at built
                    cases built
                    exact ⟨names.1 repeatedEq, rootEq, trackerEq, classesEq, rfl, rfl, rfl, rfl⟩
  · intro builds
    obtain ⟨classes, root, naming, strictAttributes, locationTracker, sourceTracker⟩ := schema
    obtain ⟨distinct, rootEq, trackerEq, classesEq, rfl, rfl, rfl, rfl⟩ := builds
    simp only [bind, Except.bind, pure, Except.pure, names.2 distinct, rootEq, trackerEq, classesEq]

theorem Declarations.Builds.map_declared {schema : Schema} (builds : declarations.Builds schema) :
    schema.classes.map (·.declared) = declarations.classes := by
  refine map_eq_of_mapM ?_ builds.classes
  intro declared resolved resolves
  obtain ⟨_, _, _, rfl⟩ := resolve_eq_ok_iff.1 resolves
  rfl

theorem Declarations.Builds.resolved {schema : Schema} (builds : declarations.Builds schema)
    {declared : Class} (member : declared ∈ declarations.classes) :
    ∃ lineage, declarations.lineage declared = .ok lineage ∧
      declarations.FieldsFine (lineage.flatMap (·.fields)) ∧
      ⟨declared, declared.layout declarations.naming lineage⟩ ∈ schema.classes := by
  rw [← builds.map_declared] at member
  obtain ⟨resolved, isResolved, rfl⟩ := List.mem_map.1 member
  obtain ⟨input, _, resolves⟩ := mem_of_mapM builds.classes isResolved
  obtain ⟨lineage, walk, fine, rfl⟩ := resolve_eq_ok_iff.1 resolves
  exact ⟨lineage, walk, fine, isResolved⟩

theorem Declarations.Builds.find?_of_mem {schema : Schema} (builds : declarations.Builds schema)
    {resolved : ResolvedClass} (member : resolved ∈ schema.classes) :
    schema.find? resolved.declared.name = some resolved := by
  have distinct := builds.distinct
  rw [← builds.map_declared, List.map_map] at distinct
  exact find?_of_nodup_map distinct member

private theorem wellFormed_of_builds {schema : Schema} (builds : declarations.Builds schema) :
    declarations.WellFormed := by
  have distinct := builds.distinct
  constructor
  case distinct => exact distinct
  case root =>
    obtain ⟨root, member, rootsEq, same, concrete⟩ := (checkedRoot_eq_ok_iff distinct).1 builds.root
    exact ⟨root, member, by rw [rootsEq, same], concrete⟩
  case trackers => exact unknownTracker?_eq_none_iff.1 builds.trackers
  case stays =>
    intro declared member parent parentEq
    obtain ⟨lineage, walk, _⟩ := builds.resolved member
    exact exists_parent_of_lineage walk parentEq
  case never =>
    intro declared member above chain
    obtain ⟨lineage, walk, _⟩ := builds.resolved member
    exact nodup_of_lineage distinct walk chain
  case fields =>
    intro declared member lineage is
    obtain ⟨found, walk, fine, _⟩ := builds.resolved member
    rw [is.eq distinct (lineage_isLineage walk).1]
    exact fine

private theorem exists_builds_of_wellFormed (wellFormed : declarations.WellFormed) :
    ∃ schema, declarations.Builds schema := by
  have distinct := wellFormed.distinct
  have resolves : ∀ declared ∈ declarations.classes,
      ∃ resolved, declarations.resolve declared = .ok resolved := by
    intro declared member
    obtain ⟨lineage, walk⟩ := lineage_succeeds wellFormed.stays wellFormed.never member
    have fine := wellFormed.fields declared member lineage (lineage_isLineage walk).1
    exact ⟨_, resolve_eq_ok_iff.2 ⟨lineage, walk, fine, rfl⟩⟩
  obtain ⟨classes, classesEq⟩ := exists_mapM resolves
  obtain ⟨root, member, rootsEq, concrete⟩ := wellFormed.root
  have rootOk : declarations.checkedRoot = .ok root.name :=
    (checkedRoot_eq_ok_iff distinct).2 ⟨root, member, rootsEq, rfl, concrete⟩
  exact ⟨⟨classes, root.name, _, _, _, _⟩, distinct, rootOk,
    unknownTracker?_eq_none_iff.2 wellFormed.trackers, classesEq, rfl, rfl, rfl, rfl⟩

theorem describes_of_builds {schema : Schema} (builds : declarations.Builds schema) :
    declarations.Describes schema := by
  have distinct := builds.distinct
  constructor
  case classes => exact builds.map_declared
  case root =>
    obtain ⟨_, _, rootsEq, _, _⟩ := (checkedRoot_eq_ok_iff distinct).1 builds.root
    exact rootsEq
  case naming => exact builds.naming
  case strictAttributes => exact builds.strictAttributes
  case locationTracker => exact builds.locationTracker
  case sourceTracker => exact builds.sourceTracker
  case layouts =>
    intro declared member
    obtain ⟨lineage, walk, fine, isResolved⟩ := builds.resolved member
    exact ⟨lineage, declared.layout declarations.naming lineage, (lineage_isLineage walk).1,
      builds.find?_of_mem isResolved, settles_layout fine.content⟩

/-! ### What reading relies on -/

structure Complete (schema : Schema) : Prop where
  root : ∃ resolved, schema.find? schema.root = some resolved
  suits : ∀ resolved ∈ schema.classes, ∀ field ∈ resolved.layout.fields, field.declared.SuitsItsPlace
  targets : ∀ resolved ∈ schema.classes, ∀ field ∈ resolved.layout.fields,
    ∀ target, field.declared.Holds target → ∃ other, schema.find? target = some other

theorem Declarations.Builds.find?_of_declares {schema : Schema} (builds : declarations.Builds schema)
    {name : String} (declares : declarations.Declares name) :
    ∃ resolved, schema.find? name = some resolved := by
  obtain ⟨declared, member, rfl⟩ := declares
  obtain ⟨_, layout, _, foundEq, _⟩ := (describes_of_builds builds).layouts declared member
  exact ⟨_, foundEq⟩

theorem complete_of_build {schema : Schema} (built : declarations.build = .ok schema) :
    schema.Complete := by
  have builds := build_eq_ok_iff.1 built
  have fine : ∀ resolved ∈ schema.classes,
      declarations.FieldsFine (resolved.layout.fields.map (·.declared)) := by
    intro resolved member
    obtain ⟨declared, _, resolves⟩ := mem_of_mapM builds.classes member
    obtain ⟨lineage, _, fieldsFine, rfl⟩ := resolve_eq_ok_iff.1 resolves
    simp only [layout_fields_declared]
    exact fieldsFine
  constructor
  case root =>
    obtain ⟨root, member, _, same, _⟩ := (checkedRoot_eq_ok_iff builds.distinct).1 builds.root
    exact builds.find?_of_declares ⟨root, member, same⟩
  case suits =>
    intro resolved member field isField
    exact (fine resolved member).places _ (List.mem_map_of_mem isField)
  case targets =>
    intro resolved member field isField target holds
    exact builds.find?_of_declares ((fine resolved member).targets _ (List.mem_map_of_mem isField) target holds)

theorem Complete.attribute_textual {schema : Schema} (complete : schema.Complete)
    {resolved : ResolvedClass} (member : resolved ∈ schema.classes) {name : String}
    {field : TaggedField} (found : resolved.layout.attributeField? name = some field) :
    ∃ type, field.declared.scalarType? = some type ∧ type ≠ .tree := by
  have marks := List.find?_some found
  simp only [Bool.and_eq_true] at marks
  have isField := List.mem_of_find?_eq_some found
  obtain ⟨type, kind, treeOnly⟩ := complete.suits resolved member field isField (.inl marks.1)
  refine ⟨type, scalarType?_eq_some_iff.2 kind, ?_⟩
  intro isTree
  rw [(treeOnly isTree).2] at marks
  cases marks.1

theorem Complete.content_scalar {schema : Schema} (complete : schema.Complete)
    {resolved : ResolvedClass} (member : resolved ∈ schema.classes) {field : TaggedField}
    (found : resolved.layout.contentField? = some field) :
    ∃ type, field.declared.scalarType? = some type := by
  obtain ⟨isField, isContent⟩ := Layout.contentField?_mem_fields found
  obtain ⟨type, kind, _⟩ := complete.suits resolved member field isField (.inr isContent)
  exact ⟨type, scalarType?_eq_some_iff.2 kind⟩

/-! ### Acceptance -/

/-- Declarations build a schema if and only if they are well formed, and the schema has a layout for
each of their classes with the fields of its lineage in order. -/
theorem build_accepts_wellFormed (declarations : Declarations) :
    ((∃ schema, declarations.build = .ok schema) ↔ declarations.WellFormed) ∧
      ∀ schema, declarations.build = .ok schema → declarations.Describes schema := by
  refine ⟨⟨?_, ?_⟩, ?_⟩
  · rintro ⟨schema, built⟩
    exact wellFormed_of_builds (build_eq_ok_iff.1 built)
  · intro wellFormed
    obtain ⟨schema, builds⟩ := exists_builds_of_wellFormed wellFormed
    exact ⟨schema, build_eq_ok_iff.2 builds⟩
  · intro schema built
    exact describes_of_builds (build_eq_ok_iff.1 built)

theorem exists_built {declarations : Declarations} {test : Schema → Bool}
    (passes : declarations.build.toOption.any test = true) :
    ∃ schema, declarations.build = .ok schema ∧ test schema = true := by
  cases built : declarations.build with
  | error error =>
      rw [built] at passes
      cases passes
  | ok schema =>
      rw [built] at passes
      exact ⟨schema, rfl, passes⟩

def shelf : Declarations where
  classes := [
    { name := "Shelf", fields := [{ name := "books", kind := .many .list (.entity "Book") false }] },
    { name := "Book", superclass := some "Item"
      fields := [{ name := "shelfMark", kind := .scalar .text, isAttribute := true }] },
    { name := "Item", isAbstract := true
      fields := [{ name := "title", kind := .scalar .text, isContent := true }] }]
  roots := ["Shelf"]
  naming := .kebab

/-- The shelf is well formed, and a book has the content field of its superclass first. -/
theorem build_accepts_shelf :
    ∃ schema, shelf.build = .ok schema ∧ shelf.WellFormed ∧ shelf.Describes schema ∧
      (schema.layout? "Book").map (fun layout => layout.fields.map (·.tag)) =
        some ["title", "shelf-mark"] := by
  have tags : (shelf.build.toOption.bind (·.layout? "Book")).map
      (fun layout => layout.fields.map (·.tag)) = some ["title", "shelf-mark"] := by decide +kernel
  cases built : shelf.build with
  | error error =>
      rw [built] at tags
      cases tags
  | ok schema =>
      rw [built] at tags
      obtain ⟨accepts, describes⟩ := build_accepts_wellFormed shelf
      exact ⟨schema, rfl, accepts.1 ⟨schema, built⟩, describes schema built, tags⟩

end Trellis.Schema
