import Trellis.Proofs.Reading.Runs
import Trellis.Reading.Access

/-!
An element at hand.

Where all content of an element is there, the readers that take an element in whatever way are the
readers of its content.
-/

namespace Trellis.Reading

open Trellis.Graph (Entity Value)
open Markup (Content Tag)
open Schema (Collection Field ItemType Layout MapEncoding ScalarType TaggedField)

def Context.atHand (context : Context) (tag : Tag) (inside : Content) : Access Read where
  context
  tag := pure tag
  text := liftM (context.textOf inside)
  tree := liftM (context.treeOf tag inside)
  skip := liftM (context.passContent inside)
  begin := context.beginEntity
  still := id

variable {context : Context} {tag : Tag} {inside : Content}

private theorem atHand_tag_bind {α : Type} (next : Tag → Read α) :
    (context.atHand tag inside).tag >>= next = next tag :=
  pure_bind tag next

private theorem atHand_scalar (field : Field) (type : ScalarType) :
    (context.atHand tag inside).scalar field type = liftM (context.scalar field type tag inside) := by
  unfold Access.scalar Context.scalar
  rw [atHand_tag_bind]
  cases type with
  | tree =>
      simp only
      rw [← bind_pure_comp, Read.lift_bind]
      rfl
  | boolean | character | integer | floating | text | date =>
      simp only
      rw [Read.lift_bind]
      rfl

private theorem atHand_unknown :
    (context.atHand tag inside).unknown = liftM (context.passElement tag inside) := by
  unfold Access.unknown Context.passElement
  rw [atHand_tag_bind]
  change (if context.strict = true then _ else _) = _
  split <;> rfl

/-! ### Maps -/

private theorem atHand_part (field : Field) (parts : EntryParts) :
    (context.atHand tag inside).part field parts =
      liftM (context.entryPart field parts tag inside) := by
  unfold Access.part Context.entryPart
  rw [atHand_tag_bind]
  split
  · rw [Read.lift_bind]
    rfl
  · split
    · rw [Read.lift_bind]
      rfl
    · rw [Read.lift_bind]
      rfl

private theorem atHand_mapItem (id : EntityId) (field : TaggedField) (encoding : MapEncoding)
    (entries : OrderedMap String String) :
    (context.atHand tag inside).mapItem id field encoding entries
        (liftM (context.entryParts field.declared {} inside)) =
      context.readEntry id field encoding entries tag inside := by
  unfold Access.mapItem Context.readEntry
  rw [atHand_tag_bind]
  cases encoding with
  | inline => rfl
  | explode =>
      simp only
      rw [atHand_unknown]
      rfl

theorem atHand_map (frame : Frame) (values : FieldValues) (field : TaggedField)
    (encoding : MapEncoding) :
    (context.atHand tag inside).map frame values field
        (context.readEntries frame.id field encoding [] inside) =
      context.readMap frame values field encoding tag inside :=
  rfl

/-! ### Entities and their children -/

private theorem atHand_content (frame : Frame) (values : FieldValues) (field : TaggedField) :
    (context.atHand tag inside).content frame values field =
      context.readContentField frame values field tag inside := by
  unfold Access.content Context.readContentField
  simp only [atHand_scalar]
  rfl

variable {children : ChildReader} {items : ItemsReader}

theorem atHand_entity (className : String) (atRoot : Bool) :
    (context.atHand tag inside).entity className atRoot children =
      context.entity className tag inside atRoot children := by
  unfold Access.entity Context.entity
  rw [atHand_tag_bind]
  apply bind_congr
  rintro ⟨frame, values⟩
  simp only
  cases frame.layout.contentField? with
  | none => rfl
  | some field =>
      simp only
      rw [atHand_content]

theorem atHand_item (field : TaggedField) (type : ItemType) :
    (context.atHand tag inside).item field type children =
      context.item field type tag inside children >>= fun value => pure (tag, value) := by
  unfold Access.item Context.item
  rw [atHand_tag_bind]
  cases type with
  | entity className =>
      simp only
      rw [atHand_entity, bind_map_left]
  | scalar type =>
      simp only
      rw [atHand_scalar]

theorem atHand_unwrapped (frame : Frame) (values : FieldValues) (field : TaggedField)
    (collection : Collection) (type : ItemType) :
    (context.atHand tag inside).unwrapped frame values field collection type children =
      context.unwrapped frame values field collection type tag inside children := by
  unfold Access.unwrapped Context.unwrapped
  rw [atHand_item, bind_assoc]
  rfl

theorem atHand_wrapped (frame : Frame) (values : FieldValues) (field : TaggedField)
    (collection : Collection) (type : ItemType) :
    (context.atHand tag inside).wrapped frame values field collection type items =
      context.wrapped frame values field collection type tag items :=
  rfl

theorem atHand_field (frame : Frame) (values : FieldValues) (field : TaggedField) :
    (context.atHand tag inside).field frame values field children items
        (fun encoding => context.readEntries frame.id field encoding [] inside) =
      context.field frame values field tag inside children items := by
  unfold Access.field Context.field
  rw [atHand_tag_bind]
  cases field.declared.kind with
  | scalar type =>
      simp only
      rw [atHand_scalar]
      rfl
  | one target =>
      simp only
      rw [atHand_entity]
  | many collection type wrapped =>
      cases wrapped with
      | true => rfl
      | false => exact atHand_unwrapped frame values field collection type
  | map encoding => rfl

/-! ### Loops over content -/

theorem entryParts_eq_part (field : Field) (parts : EntryParts) (rest : Content) :
    (liftM (context.entryParts field parts (.element tag inside rest)) : Read EntryParts) =
      (context.atHand tag inside).part field parts >>= fun parts =>
        liftM (context.entryParts field parts rest) := by
  rw [atHand_part, Context.entryParts, Read.lift_bind]

theorem readEntries_eq_mapItem (id : EntityId) (field : TaggedField) (encoding : MapEncoding)
    (entries : OrderedMap String String) (rest : Content) :
    context.readEntries id field encoding entries (.element tag inside rest) =
      (context.atHand tag inside).mapItem id field encoding entries
          (liftM (context.entryParts field.declared {} inside)) >>= fun entries =>
        context.readEntries id field encoding entries rest := by
  rw [atHand_mapItem, Context.readEntries]

theorem readChildren_eq_child (frame : Frame) (values : FieldValues) (seen : List String)
    (rest : Content) :
    context.readChildren frame values seen (.element tag inside rest) =
      (context.atHand tag inside).child frame values seen (context.childrenIn inside)
          (fun field => context.itemsIn frame.id field inside)
          (fun field encoding => context.readEntries frame.id field encoding [] inside) >>=
        fun (values, seen) => context.readChildren frame values seen rest := by
  unfold Access.child
  rw [atHand_tag_bind, Context.readChildren]
  cases frame.layout.elementField? tag.name with
  | none =>
      simp only
      rw [atHand_unknown, bind_assoc]
      rfl
  | some field =>
      simp only [atHand_field, bind_assoc]
      rfl

theorem readItems_eq_addItem (id : EntityId) (field : TaggedField) (collection : Collection)
    (type : ItemType) (holder : Value) (rest : Content) :
    context.readItems id field collection type holder (.element tag inside rest) =
      (context.atHand tag inside).addItem id field collection type holder
          (context.childrenIn inside) >>= fun holder =>
        context.readItems id field collection type holder rest := by
  unfold Access.addItem
  rw [atHand_tag_bind, Context.readItems]
  split
  · simp only [atHand_item, bind_assoc]
    rfl
  · rw [atHand_unknown, bind_assoc]
    rfl

/-! ### Documents -/

/-- The graph of a document whose first element is at hand. -/
def Context.readRoot (context : Context) (className : String) (layout : Layout) (tag : Tag)
    (inside : Content) : Read ObjectGraph :=
  (context.atHand tag inside).root className layout (context.childrenIn inside)
    (pure (inside.encoding?.getD Markup.defaultEncoding))

theorem readDocument_eq_readRoot {className : String} {layout : Layout}
    (layoutEq : context.schema.layout? className = some layout) :
    context.readDocument className (.rooted tag inside) =
      (context.readRoot className layout tag inside .initial).map Prod.fst := by
  unfold Context.readDocument Context.readRoot Access.root
  rw [atHand_tag_bind]
  simp only [layoutEq]
  change _ = Except.map Prod.fst ((if (context.strict && decide (tag.name ≠ layout.tag)) = true
    then _ else _ : Read ObjectGraph) .initial)
  by_cases refused : (context.strict && decide (tag.name ≠ layout.tag)) = true
  · rw [if_pos refused, if_pos refused]
    rfl
  · rw [if_neg refused, if_neg refused, atHand_entity, Read.bind_apply]
    unfold Context.readEntity
    change Except.bind (context.entity _ _ _ _ _ .initial) _ = _
    cases context.entity className tag inside true (context.childrenIn inside) .initial <;> rfl

end Trellis.Reading
