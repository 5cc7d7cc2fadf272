import Trellis.Proofs.Reading.Starts
import Trellis.Reading.Access

/-!
Readers of elements that come to the same.

Two ways of reading are compared by a relation that says where a reader is entered and where it leaves
off.  If two accesses to an element are alike, then so are all readers that use them, whatever the
relation is: a walk follows the reader of a content, a pull mirrors a walk, and a read that counts
identities comes to what the read without the counter comes to.
-/

namespace Trellis.Reading

open Trellis.Graph (Entity Value)
open Markup (Content Tag)
open Schema (Collection Field ItemType Layout MapEncoding ScalarType TaggedField)

/-- A relation of two ways of reading.  A reader goes from one stage to another. -/
structure Likeness (m n : Type → Type) [Monad m] [Monad n] where
  Stage : Type
  Like : {α : Type} → Stage → Stage → m α → n α → Prop
  of_pure : ∀ {α : Type} (stage : Stage) (value : α), Like stage stage (pure value) (pure value)
  bind : ∀ {α β : Type} {first second third : Stage} {one : m α} {one' : n α} {next : α → m β}
    {next' : α → n β}, Like first second one one' →
      (∀ value, Like second third (next value) (next' value)) →
      Like first third (one >>= next) (one' >>= next')

/-- The read gives out no identity. -/
def GivesNone {α : Type} (read : Read α) : Prop :=
  ∀ session value session', read session = .ok (value, session') → session'.nextId = session.nextId

namespace GivesNone

variable {α : Type}

private theorem of_gives {context : Context} {own : Owned} {read : Read α}
    (gives : Gives context [] own read) : GivesNone read :=
  fun session value session' runs => (gives session value session' runs).nextId_eq

theorem lift (outcome : Except ReadError α) : GivesNone (liftM outcome : Read α) := by
  intro session value session' runs
  obtain ⟨_, rfl⟩ := Read.lift_eq_ok runs
  rfl

theorem throw (error : ReadError) : GivesNone (throw error : Read α) := by
  intro session value session' runs
  cases runs

theorem recordField (id : EntityId) (field : String) (location : Location) :
    GivesNone (recordField id field location) := by
  intro session value session' runs
  cases runs
  rfl

theorem recordEntry (id : EntityId) (field : String) (key : EntryKey) (location : Location) :
    GivesNone (recordEntry id field key location) := by
  intro session value session' runs
  cases runs
  rfl

theorem recordCollection (id : EntityId) (field : String) (type : ItemType) (location : Location) :
    GivesNone (recordCollection id field type location) := by
  unfold Trellis.Reading.recordCollection
  split
  · exact .recordField id field location
  · intro session value session' runs
    cases runs
    rfl

theorem readEntries (context : Context) (id : EntityId) (field : TaggedField)
    (encoding : MapEncoding) (entries : OrderedMap String String) (content : Content) :
    GivesNone (context.readEntries id field encoding entries content) :=
  .of_gives (gives_readEntries context id field encoding content entries)

theorem addItem (context : Context) (id : EntityId) (field : TaggedField) (collection : Collection)
    (type : ItemType) (tag : Tag) (holder value : Value) :
    GivesNone (context.addItem id field collection type tag holder value) :=
  .of_gives (gives_addItem context id field collection type tag holder value)

theorem keepItem (context : Context) (frame : Frame) (values : FieldValues) (field : TaggedField)
    (collection : Collection) (type : ItemType) (tag : Tag) (value : Value) :
    GivesNone (context.keepItem frame values field collection type tag value) :=
  .of_gives (gives_keepItem context frame values field collection type tag value)

theorem get : GivesNone (get : Read Session) := by
  intro session value session' runs
  cases runs
  rfl

end GivesNone

variable {m n : Type → Type} [Monad m] [Monad n]

namespace Access

/-- The element is taken alike by both from the one stage to the other. -/
structure Alike (likeness : Likeness m n) (access : Access m) (access' : Access n)
    (here done : likeness.Stage) : Prop where
  context_eq : access.context = access'.context
  tag : likeness.Like here here access.tag access'.tag
  text : likeness.Like here done access.text access'.text
  tree : likeness.Like here done access.tree access'.tree
  skip : likeness.Like here done access.skip access'.skip
  still : ∀ {α : Type} (stage : likeness.Stage) {read : Read α}, GivesNone read →
    likeness.Like stage stage (access.still read) (access'.still read)
  fail : ∀ {α : Type} (first second : likeness.Stage) (error : ReadError),
    likeness.Like first second (access.still (throw error : Read α)) (access'.still (throw error))

/-- An entity that the element is begins alike for both, and then the rest of the element is taken
alike. -/
structure Enters (likeness : Likeness m n) (access : Access m) (access' : Access n)
    (here begun done : likeness.Stage) : Prop extends access.Alike likeness access' here done where
  begin : ∀ className tag atRoot,
    likeness.Like here begun (access.begin className tag atRoot) (access'.begin className tag atRoot)
  goesOn : access.Alike likeness access' begun done

variable {likeness : Likeness m n} {access : Access m} {access' : Access n}
  {here begun done : likeness.Stage}

namespace Alike

variable (alike : access.Alike likeness access' here done)
include alike

theorem scalar (field : Field) (type : ScalarType) :
    likeness.Like here done (access.scalar field type) (access'.scalar field type) := by
  unfold Access.scalar
  rw [alike.context_eq]
  apply likeness.bind alike.tag
  intro tag
  have text := likeness.bind alike.text fun text => alike.still done
    (.lift (coerce access'.context.strict field type text (access'.context.locate tag.position)))
  cases type with
  | tree => exact likeness.bind alike.tree fun tree => likeness.of_pure done _
  | boolean | character | integer | floating | text | date => exact text

theorem unknown : likeness.Like here done access.unknown access'.unknown := by
  unfold Access.unknown
  rw [alike.context_eq]
  apply likeness.bind alike.tag
  intro tag
  split
  · exact alike.fail here done _
  · exact alike.skip

/-! ### Maps -/

theorem part (field : Field) (parts : EntryParts) :
    likeness.Like here done (access.part field parts) (access'.part field parts) := by
  unfold Access.part
  apply likeness.bind alike.tag
  intro tag
  split
  · exact likeness.bind alike.text fun text => likeness.of_pure done _
  · split
    · exact likeness.bind alike.text fun text => likeness.of_pure done _
    · exact likeness.bind alike.skip fun _ => likeness.of_pure done _

theorem mapItem (id : EntityId) (field : TaggedField) (encoding : MapEncoding)
    (entries : OrderedMap String String) {entry : m EntryParts} {entry' : n EntryParts}
    (entryAlike : likeness.Like here done entry entry') :
    likeness.Like here done (access.mapItem id field encoding entries entry)
      (access'.mapItem id field encoding entries entry') := by
  unfold Access.mapItem
  rw [alike.context_eq]
  apply likeness.bind alike.tag
  intro tag
  cases encoding with
  | inline =>
      apply likeness.bind alike.text
      intro text
      exact likeness.bind (alike.still done (.recordEntry _ _ _ _)) fun _ => likeness.of_pure done _
  | explode =>
      simp only
      split
      · apply likeness.bind entryAlike
        intro parts
        exact likeness.bind (alike.still done (.recordEntry _ _ _ _)) fun _ => likeness.of_pure done _
      · exact likeness.bind alike.unknown fun _ => likeness.of_pure done _

theorem map (frame : Frame) (values : FieldValues) (field : TaggedField)
    {entries : m (OrderedMap String String)} {entries' : n (OrderedMap String String)}
    (entriesAlike : likeness.Like here done entries entries') :
    likeness.Like here done (access.map frame values field entries)
      (access'.map frame values field entries') := by
  unfold Access.map
  rw [alike.context_eq]
  apply likeness.bind alike.tag
  intro tag
  apply likeness.bind (alike.still here (.recordField _ _ _))
  intro _
  exact likeness.bind entriesAlike fun entries => likeness.of_pure done _

theorem content (frame : Frame) (values : FieldValues) (field : TaggedField) :
    likeness.Like here done (access.content frame values field)
      (access'.content frame values field) := by
  unfold Access.content
  cases field.declared.scalarType? with
  | none => exact likeness.bind alike.skip fun _ => likeness.of_pure done _
  | some type =>
      apply likeness.bind (alike.scalar field.declared type)
      intro value
      exact likeness.bind (alike.still done (.recordField _ _ _)) fun _ => likeness.of_pure done _

end Alike

/-! ### Entities and their children -/

namespace Enters

variable {children : ChildrenOf m} {children' : ChildrenOf n} {items : ItemsOf m} {items' : ItemsOf n}
variable (enters : access.Enters likeness access' here begun done)
variable (childrenAlike : ∀ frame values,
  likeness.Like begun done (children frame values) (children' frame values))
include enters childrenAlike

theorem entity (className : String) (atRoot : Bool) :
    likeness.Like here done (access.entity className atRoot children)
      (access'.entity className atRoot children') := by
  apply likeness.bind enters.tag
  intro tag
  apply likeness.bind (enters.begin className tag atRoot)
  rintro ⟨frame, values⟩
  simp only
  cases frame.layout.contentField? with
  | some field =>
      exact likeness.bind (enters.goesOn.content frame values field) fun values =>
        likeness.of_pure done _
  | none => exact likeness.bind (childrenAlike frame values) fun values => likeness.of_pure done _

theorem item (field : TaggedField) (type : ItemType) :
    likeness.Like here done (access.item field type children) (access'.item field type children') := by
  apply likeness.bind enters.tag
  intro tag
  cases type with
  | entity className =>
      exact likeness.bind (enters.entity childrenAlike className false) fun entity =>
        likeness.of_pure done _
  | scalar type =>
      exact likeness.bind (enters.scalar field.declared type) fun value => likeness.of_pure done _

theorem unwrapped (frame : Frame) (values : FieldValues) (field : TaggedField)
    (collection : Collection) (type : ItemType) :
    likeness.Like here done (access.unwrapped frame values field collection type children)
      (access'.unwrapped frame values field collection type children') := by
  unfold Access.unwrapped
  rw [enters.context_eq]
  apply likeness.bind (enters.item childrenAlike field type)
  rintro ⟨tag, value⟩
  exact enters.still done (.keepItem _ frame values field collection type tag value)

omit childrenAlike in
theorem wrapped (frame : Frame) (values : FieldValues) (field : TaggedField) (collection : Collection)
    (type : ItemType)
    (itemsAlike : likeness.Like here done (items collection type) (items' collection type)) :
    likeness.Like here done (access.wrapped frame values field collection type items)
      (access'.wrapped frame values field collection type items') := by
  unfold Access.wrapped
  rw [enters.context_eq]
  apply likeness.bind enters.tag
  intro tag
  apply likeness.bind (enters.still here (.recordCollection _ _ _ _))
  intro _
  exact likeness.bind itemsAlike fun holder => likeness.of_pure done _

theorem field (frame : Frame) (values : FieldValues) (field : TaggedField) {entries : EntriesOf m}
    {entries' : EntriesOf n}
    (itemsAlike : ∀ collection type,
      likeness.Like here done (items collection type) (items' collection type))
    (entriesAlike : ∀ encoding, likeness.Like here done (entries encoding) (entries' encoding)) :
    likeness.Like here done (access.field frame values field children items entries)
      (access'.field frame values field children' items' entries') := by
  apply likeness.bind enters.tag
  intro tag
  cases field.declared.kind with
  | scalar type =>
      simp only
      rw [enters.context_eq]
      apply likeness.bind (enters.scalar field.declared type)
      intro value
      exact likeness.bind (enters.still done (.recordField _ _ _)) fun _ => likeness.of_pure done _
  | one target =>
      exact likeness.bind (enters.entity childrenAlike target false) fun entity =>
        likeness.of_pure done _
  | many collection type wrapped =>
      cases wrapped with
      | true => exact enters.wrapped frame values field collection type (itemsAlike collection type)
      | false => exact enters.unwrapped childrenAlike frame values field collection type
  | map encoding => exact enters.map frame values field (entriesAlike encoding)

theorem child (frame : Frame) (values : FieldValues) (seen : List String)
    {items : TaggedField → ItemsOf m} {items' : TaggedField → ItemsOf n}
    {entries : TaggedField → EntriesOf m} {entries' : TaggedField → EntriesOf n}
    (itemsAlike : ∀ field collection type,
      likeness.Like here done (items field collection type) (items' field collection type))
    (entriesAlike : ∀ field encoding,
      likeness.Like here done (entries field encoding) (entries' field encoding)) :
    likeness.Like here done (access.child frame values seen children items entries)
      (access'.child frame values seen children' items' entries') := by
  apply likeness.bind enters.tag
  intro tag
  cases frame.layout.elementField? tag.name with
  | none => exact likeness.bind enters.unknown fun _ => likeness.of_pure done _
  | some field =>
      simp only
      rw [enters.context_eq]
      apply likeness.bind (enters.still here (.lift _))
      intro seen
      exact likeness.bind
        (enters.field childrenAlike frame values field (itemsAlike field) (entriesAlike field))
        fun values => likeness.of_pure done _

theorem addItem (id : EntityId) (field : TaggedField) (collection : Collection) (type : ItemType)
    (holder : Value) :
    likeness.Like here done (access.addItem id field collection type holder children)
      (access'.addItem id field collection type holder children') := by
  unfold Access.addItem
  rw [enters.context_eq]
  apply likeness.bind enters.tag
  intro tag
  split
  · apply likeness.bind (enters.item childrenAlike field type)
    rintro ⟨tag, value⟩
    exact enters.still done (.addItem _ id field collection type tag holder value)
  · exact likeness.bind enters.unknown fun _ => likeness.of_pure done _

/-! ### Documents -/

theorem root (className : String) (layout : Layout) {encoding : m String} {encoding' : n String}
    (encodingAlike : likeness.Like done done encoding encoding') :
    likeness.Like here done (access.root className layout children encoding)
      (access'.root className layout children' encoding') := by
  unfold Access.root
  rw [enters.context_eq]
  apply likeness.bind enters.tag
  intro tag
  split
  · exact enters.fail here done _
  · apply likeness.bind (enters.entity childrenAlike className true)
    intro root
    apply likeness.bind encodingAlike
    intro encoding
    exact likeness.bind (enters.still done .get) fun session => likeness.of_pure done _

theorem document (className : String) (start : likeness.Stage) {toRoot : Layout → m Unit}
    {toRoot' : Layout → n Unit} {encoding : m String} {encoding' : n String}
    (toRootAlike : ∀ layout, likeness.Like start here (toRoot layout) (toRoot' layout))
    (encodingAlike : likeness.Like done done encoding encoding') :
    likeness.Like start done (access.document className toRoot children encoding)
      (access'.document className toRoot' children' encoding') := by
  unfold Access.document
  rw [enters.context_eq]
  split
  · exact enters.fail start done _
  · exact likeness.bind (toRootAlike _) fun _ =>
      enters.root childrenAlike className _ encodingAlike

end Enters

end Access

end Trellis.Reading
