import Trellis.Proofs.Markup.Formats

/-!
Child elements in another order.

Two orders of the same children can be told apart by the children that must keep their order among
themselves: where these stand alike, neighbours that are free to change places lead from the one to
the other.
-/

namespace Trellis.Markup

/-! ### Rows in other orders -/

section Rows

variable {α κ : Type}

/-- Neighbours have changed places, any number of times.  Items with one key stay as they stand to
one another; items without key are free. -/
inductive Rearranged (key? : α → Option κ) : List α → List α → Prop
  | refl (items : List α) : Rearranged key? items items
  | cons {items items' : List α} (item : α) (rearranged : Rearranged key? items items') :
      Rearranged key? (item :: items) (item :: items')
  | swap (first second : α) (rest : List α)
      (free : ∀ key, key? first = some key → key? second ≠ some key) :
      Rearranged key? (first :: second :: rest) (second :: first :: rest)
  | trans {items items' items'' : List α} (left : Rearranged key? items items')
      (right : Rearranged key? items' items'') : Rearranged key? items items''

/-- The second row has the items of the first one, and those with one key in the same order. -/
structure Permutes [DecidableEq κ] (key? : α → Option κ) (items items' : List α) : Prop where
  perm : items.Perm items'
  inOrder : ∀ key, items.filter (key? · = some key) = items'.filter (key? · = some key)

variable {key? : α → Option κ}

theorem Rearranged.move_front {item : α} {front : List α} (rest : List α)
    (free : ∀ other ∈ front, ∀ key, key? item = some key → key? other ≠ some key) :
    Rearranged key? (item :: (front ++ rest)) (front ++ item :: rest) := by
  induction front with
  | nil => exact .refl _
  | cons other front ih =>
      have swapped := Rearranged.swap item other (front ++ rest) (free other List.mem_cons_self)
      exact swapped.trans (.cons other (ih fun next member => free next (.tail other member)))

variable [DecidableEq κ]

theorem Permutes.rearranged {items items' : List α} (permutes : Permutes key? items items') :
    Rearranged key? items items' := by
  induction items generalizing items' with
  | nil =>
      rw [permutes.perm.nil_eq]
      exact .refl _
  | cons item items ih =>
      have member : item ∈ items' := permutes.perm.mem_iff.1 List.mem_cons_self
      obtain ⟨front, rest, rfl, fresh⟩ := List.eq_append_cons_of_mem member
      -- An item of the key in front of its first occurrence would have come first before, too.
      have free : ∀ other ∈ front, ∀ key, key? item = some key → key? other ≠ some key := by
        intro other isOther key itemKey otherKey
        have inOrder := permutes.inOrder key
        rw [List.filter_cons_of_pos (by simpa using itemKey), List.filter_append] at inOrder
        have kept : other ∈ front.filter (key? · = some key) :=
          List.mem_filter.2 ⟨isOther, by simpa using otherKey⟩
        cases frontEq : front.filter (key? · = some key) with
        | nil =>
            rw [frontEq] at kept
            cases kept
        | cons head others =>
            rw [frontEq, List.cons_append, List.cons.injEq] at inOrder
            have inFront : head ∈ front.filter (key? · = some key) := by
              rw [frontEq]
              exact List.mem_cons_self
            rw [← inOrder.1] at inFront
            exact fresh (List.mem_filter.1 inFront).1
      have others : Permutes key? items (front ++ rest) := by
        constructor
        · exact (permutes.perm.trans List.perm_middle).cons_inv
        · intro key
          have inOrder := permutes.inOrder key
          rw [List.filter_append] at inOrder ⊢
          by_cases itemKey : key? item = some key
          · have noFront : front.filter (key? · = some key) = [] := by
              rw [List.filter_eq_nil_iff]
              intro other isOther
              simpa using free other isOther key itemKey
            rw [List.filter_cons_of_pos (by simpa using itemKey),
              List.filter_cons_of_pos (by simpa using itemKey), noFront, List.nil_append,
              List.cons.injEq] at inOrder
            rw [noFront, List.nil_append]
            exact inOrder.2
          · rw [List.filter_cons_of_neg (by simpa using itemKey),
              List.filter_cons_of_neg (by simpa using itemKey)] at inOrder
            exact inOrder
      exact (Rearranged.cons item (ih others)).trans (.move_front rest free)

theorem Permutes.append_right {items items' : List α} (permutes : Permutes key? items items')
    (rest : List α) : Permutes key? (items ++ rest) (items' ++ rest) where
  perm := permutes.perm.append_right rest
  inOrder key := by rw [List.filter_append, List.filter_append, permutes.inOrder]

theorem Permutes.map {β : Type} {key'? : β → Option κ} {items items' : List α}
    (permutes : Permutes key? items items') (f : α → β)
    (keys : ∀ item ∈ items, key'? (f item) = key? item) :
    Permutes key'? (items.map f) (items'.map f) := by
  constructor
  · exact permutes.perm.map f
  · intro key
    have kept {others : List α} (known : ∀ item ∈ others, item ∈ items) :
        (others.map f).filter (key'? · = some key) =
          (others.filter (key? · = some key)).map f := by
      rw [List.filter_map]
      congr 1
      apply List.filter_congr
      intro item member
      simp only [Function.comp_apply, keys item (known item member)]
    rw [kept fun _ member => member, kept fun _ member => permutes.perm.mem_iff.2 member,
      permutes.inOrder]

end Rows

/-! ### Contents -/

structure Child where
  tag : Tag
  inside : Content

structure Child.Resembles (child child' : Child) : Prop where
  tags : child.tag.Resembles child'.tag
  inside : child.inside.Resembles child'.inside

namespace Content

def children : Content → List Child
  | closed _ | broken _ => []
  | text _ _ rest => rest.children
  | element tag inside rest => ⟨tag, inside⟩ :: rest.children

def words : Content → List String
  | closed _ | broken _ => []
  | text _ content rest => content :: rest.words
  | element _ _ rest => rest.words

def ofChildren (children : List Child) : Content :=
  children.foldr (fun child rest => .element child.tag child.inside rest) (.closed defaultEncoding)

private theorem children_behind (texts : List (Position × String)) (rest : Content) :
    (behind texts rest).children = rest.children := by
  induction texts with
  | nil => rfl
  | cons text texts ih => exact ih

private theorem words_behind (texts : List (Position × String)) (rest : Content) :
    (behind texts rest).words = texts.map (·.2) ++ rest.words := by
  induction texts with
  | nil => rfl
  | cons text texts ih => exact congrArg (text.2 :: ·) ih

private theorem isBlankText_joined (texts : List (Position × String)) :
    Text.isBlankText (joined texts) = true ↔
      ∀ word ∈ texts.map (·.2), Text.isBlankText word = true := by
  induction texts with
  | nil => exact ⟨fun _ => nofun, fun _ => rfl⟩
  | cons text texts ih =>
      change Text.isBlankText (text.2 ++ joined texts) = true ↔ _
      rw [Text.isBlankText_append, Bool.and_eq_true, ih, List.map_cons, List.forall_mem_cons]

theorem Resembles.children {content content' : Content} (resembles : content.Resembles content')
    (complete : content.break? = none) :
    List.Forall₂ Child.Resembles content.children content'.children := by
  induction resembles with
  | closed encoding encoding' => exact .nil
  | broken texts ending content =>
      rw [break?_behind] at complete
      cases complete
  | texts _ _ ih =>
      rw [break?_behind] at complete
      rw [children_behind, children_behind]
      exact ih complete
  | element tags inside _ _ ih => exact .cons ⟨tags, inside⟩ (ih complete)

theorem Resembles.blank {content content' : Content} (resembles : content.Resembles content')
    (complete : content.break? = none) (blank : ∀ word ∈ content.words, Text.isBlankText word = true) :
    ∀ word ∈ content'.words, Text.isBlankText word = true := by
  induction resembles with
  | closed encoding encoding' => exact nofun
  | broken texts ending content =>
      rw [break?_behind] at complete
      cases complete
  | texts same _ ih =>
      rw [break?_behind] at complete
      rw [words_behind, List.forall_mem_append, ← isBlankText_joined] at blank ⊢
      rw [← same]
      exact ⟨blank.1, ih complete blank.2⟩
  | element _ _ _ _ ih => exact ih complete blank

theorem Resembles.ofChildren {children children' : List Child}
    (each : List.Forall₂ Child.Resembles children children') :
    (ofChildren children).Resembles (ofChildren children') := by
  induction each with
  | nil => exact .closed _ _
  | cons first _ ih => exact .element first.tags first.inside ih

/-- The child elements of the contents are, as they would be written elsewhere, those of a row and
those of the row in another order.  Where the texts of the first content are blank, those of the second
one are. -/
inductive Rearranges {κ : Type} [DecidableEq κ] (key? : String → Option κ) : Content → Content → Prop
  | children {content content' : Content} {row row' : List Child}
      (complete : content'.break? = none)
      (before : List.Forall₂ Child.Resembles content.children row)
      (permutes : Permutes (fun child => key? child.tag.name) row row')
      (after : List.Forall₂ Child.Resembles row' content'.children)
      (blank : (∀ word ∈ content.words, Text.isBlankText word = true) →
        ∀ word ∈ content'.words, Text.isBlankText word = true) :
      Rearranges key? content content'
  | broken {content : Content} {ending : Ending} (breaks : content.break? = some ending)
      (content' : Content) : Rearranges key? content content'

end Content

inductive Document.Resembles : Document → Document → Prop
  | empty (ending : Ending) (document : Document) : Resembles (.empty ending) document
  | rooted {root root' : Tag} {inside inside' : Content} (tags : root.Resembles root')
      (resembles : inside.Resembles inside') : Resembles (.rooted root inside) (.rooted root' inside')

end Trellis.Markup
