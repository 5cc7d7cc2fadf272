import Trellis.Proofs.Walk.Cursor

/-!
What the elements of a document are read for, and what errors say about them.

A schema says by their names what the elements inside an element are for.  So the tokens that a read
has passed tell which elements are open and what each of them is being read for, however the read goes
about it.  An error is blamed on the last of these tokens, or, if it is about a text, on the start tag
of the element whose text it is.
-/

namespace Trellis.Reading

open Markup (Tag Token TokenStream)
open Schema (Field ItemType Layout MapEncoding ScalarType TaggedField)

/-! ### Purposes -/

/-- What an element is read for. -/
inductive Purpose where
  | entity (className : String)
  | scalar (field : Field) (type : ScalarType)
  | items (field : TaggedField) (type : ItemType)
  | entries (field : TaggedField) (encoding : MapEncoding)
  | entry
  | text
  | none

def itemPurpose (field : Field) : ItemType → Purpose
  | .entity className => .entity className
  | .scalar type => .scalar field type

def fieldPurpose (field : TaggedField) : Purpose :=
  match field.declared.kind with
  | .scalar type => .scalar field.declared type
  | .one target => .entity target
  | .many _ type true => .items field type
  | .many _ type false => itemPurpose field.declared type
  | .map encoding => .entries field encoding

/-- What a child of an entity with the layout is for.  A content field takes the whole element. -/
def childPurpose (layout : Layout) (name : String) : Purpose :=
  if layout.contentField?.isSome then .none
  else (layout.elementField? name).elim .none fieldPurpose

def Purpose.inner (schema : Schema) (purpose : Purpose) (name : String) : Purpose :=
  match purpose with
  | .entity className => (schema.layout? className).elim .none (childPurpose · name)
  | .items field type => if name = field.itemTag then itemPurpose field.declared type else .none
  | .entries _ .inline => .text
  | .entries field .explode => if name = field.itemTag then .entry else .none
  | .entry => if name = "key" ∨ name = "value" then .text else .none
  | .scalar _ _ | .text | .none => .none

/-- The text of an element for this purpose is read as a value of the field: that of a scalar, or that
of an entity with a content field. -/
def Purpose.TakesText (schema : Schema) (purpose : Purpose) (field : Field) (type : ScalarType) : Prop :=
  match purpose with
  | .scalar own ownType => own = field ∧ ownType = type
  | .entity className => ∃ layout content, schema.layout? className = some layout ∧
      layout.contentField? = some content ∧ content.declared = field ∧ field.scalarType? = some type
  | _ => False

/-! ### Open elements -/

/-- A document that is read: by what context, as an entity of what class, and what its tokens are. -/
structure Course where
  context : Context
  className : String
  stream : TokenStream

structure OpenElement where
  tag : Tag
  purpose : Purpose

namespace Course

variable (course : Course)

def purposeOf (opened : List OpenElement) (name : String) : Purpose :=
  match opened with
  | [] => .entity course.className
  | outer :: _ => outer.purpose.inner course.context.schema name

def openAfter (opened : List OpenElement) (token : Token) : List OpenElement :=
  match token.kind with
  | .opening name attributes =>
      ⟨⟨name, attributes, token.position⟩, course.purposeOf opened name⟩ :: opened
  | .text _ => opened
  | .closing _ => opened.tail

def opened (passed : List Token) : List OpenElement :=
  passed.foldl course.openAfter []

end Course

/-! ### Errors -/

inductive StartError (context : Context) (className : String) (tag : Tag) : ReadError → Prop
  | unknownClass (unknown : context.schema.find? className = none) :
      StartError context className tag (.unknownClass className)
  | abstractClass : StartError context className tag (.abstractClass className)
  | unknownAttribute {layout : Layout} {name raw : String}
      (known : context.schema.layout? className = some layout) (member : (name, raw) ∈ tag.attributes)
      (unclaimed : layout.attributeField? name = none) :
      StartError context className tag (.unknownAttribute name tag.name (context.locate tag.position))
  | missingAttribute {layout : Layout} {field : TaggedField}
      (known : context.schema.layout? className = some layout) (member : field ∈ layout.attributeFields)
      (absent : ∀ pair ∈ tag.attributes, pair.1 ≠ field.tag) :
      StartError context className tag
        (.missingAttribute field.tag tag.name (context.locate tag.position))
  | attribute {layout : Layout} {name raw : String} {field : TaggedField} {type : ScalarType}
      (known : context.schema.layout? className = some layout) (member : (name, raw) ∈ tag.attributes)
      (claimed : layout.attributeField? name = some field)
      (typed : field.declared.scalarType? = some type)
      (unread : scalarOf? field.declared type (fieldText field.declared raw) = none) :
      StartError context className tag (.coercion field.declared.name type
        (fieldText field.declared raw) (context.locate tag.position))
  | default {layout : Layout} {raw : String} {field : TaggedField} {type : ScalarType}
      (known : context.schema.layout? className = some layout) (member : field ∈ layout.fields)
      (given : field.declared.default = some raw) (typed : field.declared.scalarType? = some type)
      (unread : scalarOf? field.declared type (fieldText field.declared raw) = none) :
      StartError context className tag (.coercion field.declared.name type
        (fieldText field.declared raw) (context.locate tag.position))

/-- The element that a start tag begins has no place: none of the fields takes it, or its field has
been given before, or only text may stand here. -/
inductive ElementError (course : Course) (opened : List OpenElement) (tag : Tag) : ReadError → Prop
  | unknown (strict : course.context.strict = true)
      (unclaimed : course.purposeOf opened tag.name = .none) :
      ElementError course opened tag
        (.unknownElement tag.name (course.context.locate tag.position))
  | duplicate :
      ElementError course opened tag
        (.duplicateElement tag.name (course.context.locate tag.position))
  | unexpected :
      ElementError course opened tag
        (.unexpectedElement tag.name (course.context.locate tag.position))

structure IsStart (token : Token) (tag : Tag) : Prop where
  kind_eq : token.kind = .opening tag.name tag.attributes
  position_eq : token.position = tag.position

def IsStartTag (token : Token) : Prop :=
  ∃ tag, IsStart token tag

/-- What an error says that is noticed when these tokens have been passed. -/
inductive Blames (course : Course) : List Token → ReadError → Prop
  | unread (unknown : course.context.schema.layout? course.className = none) :
      Blames course [] (.unknownClass course.className)
  | noElement {layout : Layout} {first again : Position} {encoding : String}
      (known : course.context.schema.layout? course.className = some layout)
      (ends : course.stream.ending = .finished first again encoding) :
      Blames course course.stream.tokens (.noElement layout.tag (course.context.locate first))
  /-- The document does not go on, and all of it has been passed. -/
  | unexpectedEnd {first again : Position} {encoding : String}
      (ends : course.stream.ending = .finished first again encoding) :
      Blames course course.stream.tokens (.unexpectedEnd (course.context.locate first))
  | markup {error : Markup.MarkupError} (breaks : course.stream.ending = .failed error) :
      Blames course course.stream.tokens (.markup error)
  | unexpectedRoot {front : List Token} {token : Token} {tag : Tag} {layout : Layout}
      (isStart : IsStart token tag) (isFirst : ∀ earlier ∈ front, ¬ IsStartTag earlier)
      (strict : course.context.strict = true)
      (known : course.context.schema.layout? course.className = some layout)
      (other : tag.name ≠ layout.tag) :
      Blames course (front ++ [token])
        (.unexpectedRoot layout.tag tag.name (course.context.locate tag.position))
  | start {front : List Token} {token : Token} {tag : Tag} {className : String} {error : ReadError}
      (isStart : IsStart token tag)
      (isEntity : course.purposeOf (course.opened front) tag.name = .entity className)
      (startError : StartError course.context className tag error) :
      Blames course (front ++ [token]) error
  | element {front : List Token} {token : Token} {tag : Tag} {error : ReadError}
      (isStart : IsStart token tag) (elementError : ElementError course (course.opened front) tag error) :
      Blames course (front ++ [token]) error
  | text {front : List Token} {token : Token} {content : String} (kind : token.kind = .text content)
      (strict : course.context.strict = true) (filled : Text.isBlankText content = false) :
      Blames course (front ++ [token]) (.unexpectedText (course.context.locate token.position))
  /-- The text of an element that has just ended cannot be read, and what is blamed is its start
  tag. -/
  | coercion {front inside : List Token} {opening closing : Token} {tag : Tag} {name : String}
      {texts : List String} {field : Field} {type : ScalarType} (isStart : IsStart opening tag)
      (insideEq : inside.map (·.kind) = texts.map .text) (closingKind : closing.kind = .closing name)
      (takesText : (course.purposeOf (course.opened front) tag.name).TakesText course.context.schema
        field type)
      (unread : scalarOf? field type (fieldText field (String.join texts)) = none) :
      Blames course (front ++ opening :: (inside ++ [closing])) (.coercion field.name type
        (fieldText field (String.join texts)) (course.context.locate tag.position))

end Trellis.Reading
