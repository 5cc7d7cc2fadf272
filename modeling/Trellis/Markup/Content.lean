import Trellis.Markup.Scanner

/-!
Content: the tokens inside an element, folded along the nesting of tags.

What an element still holds is a text, or an element with its own content and then the rest, up to
the end tag.  Where the document breaks off first, the content says why, and so does that of every
element around it.  Folding needs no look ahead: the tokens after the end tag have no influence on
the content before it.
-/

namespace Trellis.Markup

structure Tag where
  name : String
  attributes : List (String × String)
  position : Position
  deriving DecidableEq, Repr

inductive Content where
  /-- The end tag, with the encoding declared up to it. -/
  | closed (encoding : String)
  /-- The document ends here, or goes on with a mistake. -/
  | broken (ending : Ending)
  | text (position : Position) (content : String) (rest : Content)
  | element (tag : Tag) (inside rest : Content)
  deriving Repr

namespace Content

/-- The content up to the end tag that comes first, and that up to each end tag after it. -/
def ofTokens (ending : Ending) : List Token → Content × List Content
  | [] => (.broken ending, [])
  | token :: rest =>
      let (inner, outer) := ofTokens ending rest
      match token.kind with
      | .text content => (.text token.position content inner, outer)
      | .closing _ => (.closed token.encoding, inner :: outer)
      | .opening name attributes =>
          let tag : Tag := ⟨name, attributes, token.position⟩
          match outer with
          | [] => (.element tag inner (.broken ending), [])
          | next :: outer => (.element tag inner next, outer)

def encoding? : Content → Option String
  | closed encoding => some encoding
  | broken _ => none
  | text _ _ rest => rest.encoding?
  | element _ _ rest => rest.encoding?

/-- Why the content has no end tag, if it has none. -/
def break? : Content → Option Ending
  | closed _ => none
  | broken ending => some ending
  | text _ _ rest => rest.break?
  | element _ _ rest => rest.break?

end Content

/-- A document by its first element.  What comes before it is passed over, and what comes after it
is never looked at. -/
inductive Document where
  | rooted (root : Tag) (inside : Content)
  | empty (ending : Ending)
  deriving Repr

def Document.ofTokens (ending : Ending) : List Token → Document
  | [] => .empty ending
  | token :: rest =>
      match token.kind with
      | .opening name attributes =>
          .rooted ⟨name, attributes, token.position⟩ (Content.ofTokens ending rest).1
      | _ => Document.ofTokens ending rest

def Document.parse (extended : Bool) (text : String) : Document :=
  let stream := tokenize extended text
  Document.ofTokens stream.ending stream.tokens

end Trellis.Markup
