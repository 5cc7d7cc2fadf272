import Trellis.Location
import Trellis.Markup.Error

/-!
Tokens: the start tags, end tags and runs of text of a document, each with its place.

An element written as one empty tag has a start tag and an end tag.  A section of raw text is a run
of text.  Comments, instructions, the document type and the declaration are no tokens; the
declaration leaves its mark in the encoding that later tokens report.
-/

namespace Trellis.Markup

inductive TokenKind where
  | opening (name : String) (attributes : List (String × String))
  | closing (name : String)
  | text (content : String)
  deriving DecidableEq, Repr

structure Token where
  kind : TokenKind
  /-- The position of the first character; for an end tag that is not written, the one after the
  empty tag. -/
  position : Position
  /-- The encoding that the document has declared so far. -/
  encoding : String
  deriving DecidableEq, Repr

def defaultEncoding : String := "UTF-8"

inductive Ending where
  /-- Nothing is left.  `first` is the position reported for the end, `again` the one reported
  whenever it is asked for once more: a document that ends in text or in an opening sign has its end
  noticed one byte early. -/
  | finished (first again : Position) (encoding : String)
  | failed (error : MarkupError)
  deriving DecidableEq, Repr

/-- The tokens of a document up to its end or its first mistake. -/
structure TokenStream where
  tokens : List Token
  ending : Ending
  deriving DecidableEq, Repr

end Trellis.Markup
