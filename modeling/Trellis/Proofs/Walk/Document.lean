import Trellis.Proofs.Walk.Agreement

/-!
Documents read by walking.

The read of a document is a walk over its tokens: it goes to the first start tag, reads that element
and never looks at what comes after it.
-/

namespace Trellis.Reading

open Markup (Content Document Ending Tag Token)
open Schema (Layout)
open Walk (Follows)

def RootFound (context : Context) (layout : Layout) (walker : Walker)
    (outcome : Option (Except ReadError Unit × Walker)) : Document → Prop
  | .rooted tag inside => ∃ here, here.StandsOn context tag inside ∧
      outcome = some (.ok (), ⟨here, walker.session⟩)
  | .empty (.failed error) => ∃ last, outcome = some (.error (.markup error), last)
  | .empty (.finished first _ _) =>
      ∃ last, outcome = some (.error (.noElement layout.tag (context.locate first)), last)

private theorem walkToRoot_succ (layout : Layout) (steps : Nat) :
    walkToRoot layout (steps + 1) = Walk.move Cursor.next >>= fun
      | .opening => pure ()
      | .finished => Walk.look Cursor.location >>= fun place => throw (.noElement layout.tag place)
      | _ => walkToRoot layout steps :=
  rfl

theorem walkToRoot_found (context : Context) (layout : Layout) (tokens : List Token)
    (walker : Walker) (sourceEq : walker.cursor.source = context.source)
    (restEq : walker.cursor.rest = tokens) :
    RootFound context layout walker (walkToRoot layout (tokens.length + 1) walker)
      (Document.ofTokens walker.cursor.ending tokens) := by
  induction tokens generalizing walker with
  | nil =>
      rw [List.length_nil, walkToRoot_succ, bind_apply]
      cases endingEq : walker.cursor.ending with
      | failed error =>
          refine ⟨walker, ?_⟩
          simp only [Walk.move, Cursor.next, restEq, Cursor.atEnd, endingEq]
      | finished first again encoding =>
          refine ⟨⟨walker.cursor.onEnd first again encoding, walker.session⟩, ?_⟩
          simp only [Walk.move, Cursor.next, restEq, Cursor.atEnd, endingEq]
          rw [bind_apply]
          simp only [Walk.look, Cursor.location, Cursor.onEnd, sourceEq]
          rfl
  | cons token rest ih =>
      have moved : Walk.move Cursor.next walker =
          some (.ok (Cursor.markOf token), ⟨walker.cursor.onto token rest, walker.session⟩) := by
        simp only [Walk.move, Cursor.next, restEq]
      have later := ih ⟨walker.cursor.onto token rest, walker.session⟩ sourceEq rfl
      rw [List.length_cons, walkToRoot_succ, bind_apply, moved]
      cases kind : token.kind with
      | opening name attributes =>
          simp only [Cursor.markOf, Document.ofTokens, kind]
          exact ⟨walker.cursor.onto token rest,
            ⟨sourceEq, Cursor.tag_onto_of_opening kind _ _, rfl⟩, rfl⟩
      | closing name =>
          simp only [Cursor.markOf, Document.ofTokens, kind]
          exact later
      | text content =>
          simp only [Cursor.markOf, Document.ofTokens, kind]
          exact later

private theorem follows_root {context : Context} {cursor : Cursor} {tag : Tag} {inside : Content}
    (stands : cursor.StandsOn context tag inside) (className : String) (layout : Layout) :
    following.Like (· = cursor) cursor.Ends
      (context.walking.root className layout context.allChildren (Walk.look (·.current.encoding)))
      (context.readRoot className layout tag inside) := by
  apply (walking_enters stands).root (allChildren_alike stands) className layout
  intro walker ends
  have encodingEq : inside.encoding? = some walker.cursor.current.encoding := by
    rw [← stands.inside_eq, ends.encoding_eq]
  rw [encodingEq]
  exact ⟨walker.cursor, ends, rfl⟩

private theorem walkDocument_eq_readDocument (context : Context) (className : String) (cursor : Cursor)
    (sourceEq : cursor.source = context.source) :
    (context.walkDocument className ⟨cursor, .initial⟩).map Prod.fst =
      some (context.readDocument className (Document.ofTokens cursor.ending cursor.rest)) := by
  rw [Context.walkDocument_eq]
  cases layoutEq : context.schema.layout? className with
  | none =>
      rw [Context.readDocument, layoutEq]
      rfl
  | some layout =>
      have found := walkToRoot_found context layout cursor.rest ⟨cursor, .initial⟩ sourceEq rfl
      have rootEq : Walk.loop (walkToRoot layout) ⟨cursor, .initial⟩ =
          walkToRoot layout (cursor.rest.length + 1) ⟨cursor, .initial⟩ := rfl
      simp only
      rw [bind_apply, rootEq]
      cases documentEq : Document.ofTokens cursor.ending cursor.rest with
      | empty ending =>
          rw [documentEq] at found
          rw [Context.readDocument, layoutEq]
          cases ending with
          | failed error =>
              obtain ⟨last, walkEq⟩ := found
              rw [walkEq]
              rfl
          | finished first again encoding =>
              obtain ⟨last, walkEq⟩ := found
              rw [walkEq]
              rfl
      | rooted tag inside =>
          rw [documentEq] at found
          obtain ⟨here, stands, walkEq⟩ := found
          rw [walkEq, readDocument_eq_readRoot layoutEq]
          exact (follows_root stands className layout ⟨here, .initial⟩ rfl).map_fst_eq here.Ends

/-- What a reader reads is what a walk over the tokens of the text finds. -/
theorem readAs_eq_walkDocument (reader : Reader) (className document : String)
    (source : Option Source) :
    let context : Context :=
      ⟨reader.schema, reader.options.strict, if reader.schema.tracksSources then source else none⟩
    (context.walkDocument className
        ⟨Cursor.ofDocument reader.options.extended document context.source, .initial⟩).map Prod.fst =
      some (reader.readAs className document source) := by
  intro context
  exact walkDocument_eq_readDocument context className
    (Cursor.ofDocument reader.options.extended document context.source) rfl

end Trellis.Reading
