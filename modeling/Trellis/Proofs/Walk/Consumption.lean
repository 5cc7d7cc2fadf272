import Trellis.Proofs.Walk.Document

/-!
What a reader takes of a document.

Every reader that is entered on a start tag takes the tokens up to the end tag of that element and
not one more.  What it comes to is settled by these tokens, whatever follows them.
-/

namespace Trellis.Reading

open Markup (Balanced Content Document Ending Tag Token tokenize)
open Schema (Collection Field ItemType MapEncoding TaggedField)
open Walk (Follows)

/-- What a walk comes to and what it has given out and recorded, without the place it has gone
to. -/
def Walk.run? {α : Type} (walk : Walk α) (walker : Walker) :
    Option (Except ReadError (α × Session)) :=
  (walk walker).map fun outcome => outcome.1.map (·, outcome.2.session)

theorem Walk.Follows.run?_eq {α : Type} {walk : Walk α} {read : Read α} {walker : Walker}
    {ends : Cursor → Prop} (follows : Follows walk read walker ends) :
    walk.run? walker = some (read walker.session) := by
  unfold Follows at follows
  unfold Walk.run?
  cases readEq : read walker.session with
  | error error =>
      rw [readEq] at follows
      obtain ⟨last, walkEq⟩ := follows
      rw [walkEq]
      rfl
  | ok found =>
      rw [readEq] at follows
      obtain ⟨last, _, walkEq⟩ := follows
      rw [walkEq]
      rfl

theorem Walk.Follows.ends_of_ok {α : Type} {walk : Walk α} {read : Read α} {walker last : Walker}
    {ends : Cursor → Prop} {value : α} (follows : Follows walk read walker ends)
    (walkEq : walk walker = some (.ok value, last)) : ends last.cursor := by
  unfold Follows at follows
  cases readEq : read walker.session with
  | error error =>
      rw [readEq] at follows
      obtain ⟨_, failed⟩ := follows
      rw [failed] at walkEq
      cases walkEq
  | ok found =>
      rw [readEq] at follows
      obtain ⟨_, lastEnds, succeeded⟩ := follows
      rw [succeeded] at walkEq
      cases walkEq
      exact lastEnds

/-- The same place in other tokens: up to the end tag they agree. -/
def Cursor.before (cursor : Cursor) (inside : List Token) (closing : Token) (after : List Token)
    (ending : Ending) : Cursor :=
  { cursor with rest := inside ++ closing :: after, ending }

/-- The walk takes exactly the element whose start tag, of the given name, is under the cursor.  The
read is what the walk comes to when the content of the element is at hand. -/
structure TakesElement {α : Type} (here : Cursor) (name : String) (walk : Walk α) (read : Read α) :
    Prop where
  /-- The walk has an outcome. -/
  runs (session : Session) : walk.run? ⟨here, session⟩ = some (read session)
  /-- If it succeeds, it has taken the tokens up to the end tag and stands there. -/
  consumes (session : Session) {value : α} {last : Walker}
    (succeeds : walk ⟨here, session⟩ = some (.ok value, last)) :
    ∃ inside closing, here.rest = inside ++ closing :: last.cursor.rest ∧ Balanced inside ∧
      closing.kind = .closing name ∧ last.cursor = here.onto closing last.cursor.rest
  /-- Among tokens that agree up to the end tag it comes to the same, and stops at the same
  place. -/
  locally (session : Session) {inside after : List Token} {closing : Token}
    (split : here.rest = inside ++ closing :: after) (balanced : Balanced inside)
    (kind : closing.kind = .closing name) (after' : List Token) (ending : Ending) :
    walk.run? ⟨here.before inside closing after' ending, session⟩ = walk.run? ⟨here, session⟩ ∧
    ∀ value last,
      walk ⟨here.before inside closing after' ending, session⟩ = some (.ok value, last) →
      last.cursor = (here.before inside closing after' ending).onto closing after'

theorem Cursor.Ends.eq_onto {cursor last : Cursor} (ends : cursor.Ends last)
    {inside after : List Token} {closing : Token} {name : String}
    (split : cursor.rest = inside ++ closing :: after) (balanced : Balanced inside)
    (kind : closing.kind = .closing name) :
    last = cursor.onto closing after := by
  obtain ⟨tokens, closing', restEq, spans, lastEq⟩ := ends
  obtain ⟨_, kind'⟩ := spans.closing_kind
  rw [split] at restEq
  obtain ⟨_, closingEq, afterEq⟩ := balanced.end_unique spans.balanced
    (Markup.Token.rise_of_closing kind) (Markup.Token.rise_of_closing kind') restEq
  rw [lastEq, ← closingEq, ← afterEq]

theorem Cursor.inside_before (cursor : Cursor) {inside after : List Token} {closing : Token}
    {name : String} (split : cursor.rest = inside ++ closing :: after) (balanced : Balanced inside)
    (kind : closing.kind = .closing name) (after' : List Token) (ending : Ending) :
    (cursor.before inside closing after' ending).inside = cursor.inside := by
  have spans := Content.spans_of_balanced balanced kind cursor.ending after
  rw [← split] at spans
  change (Content.ofTokens ending (inside ++ closing :: after')).1 = _
  rw [Content.ofTokens_of_spans spans]
  rfl

variable {context : Context} {extended : Bool} {document : String} {before rest : List Token}
  {token : Token} {name : String} {attributes : List (String × String)}

/-- A walk that agrees with a reader of content takes exactly its element. -/
private theorem takesElement_of_follows {α : Type} {walk : Walk α} (read : Tag → Content → Read α)
    (follows : ∀ walker tag inside, walker.cursor.StandsOn context tag inside →
      Follows walk (read tag inside) walker walker.cursor.Ends)
    (split : (tokenize extended document).tokens = before ++ token :: rest)
    (kind : token.kind = .opening name attributes) {here : Cursor}
    (hereEq : here = (Cursor.ofDocument extended document context.source).onto token rest) :
    TakesElement here name walk (read here.tag here.inside) := by
  have stands : here.StandsOn context here.tag here.inside := by
    refine ⟨?_, rfl, rfl⟩
    rw [hereEq]
    rfl
  have restEq : here.rest = rest := by
    rw [hereEq]
    rfl
  constructor
  case runs =>
    intro session
    exact (follows ⟨here, session⟩ _ _ stands).run?_eq
  case consumes =>
    intro session value last succeeds
    obtain ⟨inside, closing, insideEq, spans, lastEq⟩ :=
      (follows ⟨here, session⟩ _ _ stands).ends_of_ok succeeds
    refine ⟨inside, closing, insideEq, spans.balanced, ?_, lastEq⟩
    obtain ⟨opened, after, run⟩ := Markup.foldlM_openAfter_of_opening split kind
    rw [← restEq, insideEq] at run
    exact spans.closing_name run
  case locally =>
    intro session inside after closing insideEq balanced closingKind after' ending
    have insideSame := here.inside_before insideEq balanced closingKind after' ending
    have standsThere : (here.before inside closing after' ending).StandsOn context here.tag
        here.inside := ⟨stands.source_eq, rfl, insideSame⟩
    have there := follows ⟨here.before inside closing after' ending, session⟩ _ _ standsThere
    constructor
    · rw [there.run?_eq, (follows ⟨here, session⟩ _ _ stands).run?_eq]
    · intro value last succeeds
      exact (there.ends_of_ok succeeds).eq_onto rfl balanced closingKind

/-- Every reader that is entered on a start tag of a document takes exactly that element. -/
theorem element_readers_take_elements (context : Context)
    (split : (tokenize extended document).tokens = before ++ token :: rest)
    (kind : token.kind = .opening name attributes) {here : Cursor}
    (hereEq : here = (Cursor.ofDocument extended document context.source).onto token rest) :
    (∀ className atRoot,
      TakesElement here name (context.walkEntity className atRoot context.allChildren)
        (context.readEntity className here.tag here.inside atRoot)) ∧
    (∀ frame values field,
      TakesElement here name
        (context.walkField frame values field context.allChildren (context.allItems frame.id field))
        (context.readField frame values field here.tag here.inside)) ∧
    (∀ frame values field collection type,
      TakesElement here name
        (context.walkWrapped frame values field collection type (context.allItems frame.id field))
        (context.wrapped frame values field collection type here.tag
          (context.itemsIn frame.id field here.inside))) ∧
    (∀ frame values field collection type,
      TakesElement here name
        (context.walkUnwrapped frame values field collection type context.allChildren)
        (context.unwrapped frame values field collection type here.tag here.inside
          (context.childrenIn here.inside))) ∧
    (∀ field type, TakesElement here name (context.walkItem field type context.allChildren)
      (context.item field type here.tag here.inside (context.childrenIn here.inside))) ∧
    (∀ frame values field encoding,
      TakesElement here name (context.walkMap frame values field encoding)
        (context.readMap frame values field encoding here.tag here.inside)) ∧
    (∀ field, TakesElement here name (context.walkEntry field)
      (liftM (context.entryParts field {} here.inside))) ∧
    TakesElement here name walkTree (liftM (context.treeOf here.tag here.inside)) ∧
    TakesElement here name (Walk.move Cursor.nextText) (liftM (context.textOf here.inside)) ∧
    TakesElement here name (Walk.move Cursor.skipElement)
      (liftM (context.passContent here.inside)) := by
  refine ⟨?entity, ?field, ?wrapped, ?unwrapped, ?item, ?map, ?entry, ?tree, ?text, ?skip⟩
  case entity =>
    intro className atRoot
    apply takesElement_of_follows (fun tag inside => context.readEntity className tag inside atRoot) _
      split kind hereEq
    intro walker tag inside stands
    exact follows_walkEntity stands className atRoot
  case field =>
    intro frame values field
    apply takesElement_of_follows (context.readField frame values field) _ split kind hereEq
    intro walker tag inside stands
    exact follows_walkField stands frame values field
  case wrapped =>
    intro frame values field collection type
    apply takesElement_of_follows (fun tag inside =>
      context.wrapped frame values field collection type tag (context.itemsIn frame.id field inside)) _
      split kind hereEq
    intro walker tag inside stands
    exact follows_walkWrapped stands frame values field collection type
  case unwrapped =>
    intro frame values field collection type
    apply takesElement_of_follows (fun tag inside =>
      context.unwrapped frame values field collection type tag inside (context.childrenIn inside)) _
      split kind hereEq
    intro walker tag inside stands
    exact follows_walkUnwrapped stands frame values field collection type
  case item =>
    intro field type
    apply takesElement_of_follows (fun tag inside =>
      context.item field type tag inside (context.childrenIn inside)) _ split kind hereEq
    intro walker tag inside stands
    exact follows_walkItem stands field type
  case map =>
    intro frame values field encoding
    apply takesElement_of_follows (context.readMap frame values field encoding) _ split kind hereEq
    intro walker tag inside stands
    exact follows_walkMap stands frame values field encoding
  case entry =>
    intro field
    apply takesElement_of_follows (fun _ inside => liftM (context.entryParts field {} inside)) _ split
      kind hereEq
    intro walker tag inside stands
    exact follows_walkEntry stands field
  case tree =>
    apply takesElement_of_follows (fun tag inside => liftM (context.treeOf tag inside)) _ split kind
      hereEq
    intro walker tag inside stands
    exact follows_walkTree stands
  case text =>
    apply takesElement_of_follows (fun _ inside => liftM (context.textOf inside)) _ split kind hereEq
    intro walker tag inside stands
    exact follows_nextText stands
  case skip =>
    apply takesElement_of_follows (fun _ inside => liftM (context.passContent inside)) _ split kind
      hereEq
    intro walker tag inside stands
    exact follows_skipElement stands

/-- On the start tag of an inner element, the tree is that of the inner element, and so is the text
that is passed over, although the outer element goes on with a text. -/
theorem element_readers_take_inner_element :
    ∃ before token rest here,
      (tokenize true "<a><b>x<c/></b>y</a>").tokens = before ++ token :: rest ∧
      token.kind = .opening "b" [] ∧
      here = (Cursor.ofDocument true "<a><b>x<c/></b>y</a>" none).onto token rest ∧
      walkTree.run? ⟨here, .initial⟩ =
        some (.ok (.mk "b" [] (some "x") [.mk "c" [] none []], .initial)) ∧
      (Walk.move Cursor.skipElement).run? ⟨here, .initial⟩ = some (.ok ((), .initial)) := by
  let context : Context := ⟨⟨[], "", .lowerCamel, true, none, none⟩, true, none⟩
  have split : (tokenize true "<a><b>x<c/></b>y</a>").tokens =
      [⟨.opening "a" [], ⟨1, 1⟩, "UTF-8"⟩] ++ ⟨.opening "b" [], ⟨1, 4⟩, "UTF-8"⟩ ::
        [⟨.text "x", ⟨1, 7⟩, "UTF-8"⟩, ⟨.opening "c" [], ⟨1, 8⟩, "UTF-8"⟩,
          ⟨.closing "c", ⟨1, 12⟩, "UTF-8"⟩, ⟨.closing "b", ⟨1, 12⟩, "UTF-8"⟩,
          ⟨.text "y", ⟨1, 16⟩, "UTF-8"⟩, ⟨.closing "a", ⟨1, 17⟩, "UTF-8"⟩] := by
    decide +kernel
  obtain ⟨_, _, _, _, _, _, _, tree, _, skip⟩ :=
    element_readers_take_elements context split rfl rfl
  exact ⟨_, _, _, _, split, rfl, rfl, tree.runs .initial, skip.runs .initial⟩

end Trellis.Reading
