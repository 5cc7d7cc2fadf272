import Trellis.Proofs.Markup.Demand
import Trellis.Proofs.Reading.AtHand
import Trellis.Proofs.Reading.Identities
import Trellis.Proofs.Reading.Likeness
import Trellis.Proofs.Walk.Cursor

/-!
Counters of a fixed size.

Identities are numbers, and so is the depth at which an element that is passed over is left.  With
counters of 32 bits, which refuse to go beyond their greatest number and below zero, a read of a
document of less than 4 GiB comes to the same: each step of a counter up is paid for by a start tag of
its own, and each start tag by a character.
-/

namespace Trellis.Markup

/-! ### Start tags cost characters -/

def startTags (tokens : List Token) : Nat :=
  (tokens.filterMap Token.tag?).length

private theorem startTags_append (first second : List Token) :
    startTags (first ++ second) = startTags first + startTags second := by
  rw [startTags, List.filterMap_append, List.length_append]
  rfl

private theorem startTags_reverse (tokens : List Token) :
    startTags tokens.reverse = startTags tokens := by
  rw [startTags, List.filterMap_reverse, List.length_reverse]
  rfl

private theorem startTags_singleton_le (token : Token) : startTags [token] ≤ 1 :=
  List.length_filterMap_le Token.tag? [token]

namespace Scanner

theorem Brought.startTags_le {tokens : List Token} (brought : Brought tokens) :
    startTags tokens ≤ 1 := by
  cases brought with
  | nothing => exact Nat.zero_le 1
  | single token => exact startTags_singleton_le token
  | @emptyElement opening closing name attributes openingKind closingKind =>
      have noTag : Token.tag? closing = none := by
        rw [Token.tag?, closingKind]
      have onlyFirst : startTags [opening, closing] = startTags [opening] := by
        simp only [startTags, List.filterMap_cons, noTag]
      rw [onlyFirst]
      exact startTags_singleton_le opening

def cleared (scanner : Scanner) : Scanner :=
  { scanner with emitted := [] }

private theorem cleared_above (scanner : Scanner) :
    scanner.cleared.above scanner.emitted = scanner := rfl

private theorem startTags_above (scanner : Scanner) (older : List Token) :
    startTags (scanner.above older).emitted = startTags scanner.emitted + startTags older :=
  startTags_append scanner.emitted older

private theorem startTags_step_le (scanner : Scanner) (c : Char) :
    startTags (scanner.step c).emitted ≤ startTags scanner.emitted + 1 := by
  have clear : scanner.cleared.emitted = [] := rfl
  have brings := (brings_step clear c).brought.startTags_le
  rw [startTags_reverse] at brings
  rw [← cleared_above scanner, step_above, startTags_above, cleared_above]
  omega

private theorem startTags_foldl_le (chars : List Char) (scanner : Scanner) :
    startTags (chars.foldl step scanner).emitted ≤ startTags scanner.emitted + chars.length := by
  induction chars generalizing scanner with
  | nil => exact Nat.le_refl _
  | cons c rest ih =>
      have here := startTags_step_le scanner c
      have later := ih (scanner.step c)
      rw [List.foldl_cons, List.length_cons]
      omega

private theorem startTags_emit {kind : TokenKind}
    (noTag : ∀ position encoding, Token.tag? ⟨kind, position, encoding⟩ = none) (scanner : Scanner)
    (mark : Nat) : startTags (scanner.emit kind mark).emitted = startTags scanner.emitted := by
  simp only [startTags, emit, List.filterMap_cons, noTag]

private theorem startTags_endText (scanner : Scanner) (taken : List Char) :
    startTags (scanner.endText taken).emitted = startTags scanner.emitted := by
  unfold endText
  split
  · rfl
  · split
    · exact startTags_emit (fun _ _ => rfl) scanner scanner.start
    · rfl

private theorem startTags_endPiece {piece : Piece} (mayEnd : unfinished? piece = none)
    (scanner : Scanner)
    (text : List Char) :
    startTags (scanner.endPiece piece text).emitted = startTags scanner.emitted := by
  cases piece with
  | element quote => cases mayEnd
  | comment => cases mayEnd
  | cdata => cases mayEnd
  | doctype => cases mayEnd
  | closing =>
      simp only [endPiece, endClosing]
      split
      · rfl
      · split
        · exact startTags_emit (fun _ _ => rfl) _ scanner.start
        · rfl
  | instruction =>
      simp only [endPiece, endInstruction]
      split
      · split <;> rfl
      · rfl

private theorem startTags_finish (scanner : Scanner) :
    startTags scanner.finish.tokens = startTags scanner.emitted := by
  unfold finish
  split
  · exact startTags_reverse scanner.emitted
  · rw [finishedAt_tokens, startTags_reverse, startTags_endText]
  · rw [finishedAt_tokens, startTags_reverse]
  · exact startTags_reverse scanner.emitted
  · split
    · exact startTags_reverse scanner.emitted
    · rename_i mayEnd
      rw [finishedAt_tokens, startTags_reverse, startTags_endPiece mayEnd]

end Scanner

/-- A document has no more start tags than bytes. -/
private theorem startTags_tokenize_le (extended : Bool) (document : String) :
    startTags (tokenize extended document).tokens ≤ document.utf8ByteSize := by
  have scanned := Scanner.startTags_foldl_le (withoutMark document.toList)
    (.ofSource extended document.toList)
  have nothing : startTags (Scanner.ofSource extended document.toList).emitted = 0 := rfl
  have chars := Text.length_le_utf8Length (withoutMark document.toList)
  have shorter := utf8Length_withoutMark document.toList
  rw [tokenize, Scanner.startTags_finish, Text.utf8ByteSize_eq]
  omega

end Trellis.Markup

namespace Trellis.Reading

open Trellis.Graph (Value)
open Markup (Content Document Tag Token startTags tokenize)
open Schema (Collection Declarations ItemType TaggedField)

/-! ### Counters -/

def counterBound : Nat :=
  UInt32.size

def increment? (counter : Nat) : Option Nat :=
  if counter + 1 < counterBound then some (counter + 1) else none

def decrement? (counter : Nat) : Option Nat :=
  if counter = 0 then none else some (counter - 1)

private theorem increment?_of_lt {counter : Nat} (room : counter + 1 < counterBound) :
    increment? counter = some (counter + 1) :=
  if_pos room

private theorem decrement?_of_pos {counter : Nat} (positive : 0 < counter) :
    decrement? counter = some (counter - 1) :=
  if_neg (Nat.ne_of_gt positive)

/-! ### Passing over an element -/

/-- Goes on until a counter of the elements that are open has come down to zero.  There is no outcome
if the counter cannot be changed as it should be. -/
def Cursor.countedSkip (depth : Nat) (cursor : Cursor) (tokens : List Token) :
    Option (Cursor.Outcome Unit) :=
  match tokens with
  | [] => some (if depth = 0 then (.ok (), cursor) else cursor.endError)
  | token :: rest =>
      if depth = 0 then some (.ok (), cursor)
      else
        let here := cursor.onto token rest
        match Cursor.markOf token with
        | .opening => (increment? depth).bind fun depth => countedSkip depth here rest
        | .closing => (decrement? depth).bind fun depth => countedSkip depth here rest
        | _ => countedSkip depth here rest

theorem Cursor.countedSkip_zero (cursor : Cursor) (tokens : List Token) :
    cursor.countedSkip 0 tokens = some (.ok (), cursor) := by
  cases tokens <;> rfl

theorem Cursor.countedSkip_eq {depth : Nat} (positive : 0 < depth) {tokens : List Token}
    (few : depth + startTags tokens < counterBound) (cursor : Cursor) :
    cursor.countedSkip depth tokens = some (cursor.skipAmong depth tokens) := by
  induction tokens generalizing depth cursor with
  | nil => rw [countedSkip, skipAmong, if_neg (Nat.ne_of_gt positive)]
  | cons token rest ih =>
      have split : startTags (token :: rest) = startTags [token] + startTags rest :=
        Markup.startTags_append [token] rest
      rw [split] at few
      rw [countedSkip, skipAmong, if_neg (Nat.ne_of_gt positive)]
      cases kind : token.kind with
      | text content =>
          simp only [markOf, kind]
          exact ih positive (by omega) _
      | opening name attributes =>
          have counts : startTags [token] = 1 := by
            simp only [startTags, List.filterMap_cons, Token.tag?, kind]
            rfl
          simp only [markOf, kind]
          rw [increment?_of_lt (by omega), Option.bind_some]
          exact ih (Nat.succ_pos depth) (by omega) _
      | closing name =>
          simp only [markOf, kind]
          rw [decrement?_of_pos positive, Option.bind_some]
          split
          · rename_i last
            have none : depth - 1 = 0 := by omega
            rw [none, countedSkip_zero]
          · rename_i more
            exact ih (by omega) (by omega) _

/-! ### Giving out identities -/

/-- A part of a read with a counter for identities.  It has no outcome if the counter cannot go on. -/
abbrev Counted := StateT Session (ExceptT ReadError Option)

namespace Counted

variable {α β : Type}

def of (read : Read α) : Counted α := fun session =>
  ExceptT.mk (some (read session))

def reserve : Counted Unit := fun session =>
  ExceptT.mk ((increment? session.nextId).map fun _ => .ok ((), session))

theorem bind_apply (counted : Counted α) (next : α → Counted β) (session : Session) :
    (counted >>= next) session =
      match (counted session).run with
      | none => ExceptT.mk none
      | some (.error error) => ExceptT.mk (some (.error error))
      | some (.ok (value, session)) => next value session := by
  change ExceptT.bind (counted session) _ = _
  unfold ExceptT.bind ExceptT.run ExceptT.mk
  cases counted session with
  | none => rfl
  | some outcome =>
      cases outcome <;> rfl

end Counted

/-- An element at hand.  An entity that begins needs an identity more. -/
def Context.counting (context : Context) (tag : Tag) (inside : Content) : Access Counted where
  context
  tag := pure tag
  text := Counted.of (liftM (context.textOf inside))
  tree := Counted.of (liftM (context.treeOf tag inside))
  skip := Counted.of (liftM (context.passContent inside))
  begin className tag atRoot := do
    Counted.reserve
    Counted.of (context.beginEntity className tag atRoot)
  still := Counted.of

mutual

def Context.countedReadChildren (context : Context) (frame : Frame) (values : FieldValues)
    (seen : List String) (content : Content) : Counted FieldValues :=
  match content with
  | .closed _ => return values
  | .broken ending => Counted.of (throw (context.breakError ending))
  | .text position text rest => do
      Counted.of (context.passText position text)
      context.countedReadChildren frame values seen rest
  | .element tag inside rest => do
      let (values, seen) ← (context.counting tag inside).child frame values seen
        (fun inner values => context.countedReadChildren inner values [] inside)
        (fun field collection type => context.countedReadItems frame.id field collection type
          (.collection collection []) inside)
        (fun field encoding => Counted.of (context.readEntries frame.id field encoding [] inside))
      context.countedReadChildren frame values seen rest
termination_by structural content

def Context.countedReadItems (context : Context) (id : EntityId) (field : TaggedField)
    (collection : Collection) (type : ItemType) (holder : Value) (content : Content) :
    Counted Value :=
  match content with
  | .closed _ => return holder
  | .broken ending => Counted.of (throw (context.breakError ending))
  | .text position text rest => do
      Counted.of (context.passText position text)
      context.countedReadItems id field collection type holder rest
  | .element tag inside rest => do
      let holder ← (context.counting tag inside).addItem id field collection type holder
        fun inner values => context.countedReadChildren inner values [] inside
      context.countedReadItems id field collection type holder rest
termination_by structural content

end

def Context.countedReadDocument (context : Context) (className : String) (document : Document) :
    Option (Except ReadError ObjectGraph) :=
  match context.schema.layout? className, document with
  | some layout, .rooted tag inside =>
      let read := (context.counting tag inside).root className layout
        (fun frame values => context.countedReadChildren frame values [] inside)
        (pure (inside.encoding?.getD Markup.defaultEncoding))
      (read .initial).run.map fun outcome => outcome.map Prod.fst
  | _, _ => some (context.readDocument className document)

def Reader.countedReadAs (reader : Reader) (className document : String) (source : Option Source) :
    Option (Except ReadError ObjectGraph) :=
  let context : Context :=
    { schema := reader.schema
      strict := reader.options.strict
      source := if reader.schema.tracksSources then source else none }
  context.countedReadDocument className (.parse reader.options.extended document)

/-! ### The counter can hold all identities -/

/-- Where the counter has room for as many identities as are needed first, the read comes to the same
with it, and there is room for the others then. -/
def Fits {α : Type} (needed left : Nat) (counted : Counted α) (read : Read α) : Prop :=
  ∀ session, session.nextId + needed < counterBound →
    (counted session).run = some (read session) ∧
      ∀ value session', read session = .ok (value, session') → session'.nextId + left < counterBound

namespace Fits

variable {α β : Type} {needed left : Nat} {counted : Counted α} {read : Read α}

theorem of_pure (needed : Nat) (value : α) : Fits needed needed (pure value) (pure value) := by
  intro session room
  refine ⟨rfl, ?_⟩
  intro found session' readEq
  cases readEq
  exact room

theorem bind {between : Nat} {next : α → Counted β} {next' : α → Read β}
    (first : Fits needed between counted read)
    (second : ∀ value, Fits between left (next value) (next' value)) :
    Fits needed left (counted >>= next) (read >>= next') := by
  intro session room
  obtain ⟨same, leaves⟩ := first session room
  rw [Counted.bind_apply, Read.bind_apply, same]
  cases readEq : read session with
  | error error => exact ⟨rfl, nofun⟩
  | ok found =>
      obtain ⟨value, middle⟩ := found
      exact second value middle (leaves value middle readEq)

theorem mono {more : Nat} (fits : Fits needed left counted read) (le : needed ≤ more) :
    Fits more left counted read :=
  fun session room => fits session (by omega)

private theorem of_givesNone (le : left ≤ needed) (none : GivesNone read) :
    Fits needed left (Counted.of read) read := by
  intro session room
  refine ⟨rfl, ?_⟩
  intro value session' readEq
  rw [none session value session' readEq]
  omega

theorem throw (error : ReadError) :
    Fits needed left (Counted.of (MonadExcept.throw error : Read α)) (MonadExcept.throw error) :=
  fun _ _ => ⟨rfl, nofun⟩

end Fits

def fitting : Likeness Counted Read where
  Stage := Nat
  Like := Fits
  of_pure := .of_pure
  bind := .bind

variable {context : Context}

private theorem counting_alike (tag : Tag) (inside : Content) {needed left : Nat}
    (le : left ≤ needed) :
    (context.counting tag inside).Alike fitting (context.atHand tag inside) needed left where
  context_eq := rfl
  tag := .of_pure needed tag
  text := .of_givesNone le (.lift _)
  tree := .of_givesNone le (.lift _)
  skip := .of_givesNone le (.lift _)
  still := fun _ _ none => .of_givesNone (Nat.le_refl _) none
  fail := fun _ _ error => .throw error

private theorem fits_begin (tag : Tag) (inside : Content) (left : Nat) (className : String)
    (tag' : Tag) (atRoot : Bool) :
    Fits (left + 1) left ((context.counting tag inside).begin className tag' atRoot)
      (context.beginEntity className tag' atRoot) := by
  intro session room
  constructor
  · change ((Counted.reserve >>= fun _ => Counted.of _) session).run = _
    rw [Counted.bind_apply, Counted.reserve, increment?_of_lt (by omega)]
    rfl
  · rintro ⟨frame, values⟩ session' begins
    obtain ⟨_, _, _, _, _, _, _, attributes⟩ := beginEntity_eq_ok begins
    rw [(gives_readAttributes context frame tag' atRoot _ _ _ _ _ attributes).nextId_eq]
    change session.nextId + 1 + left < counterBound
    omega

private theorem counting_enters (context : Context) (tag : Tag) (inside : Content) (left : Nat) :
    (context.counting tag inside).Enters fitting (context.atHand tag inside)
      (inside.tags.length + left + 1) (inside.tags.length + left) left where
  toAlike := counting_alike tag inside (by omega)
  begin := fits_begin tag inside _
  goesOn := counting_alike tag inside (by omega)

/-- Both loops need an identity for each start tag in the content at most. -/
structure ContentFits (context : Context) (content : Content) : Prop where
  children : ∀ left frame values seen,
    Fits (content.tags.length + left) left (context.countedReadChildren frame values seen content)
      (context.readChildren frame values seen content)
  items : ∀ left id field collection type holder,
    Fits (content.tags.length + left) left
      (context.countedReadItems id field collection type holder content)
      (context.readItems id field collection type holder content)

private theorem contentFits (context : Context) (content : Content) : ContentFits context content := by
  -- Both loops at once: what is in a child is read by the one or the other.
  induction content with
  | closed encoding =>
      constructor
      · intro left frame values seen
        exact (Fits.of_pure left values).mono (Nat.le_add_left _ _)
      · intro left id field collection type holder
        exact (Fits.of_pure left holder).mono (Nat.le_add_left _ _)
  | broken ending => exact ⟨fun _ _ _ _ => .throw _, fun _ _ _ _ _ _ => .throw _⟩
  | text position text rest ih =>
      have passes (left : Nat) := Fits.of_givesNone (Nat.le_refl (rest.tags.length + left))
        (.lift (context.passText position text))
      constructor
      · intro left frame values seen
        exact (passes left).bind fun _ => ih.children left frame values seen
      · intro left id field collection type holder
        exact (passes left).bind fun _ => ih.items left id field collection type holder
  | element tag inside rest ihInside ihRest =>
      have tagsEq (left : Nat) : (Content.element tag inside rest).tags.length + left =
          inside.tags.length + (rest.tags.length + left) + 1 := by
        rw [Content.tags, List.length_cons, List.length_append]
        omega
      have below (left : Nat) (inner : Frame) (values : FieldValues) :=
        ihInside.children left inner values []
      constructor
      · intro left frame values seen
        rw [readChildren_eq_child, tagsEq]
        refine Fits.bind
          ((counting_enters context tag inside _).child (below _) frame values seen ?_ ?_) ?_
        · intro field collection type
          exact (ihInside.items _ frame.id field collection type _).mono (Nat.le_succ _)
        · intro field encoding
          exact .of_givesNone (by omega) (.readEntries context frame.id field encoding [] inside)
        · rintro ⟨values, seen⟩
          exact ihRest.children left frame values seen
      · intro left id field collection type holder
        rw [readItems_eq_addItem, tagsEq]
        have added := (counting_enters context tag inside (rest.tags.length + left)).addItem (below _) id
          field collection type holder
        exact Fits.bind added fun holder => ihRest.items left id field collection type holder

private theorem countedReadDocument_eq (context : Context) (className : String) {document : Document}
    (few : ∀ tag inside, document = .rooted tag inside → inside.tags.length + 1 < counterBound) :
    context.countedReadDocument className document = some (context.readDocument className document) := by
  unfold Context.countedReadDocument
  split
  · rename_i layout tag inside layoutEq
    have children (frame : Frame) (values : FieldValues) :=
      (contentFits context inside).children 0 frame values []
    have root := (counting_enters context tag inside 0).root children className layout
      (Fits.of_pure 0 (inside.encoding?.getD Markup.defaultEncoding))
    have none : Session.initial.nextId = 0 := rfl
    have room : Session.initial.nextId + (inside.tags.length + 0 + 1) < counterBound := by
      have enough := few tag inside rfl
      omega
    simp only
    rw [(root .initial room).1, readDocument_eq_readRoot layoutEq]
    rfl
  · rfl

/-! ### Documents of less than 4 GiB -/

/-- A read of a document of less than 4 GiB comes to the same with a counter of 32 bits for its
identities.  And behind each of its start tags, so does passing over the element with a counter for the
depth, which is never asked to go below zero. -/
theorem counters_hold (reader : Reader) (className document : String) (source : Option Source)
    (small : document.utf8ByteSize < counterBound) :
    reader.countedReadAs className document source = some (reader.readAs className document source) ∧
    ∀ (passed : List Token) (token : Token) (rest : List Token) (tag : Tag) (cursor : Cursor),
      (tokenize reader.options.extended document).tokens = passed ++ token :: rest →
      token.tag? = some tag → cursor.rest = rest →
        cursor.countedSkip 1 cursor.rest = some cursor.skipElement := by
  have bounded := Markup.startTags_tokenize_le reader.options.extended document
  constructor
  · apply countedReadDocument_eq
    intro tag inside documentEq
    have among := (Document.tags_sublist documentEq).length_le
    rw [List.length_cons] at among
    rw [startTags] at bounded
    omega
  · intro passed token rest tag cursor tokensEq isTag restEq
    have counts : startTags [token] = 1 := by
      simp only [startTags, List.filterMap_cons, isTag]
      rfl
    have split : startTags (token :: rest) = startTags [token] + startTags rest :=
      Markup.startTags_append [token] rest
    rw [tokensEq, Markup.startTags_append, split, counts] at bounded
    rw [restEq]
    have few : 1 + startTags rest < counterBound := by omega
    rw [Cursor.countedSkip_eq Nat.one_pos few, Cursor.skipElement, restEq]

def bookcase : Declarations where
  classes := [
    { name := "Bookcase", fields := [{ name := "books", kind := .many .list (.entity "Book") false }] },
    { name := "Book", fields := [] }]
  roots := ["Bookcase"]

/-- A bookcase with two books has three identities, and what lies between them is passed over. -/
theorem counters_hold_of_bookcase :
    let document := "<bookcase><book/><box><lid/></box><book/></bookcase>"
    ∃ schema graph token rest tag, bookcase.build = .ok schema ∧ document.utf8ByteSize < counterBound ∧
      (Reader.mk schema { strict := false }).countedReadAs "Bookcase" document none = some (.ok graph) ∧
      graph.root.all.length = 3 ∧
      (tokenize true document).tokens = (tokenize true document).tokens.take 3 ++ token :: rest ∧
      token.tag? = some tag ∧ tag.name = "box" ∧
      let cursor : Cursor := ⟨rest, (tokenize true document).ending, .initial, none⟩
      cursor.countedSkip 1 cursor.rest = some cursor.skipElement ∧
      cursor.skipElement.2.rest.length = 3 := by
  intro document
  have small : document.utf8ByteSize < counterBound := by decide +kernel
  have passes : bookcase.build.toOption.any (fun schema =>
      ((Reader.mk schema { strict := false }).readAs "Bookcase" document none).toOption.any fun graph =>
        graph.root.all.length = 3) = true := by
    decide +kernel
  have boxed : ((tokenize true document).tokens.drop 3).head?.any (fun token =>
      token.tag?.any fun tag => tag.name = "box") = true := by
    decide +kernel
  have passedOver : (Cursor.mk ((tokenize true document).tokens.drop 4) (tokenize true document).ending
      .initial none).skipElement.2.rest.length = 3 := by
    decide +kernel
  obtain ⟨schema, built, passes⟩ := Schema.exists_built passes
  simp only [Option.any_eq_true, decide_eq_true_eq] at passes boxed
  obtain ⟨graph, found, three⟩ := passes
  obtain ⟨token, isFirst, tag, isTag, named⟩ := boxed
  obtain ⟨rest, dropEq⟩ := List.head?_eq_some_iff.1 isFirst
  have restEq : (tokenize true document).tokens.drop 4 = rest := by
    rw [← List.tail_drop, dropEq, List.tail_cons]
  rw [restEq] at passedOver
  have tokensEq : (tokenize true document).tokens =
      (tokenize true document).tokens.take 3 ++ token :: rest := by
    rw [← dropEq, List.take_append_drop]
  obtain ⟨counted, skips⟩ := counters_hold ⟨schema, { strict := false }⟩ "Bookcase" document none small
  rw [eq_ok_of_toOption found] at counted
  exact ⟨schema, graph, token, rest, tag, built, small, counted, three, tokensEq, isTag, named,
    skips _ token rest tag _ tokensEq isTag rfl, passedOver⟩

end Trellis.Reading
