import Trellis.Proofs.Walk.Document
import Trellis.Proofs.Walk.Places
import Trellis.Proofs.Walk.Pulling

/-!
How often a read asks for a token.

A puller does what the walk over the tokens does: it stands where the walker stands, and what it has
been answered are the tokens that the walker has passed.  A walk comes to an end, so the puller does;
and what ends a document or breaks it off is the last answer it gets.
-/

namespace Trellis.Reading

open Trellis.Graph (Tree Value)
open Markup (Finish Stop Token TokenStream Tokenizer)
open Schema (Collection Field ItemType Layout MapEncoding ScalarType TaggedField)

def GivesToken (answer : Except ReadError Mark) : Prop :=
  ∃ mark, answer = .ok mark ∧ mark ≠ .finished

private theorem markOf_ne_finished (token : Token) : Cursor.markOf token ≠ .finished := by
  unfold Cursor.markOf
  split <;> exact nofun

/-- The puller stands where the walker does, in a document of so many tokens. -/
structure Puller.StandsWith (total : Nat) (puller : Puller) (walker : Walker) : Prop where
  ready : puller.tokenizer.Ready
  stream_eq : puller.tokenizer.stream = ⟨walker.cursor.rest, walker.cursor.ending⟩
  current_eq : puller.current = walker.cursor.current
  source_eq : puller.source = walker.cursor.source
  session_eq : puller.session = walker.session
  givesTokens : ∀ answer ∈ puller.answers, GivesToken answer
  calls_eq : puller.answers.length + walker.cursor.rest.length = total

/-- There has been at most one call for each token and one for the end, and none after an answer
that is no token. -/
structure Puller.HasStopped (total : Nat) (puller : Puller) : Prop where
  calls_le : puller.answers.length ≤ total + 1
  givesTokens : ∀ answer ∈ puller.answers.tail, GivesToken answer

/-- What has come to the outcome has asked for the tokens there are and once more, at most.  An answer
that is no token was the last, and the outcome is an error. -/
structure Puller.EndsWith {α : Type} (total : Nat) (outcome : Except ReadError α) (puller : Puller) :
    Prop where
  stopped : puller.HasStopped total
  heardEnd : ∀ answer ∈ puller.answers, ¬ GivesToken answer → ∃ error, outcome = .error error

def Cursor.errorAtEnd (cursor : Cursor) (refusal : Location → ReadError) : ReadError :=
  match cursor.ending with
  | .failed error => .markup error
  | .finished first _ _ => refusal ⟨first, cursor.source⟩

theorem Cursor.endError_fst {α : Type} (cursor : Cursor) :
    (cursor.endError : Cursor.Outcome α).1 = .error (cursor.errorAtEnd .unexpectedEnd) := by
  unfold endError errorAtEnd
  cases cursor.ending <;> rfl

namespace Puller.StandsWith

variable {total : Nat} {puller : Puller} {walker : Walker}

theorem tag_eq (stands : puller.StandsWith total walker) : puller.tag = walker.cursor.tag := by
  rw [Puller.tag, Cursor.tag, stands.current_eq]

theorem location_eq (stands : puller.StandsWith total walker) :
    puller.location = walker.cursor.location := by
  rw [Puller.location, Cursor.location, stands.current_eq, stands.source_eq]

private theorem hasStopped (stands : puller.StandsWith total walker) : puller.HasStopped total where
  calls_le := by
    have counted := stands.calls_eq
    omega
  givesTokens answer member := stands.givesTokens answer (List.mem_of_mem_tail member)

end Puller.StandsWith

namespace Pull

variable {α β : Type} {total : Nat} {puller : Puller} {walker : Walker}

private theorem refuse_apply (refusal : Location → ReadError) (puller : Puller) :
    (refuse refusal : Pull α) puller = some (.error (refusal puller.location), puller) := rfl

/-! ### One call -/

private theorem next_of_cons (stands : puller.StandsWith total walker) {token : Token}
    {rest : List Token}
    (restEq : walker.cursor.rest = token :: rest) :
    ∃ final, next puller = some (.ok (Cursor.markOf token), final) ∧
      final.StandsWith total ⟨walker.cursor.onto token rest, walker.session⟩ := by
  have answers := Tokenizer.next_answers stands.ready
  have counted := stands.calls_eq
  rw [stands.stream_eq, restEq] at answers
  rw [restEq, List.length_cons] at counted
  unfold next Puller.ask
  generalize puller.tokenizer.next = outcome at answers ⊢
  cases answers with
  | @token _ later ready streamEq _ =>
      injection streamEq with tokensEq endingEq
      obtain ⟨rfl, othersEq⟩ := List.cons.inj tokensEq
      refine ⟨_, rfl, ready, ?_, ?_, stands.source_eq, stands.session_eq, ?_, ?_⟩
      · simp only [Cursor.onto, othersEq, endingEq]
      · simp only [stands.current_eq, Cursor.onto, Current.hearing]
      · intro answer member
        rcases List.mem_cons.1 member with rfl | earlier
        · exact ⟨_, rfl, markOf_ne_finished token⟩
        · exact stands.givesTokens answer earlier
      · simp only [List.length_cons, Cursor.onto_rest]
        omega
  | finished _ streamEq => cases streamEq
  | mistake _ streamEq => cases streamEq

private theorem hasStopped_cons (stands : puller.StandsWith total walker) (tokenizer : Tokenizer)
    (current : Current) (answer : Except ReadError Mark) :
    Puller.HasStopped total
      { puller with tokenizer, current, answers := answer :: puller.answers } where
  calls_le := by
    have counted := stands.calls_eq
    rw [List.length_cons]
    omega
  givesTokens := stands.givesTokens

private theorem next_bind_of_nil (stands : puller.StandsWith total walker)
    (restEq : walker.cursor.rest = [])
    {goesOn : Mark → Pull α} {refusal : Location → ReadError}
    (refuses : goesOn .finished = refuse refusal) :
    ∃ final, (next >>= goesOn) puller =
        some (.error (walker.cursor.errorAtEnd refusal), final) ∧ final.HasStopped total := by
  have answers := Tokenizer.next_answers stands.ready
  rw [stands.stream_eq, restEq] at answers
  unfold Cursor.errorAtEnd
  rw [bind_apply, next, Puller.ask]
  generalize puller.tokenizer.next = outcome at answers ⊢
  cases answers with
  | token _ streamEq => cases streamEq
  | finished _ streamEq =>
      obtain ⟨_, endingEq⟩ := TokenStream.mk.inj streamEq
      rw [endingEq]
      simp only [Finish.ending, heard, refuses]
      rw [← stands.source_eq]
      exact ⟨_, rfl, hasStopped_cons stands _ _ _⟩
  | mistake _ streamEq =>
      obtain ⟨_, endingEq⟩ := TokenStream.mk.inj streamEq
      rw [endingEq]
      exact ⟨_, rfl, hasStopped_cons stands _ _ _⟩

/-! ### Pulls that mirror walks -/

def Arrives (total : Nat) (puller : Puller) (outcome : Except ReadError α) (walker : Walker) : Prop :=
  match outcome with
  | .ok _ => puller.StandsWith total walker
  | .error _ => puller.HasStopped total

/-- Wherever the walk comes to something, the pull comes to the same. -/
def Mirrors (total : Nat) (pull : Pull α) (walk : Walk α) : Prop :=
  ∀ puller walker, puller.StandsWith total walker → ∀ outcome last,
    walk walker = some (outcome, last) →
    ∃ final, pull puller = some (outcome, final) ∧ Arrives total final outcome last

theorem Mirrors.of_pure (value : α) : Mirrors total (pure value) (pure value) := by
  intro puller walker stands outcome last walkEq
  cases walkEq
  exact ⟨puller, rfl, stands⟩

theorem Mirrors.of_throw (error : ReadError) :
    Mirrors total (throw error : Pull α) (throw error) := by
  intro puller walker stands outcome last walkEq
  cases walkEq
  exact ⟨puller, rfl, stands.hasStopped⟩

theorem Mirrors.bind {pull : Pull α} {walk : Walk α} {goesOn : α → Pull β} {goesOn' : α → Walk β}
    (first : Mirrors total pull walk) (second : ∀ value, Mirrors total (goesOn value) (goesOn' value)) :
    Mirrors total (pull >>= goesOn) (walk >>= goesOn') := by
  intro puller walker stands outcome last walkEq
  rw [bind_apply] at walkEq
  cases firstEq : walk walker with
  | none =>
      rw [firstEq] at walkEq
      cases walkEq
  | some middle =>
      obtain ⟨middle, between⟩ := middle
      obtain ⟨final, pullEq, arrives⟩ := first puller walker stands _ _ firstEq
      rw [firstEq] at walkEq
      rw [bind_apply, pullEq]
      cases middle with
      | error error =>
          cases walkEq
          exact ⟨final, rfl, arrives⟩
      | ok value => exact second value final between arrives outcome last walkEq

theorem Mirrors.of_still (read : Read α) : Mirrors total (still read) (Walk.still read) := by
  intro puller walker stands outcome last walkEq
  unfold Walk.still at walkEq
  unfold still
  rw [stands.session_eq]
  cases readEq : read walker.session with
  | error error =>
      rw [readEq] at walkEq
      cases walkEq
      exact ⟨_, rfl, stands.hasStopped⟩
  | ok found =>
      obtain ⟨value, session⟩ := found
      rw [readEq] at walkEq
      cases walkEq
      exact ⟨_, rfl, stands.ready, stands.stream_eq, stands.current_eq, stands.source_eq, rfl,
        stands.givesTokens, stands.calls_eq⟩

theorem Mirrors.of_look {view : Puller → α} {view' : Cursor → α}
    (same : ∀ puller walker, puller.StandsWith total walker → view puller = view' walker.cursor) :
    Mirrors total (look view) (Walk.look view') := by
  intro puller walker stands outcome last walkEq
  cases walkEq
  refine ⟨puller, ?_, stands⟩
  rw [look, same puller walker stands]

theorem Mirrors.tag : Mirrors total (look Puller.tag) (Walk.look Cursor.tag) :=
  .of_look fun _ _ stands => stands.tag_eq

theorem Mirrors.text : Mirrors total (look (·.current.text)) (Walk.look (·.current.text)) :=
  .of_look fun _ _ stands => congrArg Current.text stands.current_eq

theorem Mirrors.encoding :
    Mirrors total (look (·.current.encoding)) (Walk.look (·.current.encoding)) :=
  .of_look fun _ _ stands => congrArg Current.encoding stands.current_eq

theorem Mirrors.of_stuck (pull : Pull α) : Mirrors total pull Walk.stuck := by
  intro puller walker stands outcome last walkEq
  cases walkEq

theorem Mirrors.loop {pull : Pull α} {walk : Nat → Walk α}
    (mirrors : ∀ steps, Mirrors total pull (walk steps)) : Mirrors total pull (Walk.loop walk) := by
  intro puller walker stands outcome last walkEq
  exact mirrors _ puller walker stands outcome last walkEq

/-- After one call, the walk and the pull go on for each token in the same way, and both refuse the
end of the document. -/
theorem Mirrors.next_bind {goesOn : Mark → Pull α} {goesOn' : Mark → Walk α}
    {refusal : Location → ReadError} (refuses : goesOn .finished = refuse refusal)
    (refuses' : goesOn' .finished = Walk.look Cursor.location >>= fun place => throw (refusal place))
    (mirrors : ∀ mark, mark ≠ .finished → Mirrors total (goesOn mark) (goesOn' mark)) :
    Mirrors total (next >>= goesOn) (Walk.move Cursor.next >>= goesOn') := by
  intro puller walker stands outcome last walkEq
  cases restEq : walker.cursor.rest with
  | nil =>
      obtain ⟨final, pullEq, stopped⟩ := next_bind_of_nil stands restEq refuses
      have outcomeEq : outcome = .error (walker.cursor.errorAtEnd refusal) := by
        rw [bind_apply] at walkEq
        unfold Cursor.errorAtEnd
        simp only [Walk.move, Cursor.next, restEq, Cursor.atEnd] at walkEq
        cases endingEq : walker.cursor.ending with
        | failed error =>
            simp only [endingEq] at walkEq
            cases walkEq
            rfl
        | finished first again encoding =>
            simp only [endingEq, refuses'] at walkEq
            cases walkEq
            rfl
      rw [outcomeEq]
      exact ⟨final, pullEq, stopped⟩
  | cons token rest =>
      obtain ⟨onward, nextEq, standsThere⟩ := next_of_cons stands restEq
      rw [bind_apply] at walkEq
      simp only [Walk.move, Cursor.next, restEq] at walkEq
      rw [bind_apply, nextEq]
      exact mirrors _ (markOf_ne_finished token) _ _ standsThere outcome last walkEq

/-! ### Loops over tokens -/

def Reaches (total : Nat) (pull : Pull α) (puller : Puller) (outcome : Cursor.Outcome α)
    (session : Session) : Prop :=
  ∃ final, pull puller = some (outcome.1, final) ∧
    Arrives total final outcome.1 ⟨outcome.2, session⟩

theorem Mirrors.of_move {pull : Pull α} {go : Cursor → Cursor.Outcome α}
    (reaches : ∀ tokens puller walker, puller.StandsWith total walker →
      walker.cursor.rest = tokens → Reaches total pull puller (go walker.cursor) walker.session) :
    Mirrors total pull (Walk.move go) := by
  intro puller walker stands outcome last walkEq
  have reached := reaches _ puller walker stands rfl
  cases walkEq
  exact reached

private theorem reaches_endError (stands : puller.StandsWith total walker)
    (restEq : walker.cursor.rest = [])
    {goesOn : Mark → Pull α} (refuses : goesOn .finished = refuse .unexpectedEnd) :
    Reaches total (next >>= goesOn) puller walker.cursor.endError walker.session := by
  obtain ⟨final, pullEq, stopped⟩ := next_bind_of_nil stands restEq refuses
  refine ⟨final, ?_, ?_⟩
  · rw [pullEq, Cursor.endError_fst]
  · rw [Cursor.endError_fst]
    exact stopped

private theorem text_eq_of_kind {token : Token} {rest : List Token} {content : String}
    (stands : puller.StandsWith total ⟨walker.cursor.onto token rest, walker.session⟩)
    (kind : token.kind = .text content) : puller.current.text = content := by
  rw [stands.current_eq]
  simp only [Cursor.onto, Current.after, kind]

private theorem mirrors_pullTag (context : Context) :
    Mirrors total context.pullTag (Walk.move (Cursor.nextTag context.strict)) := by
  apply Mirrors.of_move
  intro tokens puller walker stands restEq
  rw [Cursor.nextTag, restEq]
  induction tokens generalizing puller walker with
  | nil =>
      rw [Context.pullTag]
      exact reaches_endError stands restEq rfl
  | cons token rest ih =>
      obtain ⟨onward, nextEq, standsThere⟩ := next_of_cons stands restEq
      rw [Reaches, Context.pullTag, bind_apply, nextEq, Cursor.nextTagAmong]
      cases kind : token.kind with
      | opening name attributes =>
          simp only [Cursor.markOf, kind]
          exact ⟨onward, rfl, standsThere⟩
      | closing name =>
          simp only [Cursor.markOf, kind]
          exact ⟨onward, rfl, standsThere⟩
      | text content =>
          simp only [Cursor.markOf, kind]
          rw [bind_apply, look]
          simp only [text_eq_of_kind standsThere kind]
          split
          · rw [refuse_apply, standsThere.location_eq]
            exact ⟨onward, rfl, standsThere.hasStopped⟩
          · exact ih onward _ standsThere rfl

private theorem mirrors_pullText (context : Context) (text : String) :
    Mirrors total (context.pullText text)
      (Walk.move fun cursor => Cursor.nextTextAmong text cursor cursor.rest) := by
  apply Mirrors.of_move
  intro tokens puller walker stands restEq
  rw [restEq]
  induction tokens generalizing puller walker text with
  | nil =>
      rw [Context.pullText]
      exact reaches_endError stands restEq rfl
  | cons token rest ih =>
      obtain ⟨onward, nextEq, standsThere⟩ := next_of_cons stands restEq
      rw [Reaches, Context.pullText, bind_apply, nextEq, Cursor.nextTextAmong]
      cases kind : token.kind with
      | opening name attributes =>
          have tagEq : onward.tag = ⟨name, attributes, token.position⟩ :=
            standsThere.tag_eq.trans (Cursor.tag_onto_of_opening kind _ _)
          simp only [Cursor.markOf, kind]
          rw [bind_apply, look]
          simp only [tagEq]
          rw [refuse_apply, standsThere.location_eq]
          exact ⟨onward, rfl, standsThere.hasStopped⟩
      | closing name =>
          simp only [Cursor.markOf, kind]
          exact ⟨onward, rfl, standsThere⟩
      | text content =>
          simp only [Cursor.markOf, kind]
          rw [bind_apply, look]
          simp only [text_eq_of_kind standsThere kind]
          exact ih (text ++ content) onward _ standsThere rfl

private theorem mirrors_skip (context : Context) (depth : Nat) :
    Mirrors total (context.skip depth)
      (Walk.move fun cursor => Cursor.skipAmong depth cursor cursor.rest) := by
  apply Mirrors.of_move
  intro tokens puller walker stands restEq
  rw [restEq]
  induction tokens generalizing puller walker depth with
  | nil =>
      rw [Context.skip]
      exact reaches_endError stands restEq rfl
  | cons token rest ih =>
      obtain ⟨onward, nextEq, standsThere⟩ := next_of_cons stands restEq
      rw [Reaches, Context.skip, bind_apply, nextEq, Cursor.skipAmong]
      cases kind : token.kind with
      | opening name attributes =>
          simp only [Cursor.markOf, kind]
          exact ih (depth + 1) onward _ standsThere rfl
      | closing name =>
          simp only [Cursor.markOf, kind]
          split
          · exact ⟨onward, rfl, standsThere⟩
          · exact ih (depth - 1) onward _ standsThere rfl
      | text content =>
          simp only [Cursor.markOf, kind]
          exact ih depth onward _ standsThere rfl

end Pull

/-! ### Readers -/

section Readers

open Pull (Mirrors mirrors_pullTag mirrors_pullText mirrors_skip)

variable {total : Nat}

private theorem mirrors_pullParts (context : Context) (steps : Nat) (text : String)
    (children : List Tree) :
    Mirrors total (context.pullParts text children) (walkParts steps text children) := by
  induction steps generalizing text children with
  | zero => exact .of_stuck _
  | succ steps ih =>
      rw [Context.pullParts, walkParts]
      apply Mirrors.next_bind rfl rfl
      intro mark goesOn
      cases mark with
      | opening =>
          refine Mirrors.bind ?_ fun child => ih text (children ++ [child])
          exact Mirrors.tag.bind fun tag => (ih "" []).bind fun parts => .of_pure _
      | closing => exact .of_pure _
      | text => exact Mirrors.text.bind fun content => ih (text ++ content) children
      | finished => exact absurd rfl goesOn

/-- The pull mirrors the walk, wherever both are entered. -/
def mirroring (total : Nat) : Likeness Pull Walk where
  Stage := Unit
  Like _ _ pull walk := Mirrors total pull walk
  of_pure _ value := .of_pure value
  bind first second := first.bind second

private theorem pulling_alike (context : Context) :
    context.pulling.Alike (mirroring total) context.walking () () where
  context_eq := rfl
  tag := Mirrors.tag
  text := mirrors_pullText context ""
  tree := by
    apply Mirrors.tag.bind
    intro tag
    refine Mirrors.bind ?_ fun parts => .of_pure _
    exact .loop fun steps => mirrors_pullParts context steps "" []
  skip := mirrors_skip context 1
  still := fun _ read _ => .of_still read
  fail := fun _ _ error => .of_still (throw error)

private theorem pulling_enters (context : Context) :
    context.pulling.Enters (mirroring total) context.walking () () () where
  toAlike := pulling_alike context
  begin className tag atRoot := .of_still (context.beginEntity className tag atRoot)
  goesOn := pulling_alike context

/-- If the elements are taken alike, so is all up to the end tag behind them. -/
private theorem mirrors_atNextTag {α : Type} (context : Context) (found : α) {pull : Pull α}
    {walk : Walk α} (mirrors : Mirrors total pull walk) :
    Mirrors total (atNextTag context.pullTag found pull)
      (atNextTag (Walk.move (Cursor.nextTag context.strict)) found walk) := by
  apply (mirrors_pullTag context).bind
  intro mark
  cases mark with
  | opening => exact mirrors
  | closing | text | finished => exact .of_pure _

private theorem mirrors_pullEntryParts (context : Context) (field : Field) (steps : Nat)
    (parts : EntryParts) :
    Mirrors total (context.pullEntryParts field parts) (context.walkEntryParts field steps parts) := by
  induction steps generalizing parts with
  | zero => exact .of_stuck _
  | succ steps ih =>
      rw [Context.pullEntryParts, Context.walkEntryParts]
      apply mirrors_atNextTag
      exact ((pulling_enters context).part field parts).bind ih

private theorem mirrors_pullEntries (context : Context) (id : EntityId) (field : TaggedField)
    (encoding : MapEncoding) (steps : Nat) (entries : OrderedMap String String) :
    Mirrors total (context.pullEntries id field encoding entries)
      (context.walkEntries id field encoding steps entries) := by
  induction steps generalizing entries with
  | zero => exact .of_stuck _
  | succ steps ih =>
      rw [Context.pullEntries, Context.walkEntries]
      apply mirrors_atNextTag
      refine Mirrors.bind ((pulling_enters context).mapItem id field encoding entries ?_) ih
      exact .loop fun steps => mirrors_pullEntryParts context field.declared steps {}

private theorem mirrors_allEntries (context : Context) (id : EntityId) (field : TaggedField)
    (encoding : MapEncoding) :
    Mirrors total (context.pullEntries id field encoding [])
      (context.allEntries id field encoding) :=
  .loop fun steps => mirrors_pullEntries context id field encoding steps []

/-- The loops over children and items mirror those that have so many steps.  What is inside an
element is read with the steps that are left, so the induction is on them. -/
private theorem mirrors_pullChildren_and_pullItems (context : Context) (steps : Nat) :
    (∀ frame values seen, Mirrors total (context.pullChildren frame values seen)
      (context.walkChildren steps frame values seen)) ∧
    ∀ id field collection type holder,
      Mirrors total (context.pullItems id field collection type holder)
        (context.walkItems steps id field collection type holder) := by
  induction steps with
  | zero =>
      refine ⟨fun _ _ _ => ?_, fun _ _ _ _ _ => ?_⟩
      · rw [Context.walkChildren]
        exact .of_stuck _
      · rw [Context.walkItems]
        exact .of_stuck _
  | succ steps ih =>
      obtain ⟨children, items⟩ := ih
      constructor
      · intro frame values seen
        rw [Context.pullChildren, Context.walkChildren]
        apply mirrors_atNextTag
        have child := (pulling_enters context).child
          (fun frame values => children frame values []) frame values seen
          (fun field collection type =>
            items frame.id field collection type (.collection collection []))
          (mirrors_allEntries context frame.id)
        refine Mirrors.bind child ?_
        rintro ⟨values, seen⟩
        exact children frame values seen
      · intro id field collection type holder
        rw [Context.pullItems, Context.walkItems]
        apply mirrors_atNextTag
        have added := (pulling_enters context).addItem
          (fun frame values => children frame values []) id field collection type holder
        exact Mirrors.bind added fun holder => items id field collection type holder

/-! ### Documents -/

private theorem mirrors_pullToRoot (context : Context) (layout : Layout) (steps : Nat) :
    Mirrors total (context.pullToRoot layout) (walkToRoot layout steps) := by
  induction steps with
  | zero => exact .of_stuck _
  | succ steps ih =>
      rw [Context.pullToRoot, walkToRoot]
      apply Mirrors.next_bind rfl rfl
      intro mark goesOn
      cases mark with
      | opening => exact .of_pure _
      | closing | text => exact ih
      | finished => exact absurd rfl goesOn

private theorem mirrors_pullDocument (context : Context) (className : String) :
    Mirrors total (context.pullDocument className) (context.walkDocument className) := by
  have children (frame : Frame) (values : FieldValues) :
      Mirrors total (context.pullChildren frame values []) (context.allChildren frame values) :=
    .loop fun steps => (mirrors_pullChildren_and_pullItems context steps).1 frame values []
  exact (pulling_enters context).document children className ()
    (fun layout => .loop (mirrors_pullToRoot context layout)) Mirrors.encoding

end Readers

/-! ### Every read ends -/

section Ends

open Pull (Mirrors mirrors_pullTag mirrors_pullText mirrors_skip)

variable {α : Type} {total : Nat} {puller : Puller} {walker : Walker}

theorem Puller.EndsWith.mono {outcome : Except ReadError α} {allowed : Nat}
    (ends : puller.EndsWith total outcome) (within : total ≤ allowed) :
    puller.EndsWith allowed outcome :=
  ⟨⟨Nat.le_trans ends.stopped.calls_le (Nat.add_le_add_right within 1), ends.stopped.givesTokens⟩,
    ends.heardEnd⟩

theorem Pull.Arrives.endsWith {outcome : Except ReadError α} {last : Walker}
    (arrives : Pull.Arrives total puller outcome last) : puller.EndsWith total outcome := by
  cases outcome with
  | error error => exact ⟨arrives, fun _ _ _ => ⟨error, rfl⟩⟩
  | ok value =>
      refine ⟨Puller.StandsWith.hasStopped arrives, fun answer member noToken => ?_⟩
      exact absurd (Puller.StandsWith.givesTokens arrives answer member) noToken

def Pull.Ends (pull : Pull α) (puller : Puller) : Prop :=
  ∃ outcome final, pull puller = some (outcome, final) ∧
    final.EndsWith puller.tokenizer.measure outcome

structure LoopsEnd (context : Context) (puller : Puller) : Prop where
  tag : context.pullTag.Ends puller
  text (text : String) : (context.pullText text).Ends puller
  skip (depth : Nat) : (context.skip depth).Ends puller
  parts (text : String) (children : List Tree) : (context.pullParts text children).Ends puller
  entryParts (field : Field) (parts : EntryParts) : (context.pullEntryParts field parts).Ends puller
  entries (id : EntityId) (field : TaggedField) (encoding : MapEncoding)
    (entries : OrderedMap String String) : (context.pullEntries id field encoding entries).Ends puller
  children (frame : Frame) (values : FieldValues) (seen : List String) :
    (context.pullChildren frame values seen).Ends puller
  items (id : EntityId) (field : TaggedField) (collection : Collection) (type : ItemType)
    (holder : Value) : (context.pullItems id field collection type holder).Ends puller
  toRoot (layout : Layout) : (context.pullToRoot layout).Ends puller

private theorem standsWith_fresh {tokenizer : Tokenizer} (ready : tokenizer.Ready) (current : Current)
    (source : Option Source) (session : Session) :
    (Puller.fresh tokenizer current source session).StandsWith tokenizer.stream.tokens.length
      ⟨⟨tokenizer.stream.tokens, tokenizer.stream.ending, current, source⟩, session⟩ :=
  ⟨ready, rfl, rfl, rfl, rfl, nofun, Nat.zero_add _⟩

private theorem ends_of_mirrors {tokenizer : Tokenizer} (ready : tokenizer.Ready) {current : Current}
    {source : Option Source} {session : Session} {pull : Pull α} {walk : Walk α}
    (mirrors : Mirrors tokenizer.stream.tokens.length pull walk)
    (comes : walk ⟨⟨tokenizer.stream.tokens, tokenizer.stream.ending, current, source⟩, session⟩ ≠
      none) :
    pull.Ends (.fresh tokenizer current source session) := by
  obtain ⟨⟨outcome, last⟩, walkEq⟩ := Option.ne_none_iff_exists'.1 comes
  have stands := standsWith_fresh ready current source session
  obtain ⟨final, pullEq, arrives⟩ := mirrors _ _ stands outcome last walkEq
  exact ⟨outcome, final, pullEq, arrives.endsWith.mono (Tokenizer.length_stream_le ready)⟩

private theorem ne_none_of_follows {walk : Walk α} {read : Read α} {ends : Cursor → Prop}
    (follows : Walk.Follows walk read walker ends) : walk walker ≠ none := by
  intro nothing
  have came := follows.map_fst_eq ends
  rw [nothing] at came
  cases came

private theorem walkToRoot_ne_none (context : Context) (layout : Layout) (walker : Walker)
    (sourceEq : walker.cursor.source = context.source) :
    Walk.loop (walkToRoot layout) walker ≠ none := by
  have found := walkToRoot_found context layout walker.cursor.rest walker sourceEq rfl
  intro nothing
  rw [Walk.loop] at nothing
  rw [nothing] at found
  cases documentEq : Markup.Document.ofTokens walker.cursor.ending walker.cursor.rest with
  | rooted tag inside =>
      rw [documentEq] at found
      obtain ⟨_, _, came⟩ := found
      cases came
  | empty ending =>
      rw [documentEq] at found
      cases ending with
      | failed error =>
          obtain ⟨_, came⟩ := found
          cases came
      | finished first again encoding =>
          obtain ⟨_, came⟩ := found
          cases came

private theorem loopsEnd (context : Context) {tokenizer : Tokenizer} (ready : tokenizer.Ready)
    (current : Current) (session : Session) :
    LoopsEnd context (.fresh tokenizer current context.source session) := by
  let cursor : Cursor :=
    ⟨tokenizer.stream.tokens, tokenizer.stream.ending, current, context.source⟩
  have stands : (Walker.mk cursor session).cursor.StandsOn context cursor.tag cursor.inside :=
    ⟨rfl, rfl, rfl⟩
  constructor
  case tag => exact ends_of_mirrors ready (mirrors_pullTag context) nofun
  case text =>
    intro text
    exact ends_of_mirrors ready (mirrors_pullText context text) nofun
  case skip =>
    intro depth
    exact ends_of_mirrors ready (mirrors_skip context depth) nofun
  case parts =>
    intro text children
    exact ends_of_mirrors ready (.loop fun steps => mirrors_pullParts context steps text children)
      (ne_none_of_follows ((loopFollows_walkParts _ text children).loop stands))
  case entryParts =>
    intro field parts
    exact ends_of_mirrors ready (.loop fun steps => mirrors_pullEntryParts context field steps parts)
      (ne_none_of_follows ((loopFollows_walkEntryParts field _ parts).loop stands))
  case entries =>
    intro id field encoding entries
    exact ends_of_mirrors ready
      (.loop fun steps => mirrors_pullEntries context id field encoding steps entries)
      (ne_none_of_follows ((loopFollows_walkEntries id field encoding _ entries).loop stands))
  case children =>
    intro frame values seen
    exact ends_of_mirrors ready
      (.loop fun steps =>
        (mirrors_pullChildren_and_pullItems context steps).1 frame values seen)
      (ne_none_of_follows (((readersAgree context _).children frame values seen).loop stands))
  case items =>
    intro id field collection type holder
    exact ends_of_mirrors ready
      (.loop fun steps =>
        (mirrors_pullChildren_and_pullItems context steps).2 id field collection type holder)
      (ne_none_of_follows
        (((readersAgree context _).items id field collection type holder).loop stands))
  case toRoot =>
    intro layout
    exact ends_of_mirrors ready (.loop (mirrors_pullToRoot context layout))
      (walkToRoot_ne_none context layout _ rfl)

/-! ### Calls for tokens -/

structure Puller.StandsAt (puller : Puller) (here : DocumentCursor) : Prop where
  ready : puller.tokenizer.Ready
  stream_eq : puller.tokenizer.stream = ⟨here.cursor.rest, here.cursor.ending⟩
  beyond_eq : puller.tokenizer.beyond = here.beyond
  current_eq : puller.current = here.cursor.current

/-- A call for a token is answered as the cursor is, and leaves the puller where the cursor goes. -/
theorem Puller.StandsAt.ask {here : DocumentCursor} (stands : puller.StandsAt here) :
    puller.ask.1 = here.next.1 ∧ puller.ask.2.StandsAt here.next.2 := by
  obtain ⟨ready, streamEq, beyondEq, currentEq⟩ := stands
  obtain ⟨⟨rest, ending, current, source⟩, beyond⟩ := here
  simp only at streamEq beyondEq currentEq
  have answers := Tokenizer.next_answers ready
  rw [streamEq, beyondEq] at answers
  unfold Puller.ask
  generalize puller.tokenizer.next = outcome at answers ⊢
  cases answers with
  | token ready streamEq beyondEq =>
      obtain ⟨rfl, rfl⟩ := TokenStream.mk.inj streamEq
      subst beyondEq
      exact ⟨rfl, ready, rfl, rfl, congrArg (Current.after · _) currentEq⟩
  | finished ready streamEq beyondEq again nothing =>
      obtain ⟨rfl, rfl⟩ := TokenStream.mk.inj streamEq
      subst beyondEq
      exact ⟨rfl, ready, again, nothing, rfl⟩
  | mistake ready streamEq beyondEq =>
      obtain ⟨rfl, rfl⟩ := TokenStream.mk.inj streamEq
      subst beyondEq
      exact ⟨rfl, ready, rfl, rfl, congrArg (Current.glimpsed · _) currentEq⟩

theorem Puller.asked_standsAt (extended : Bool) (document : String) (source : Option Source)
    (calls : Nat) :
    (Puller.asked extended document source calls).StandsAt
      (DocumentCursor.moved extended document source (.replicate calls .next)) := by
  induction calls with
  | zero =>
      exact ⟨Tokenizer.ready_ofDocument extended document, rfl, rfl, rfl⟩
  | succ calls ih =>
      rw [List.replicate_succ', DocumentCursor.moved, List.foldl_append]
      exact ih.ask.2

/-- Whatever the calls for tokens have been answered so far, the next is answered as a cursor on the
document is, and a token costs bytes, or it is the end of an empty element that has been held back.  So
all loops of a read end, wherever in a document they are entered; the end of the document or an error is
the last thing any of them hears.  And a read of a document comes to what the reader finds in it after
at most two calls for a byte and one more, whatever the classes hold and whatever the document is. -/
theorem every_read_ends :
    (∀ extended document source calls,
      let puller := Puller.asked extended document source calls
      let here := DocumentCursor.moved extended document source (.replicate calls .next)
      (puller.ask.1 = here.next.1 ∧ puller.ask.2.current = here.next.2.cursor.current) ∧
      (∀ token later, puller.tokenizer.next = (.ok token, later) →
        later.measure < puller.tokenizer.measure ∧ Tokenizer.HeldAfter token later.held) ∧
      (∀ stop later, puller.tokenizer.next = (.error stop, later) →
        later.measure ≤ puller.tokenizer.measure) ∧
      ∀ (context : Context) current session,
        LoopsEnd context (.fresh puller.tokenizer current context.source session)) ∧
    ∀ (reader : Reader) className document source,
      ∃ puller, reader.pullAs className document source =
          some (reader.readAs className document source, puller) ∧
        puller.EndsWith (2 * document.utf8ByteSize) (reader.readAs className document source) := by
  refine ⟨fun extended document source calls => ?_, ?reads⟩
  · intro puller here
    have stands : puller.StandsAt here := Puller.asked_standsAt extended document source calls
    have answers := Tokenizer.next_answers stands.ready
    refine ⟨⟨stands.ask.1, stands.ask.2.current_eq⟩, ?_, ?_, ?_⟩
    · intro token later nextEq
      rw [nextEq] at answers
      cases answers with
      | token _ _ _ heldAfter costs => exact ⟨costs, heldAfter⟩
    · intro stop later nextEq
      rw [nextEq] at answers
      cases answers with
      | finished _ _ _ _ _ costs => exact costs
      | mistake _ _ _ costs => exact costs
    · exact fun context current session => loopsEnd context stands.ready current session
  case reads =>
    intro reader className document source
    have found := readAs_eq_walkDocument reader className document source
    obtain ⟨⟨outcome, last⟩, walkEq, outcomeEq⟩ := Option.map_eq_some_iff.1 found
    cases outcomeEq
    have ready := Tokenizer.ready_ofDocument reader.options.extended document
    obtain ⟨puller, pullEq, arrives⟩ := mirrors_pullDocument _ className _ _
      (standsWith_fresh ready .initial _ .initial) _ last walkEq
    refine ⟨puller, pullEq, arrives.endsWith.mono ?_⟩
    exact Nat.le_trans (Tokenizer.length_stream_le ready)
      (Tokenizer.measure_ofDocument_le reader.options.extended document)

/-- Behind a wrong reference and the wrong attribute of an empty tag, the end tag that is held back costs
what was held back, and nothing of the four bytes to come. -/
theorem every_read_ends_behind_mistakes :
    ∃ document later, document = "<r>&no;<a b/></r>" ∧
      let puller := Puller.asked true document none 3
      puller.answers.map Except.toOption = [none, none, some .opening] ∧
      puller.tokenizer.next = (.ok ⟨.closing "a", ⟨1, 14⟩, "UTF-8"⟩, later) ∧
      puller.tokenizer.measure = 9 ∧ later.measure < 9 ∧
      LoopsEnd ⟨⟨[], "", .lowerCamel, true, none, none⟩, true, none⟩
        (.fresh puller.tokenizer .initial none .initial) := by
  obtain ⟨document, documentEq⟩ : ∃ document, document = "<r>&no;<a b/></r>" := ⟨_, rfl⟩
  have answersEq : (Puller.asked true document none 3).answers.map Except.toOption =
      [none, none, some .opening] := by
    rw [documentEq]
    decide +kernel
  have measureEq : (Puller.asked true document none 3).tokenizer.measure = 9 := by
    rw [documentEq]
    decide +kernel
  have closing : (Puller.asked true document none 3).tokenizer.next =
      (.ok ⟨.closing "a", ⟨1, 14⟩, "UTF-8"⟩, (Puller.asked true document none 3).tokenizer.next.2) := by
    refine Prod.ext (eq_ok_of_toOption ?_) rfl
    rw [documentEq]
    decide +kernel
  obtain ⟨_, costs, _, loops⟩ := every_read_ends.1 true document none 3
  have cost := (costs _ _ closing).1
  rw [measureEq] at cost
  exact ⟨document, _, documentEq, answersEq, closing, measureEq, cost, loops _ .initial .initial⟩

end Ends

end Trellis.Reading
