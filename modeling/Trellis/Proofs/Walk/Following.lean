import Trellis.Proofs.Reading.Runs
import Trellis.Proofs.Walk.Cursor

/-!
Walks that follow readers.

A walk follows a reader of content if it comes to what the reader comes to, and leaves the cursor at
the end of that content.  There is one rule for each way in which walks are put together; a loop
follows a reader if it does so in front of each of the constructors of a content.
-/

namespace Trellis.Reading

open Markup (Content Ending Tag Token)

structure Cursor.StandsOn (context : Context) (cursor : Cursor) (tag : Tag) (inside : Content) :
    Prop where
  source_eq : cursor.source = context.source
  tag_eq : cursor.tag = tag
  inside_eq : cursor.inside = inside

theorem bind_apply {σ α β : Type} (first : ExceptT ReadError (StateT σ Option) α)
    (next : α → ExceptT ReadError (StateT σ Option) β) (state : σ) :
    (first >>= next) state =
      match first state with
      | none => none
      | some (.ok value, state) => next value state
      | some (.error error, state) => some (.error error, state) := by
  change Option.bind (first state) _ = _
  cases first state with
  | none => rfl
  | some outcome =>
      obtain ⟨value | error, state⟩ := outcome <;> rfl

namespace Walk

/-! ### Runs -/

/-- From the walker on, the walk has the outcome of the read, and leaves the cursor where `ends`
says if it succeeds. -/
def Follows {α : Type} (walk : Walk α) (read : Read α) (walker : Walker) (ends : Cursor → Prop) :
    Prop :=
  match read walker.session with
  | .ok (value, session) => ∃ last, ends last ∧ walk walker = some (.ok value, ⟨last, session⟩)
  | .error error => ∃ last, walk walker = some (.error error, last)

variable {α β : Type} {walker : Walker} {ends middle : Cursor → Prop}

theorem Follows.of_pure {value : α} (atEnd : ends walker.cursor) :
    Follows (pure value) (pure value) walker ends :=
  ⟨walker.cursor, atEnd, rfl⟩

theorem Follows.of_throw {error : ReadError} :
    Follows (throw error : Walk α) (throw error) walker ends :=
  ⟨walker, rfl⟩

theorem Follows.bind {walk : Walk α} {read : Read α} {next : α → Walk β} {then' : α → Read β}
    (first : Follows walk read walker middle)
    (second : ∀ value last session, middle last →
      Follows (next value) (then' value) ⟨last, session⟩ ends) :
    Follows (walk >>= next) (read >>= then') walker ends := by
  unfold Follows at first ⊢
  rw [Read.bind_apply]
  cases readEq : read walker.session with
  | error error =>
      rw [readEq] at first
      obtain ⟨last, walkEq⟩ := first
      refine ⟨last, ?_⟩
      rw [bind_apply, walkEq]
  | ok found =>
      obtain ⟨value, session⟩ := found
      rw [readEq] at first
      obtain ⟨last, lastMiddle, walkEq⟩ := first
      rw [bind_apply, walkEq]
      exact second value last session lastMiddle

theorem Follows.of_still (read : Read α) (atEnd : ends walker.cursor) :
    Follows (still read) read walker ends := by
  unfold Follows
  cases readEq : read walker.session with
  | error error =>
      refine ⟨walker, ?_⟩
      simp only [Walk.still, readEq]
  | ok found =>
      obtain ⟨value, session⟩ := found
      refine ⟨walker.cursor, atEnd, ?_⟩
      simp only [Walk.still, readEq]

theorem Follows.still_bind {read : Read α} {next : α → Walk β} {then' : α → Read β}
    (second : ∀ value session, Follows (next value) (then' value) ⟨walker.cursor, session⟩ ends) :
    Follows (still read >>= next) (read >>= then') walker ends := by
  have first : Follows (still read) read walker (· = walker.cursor) := .of_still read rfl
  apply first.bind
  intro value last session lastEq
  rw [lastEq]
  exact second value session

theorem Follows.look {view : Cursor → α} {next : α → Walk β} {read : Read β}
    (follows : Follows (next (view walker.cursor)) read walker ends) :
    Follows (look view >>= next) read walker ends := by
  have same : (Walk.look view >>= next) walker = next (view walker.cursor) walker := by
    rw [bind_apply]
    rfl
  unfold Follows at follows ⊢
  rw [same]
  exact follows

theorem Follows.move {go : Cursor → Cursor.Outcome α} {expected : Except ReadError α}
    (completes : walker.cursor.Completes expected (go walker.cursor)) :
    Follows (move go) (liftM expected) walker walker.cursor.Ends := by
  unfold Follows
  rw [Read.lift_apply]
  cases expected with
  | error error =>
      obtain ⟨last, outcomeEq⟩ := completes
      refine ⟨⟨last, walker.session⟩, ?_⟩
      simp only [Walk.move, outcomeEq]
  | ok value =>
      obtain ⟨last, lastEnds, outcomeEq⟩ := completes
      refine ⟨last, lastEnds, ?_⟩
      simp only [Walk.move, outcomeEq]

theorem Follows.of_ends {walk : Walk α} {read : Read α}
    (follows : Follows walk read walker middle) (weaker : ∀ last, middle last → ends last) :
    Follows walk read walker ends := by
  unfold Follows at follows ⊢
  cases readEq : read walker.session with
  | error error =>
      rw [readEq] at follows
      exact follows
  | ok found =>
      rw [readEq] at follows
      obtain ⟨last, lastMiddle, walkEq⟩ := follows
      exact ⟨last, weaker last lastMiddle, walkEq⟩

theorem Follows.map_fst_eq {walk : Walk α} {read : Read α} (ends : Cursor → Prop)
    (follows : Follows walk read walker ends) :
    (walk walker).map Prod.fst = some ((read walker.session).map Prod.fst) := by
  unfold Follows at follows
  cases readEq : read walker.session with
  | error error =>
      rw [readEq] at follows
      obtain ⟨last, walkEq⟩ := follows
      rw [walkEq]
      rfl
  | ok found =>
      rw [readEq] at follows
      obtain ⟨last, _, walkEq⟩ := follows
      rw [walkEq]
      rfl

/-! ### Moves to the next token -/

theorem Follows.move_ok {go : Cursor → Cursor.Outcome α} {next : α → Walk β} {read : Read β}
    {value : α} {here : Cursor} (moved : go walker.cursor = (.ok value, here))
    (follows : Follows (next value) read ⟨here, walker.session⟩ ends) :
    Follows (Walk.move go >>= next) read walker ends := by
  have same : (Walk.move go >>= next) walker = next value ⟨here, walker.session⟩ := by
    rw [bind_apply]
    simp only [Walk.move, moved]
  unfold Follows at follows ⊢
  rw [same]
  exact follows

theorem Follows.move_error {go : Cursor → Cursor.Outcome α} {next : α → Walk β} {error : ReadError}
    {here : Cursor} (moved : go walker.cursor = (.error error, here)) :
    Follows (Walk.move go >>= next) (throw error : Read β) walker ends := by
  refine ⟨⟨here, walker.session⟩, ?_⟩
  rw [bind_apply]
  simp only [Walk.move, moved]

theorem Follows.move_from {go : Cursor → Cursor.Outcome α} {next : α → Walk β} {read : Read β}
    {here : Cursor} (moves : go walker.cursor = go here)
    (follows : Follows (Walk.move go >>= next) read ⟨here, walker.session⟩ ends) :
    Follows (Walk.move go >>= next) read walker ends := by
  have same : (Walk.move go >>= next) walker =
      (Walk.move go >>= next) ⟨here, walker.session⟩ := by
    rw [bind_apply, bind_apply]
    simp only [Walk.move, moves]
  unfold Follows at follows ⊢
  rw [same]
  exact follows

variable {context : Context}

/-! ### Loops -/

structure StopsAtTags (go : Cursor → Cursor.Outcome Mark) : Prop where
  opening {cursor : Cursor} {token : Token} {rest : List Token} {name : String}
    {attributes : List (String × String)} :
    cursor.rest = token :: rest → token.kind = .opening name attributes →
      go cursor = (.ok .opening, cursor.onto token rest)
  closing {cursor : Cursor} {token : Token} {rest : List Token} {name : String} :
    cursor.rest = token :: rest → token.kind = .closing name →
      go cursor = (.ok .closing, cursor.onto token rest)

theorem stopsAtTags_next : StopsAtTags Cursor.next where
  opening := by
    intro cursor token rest name attributes restEq kind
    simp only [Cursor.next, restEq, Cursor.markOf, kind]
  closing := by
    intro cursor token rest name restEq kind
    simp only [Cursor.next, restEq, Cursor.markOf, kind]

theorem stopsAtTags_nextTag (strict : Bool) : StopsAtTags (Cursor.nextTag strict) where
  opening := by
    intro cursor token rest name attributes restEq kind
    simp only [Cursor.nextTag, Cursor.nextTagAmong, restEq, kind, Cursor.markOf]
  closing := by
    intro cursor token rest name restEq kind
    simp only [Cursor.nextTag, Cursor.nextTagAmong, restEq, kind, Cursor.markOf]

/-- In front of the content the loop follows the read if it has more steps than tokens are left. -/
def LoopFollows (context : Context) (content : Content) (walk : Nat → Walk α) (read : Read α) :
    Prop :=
  ∀ walker : Walker, walker.cursor.source = context.source → walker.cursor.inside = content →
    ∀ steps, walker.cursor.rest.length < steps → Follows (walk steps) read walker walker.cursor.Ends

theorem LoopFollows.loop {tag : Tag} {inside : Content} {walk : Nat → Walk α} {read : Read α}
    (follows : LoopFollows context inside walk read)
    (stands : walker.cursor.StandsOn context tag inside) :
    Follows (loop walk) read walker walker.cursor.Ends :=
  follows walker stands.source_eq stands.inside_eq (walker.cursor.rest.length + 1) (Nat.lt_succ_self _)

variable {go : Cursor → Cursor.Outcome Mark} {walk : Nat → Walk α} {body : Nat → Mark → Walk α}
  {read : Read α}

theorem LoopFollows.of_steps {content : Content}
    (follows : ∀ walker : Walker, walker.cursor.source = context.source →
      walker.cursor.inside = content → ∀ steps, walker.cursor.rest.length ≤ steps →
      Follows (walk (steps + 1)) read walker walker.cursor.Ends) :
    LoopFollows context content walk read := by
  intro walker sourceEq insideEq steps enough
  obtain ⟨steps, rfl⟩ := Nat.exists_eq_add_one_of_ne_zero (Nat.ne_zero_of_lt enough)
  exact follows walker sourceEq insideEq steps (Nat.le_of_lt_succ enough)

theorem LoopFollows.closed {encoding : String} {value : α} (stops : StopsAtTags go)
    (unfolds : ∀ steps, walk (steps + 1) = Walk.move go >>= body steps)
    (returns : ∀ steps, body steps .closing = pure value) :
    LoopFollows context (.closed encoding) walk (pure value) := by
  apply LoopFollows.of_steps
  intro walker sourceEq insideEq steps enough
  obtain ⟨token, rest, name, restEq, kind, atEnd⟩ := Cursor.inside_closed insideEq
  rw [unfolds]
  apply Follows.move_ok (stops.closing restEq kind)
  rw [returns]
  exact Follows.of_pure atEnd

theorem LoopFollows.element {tag : Tag} {within after : Content} (stops : StopsAtTags go)
    (unfolds : ∀ steps, walk (steps + 1) = Walk.move go >>= body steps)
    (opens : ∀ (walker : Walker) steps (ends : Cursor → Prop),
      walker.cursor.StandsOn context tag within → walker.cursor.rest.length < steps →
      (∀ last session, walker.cursor.Ends last → ∀ (later : Nat → Walk α) (laterRead : Read α),
        LoopFollows context after later laterRead →
          Follows (later steps) laterRead ⟨last, session⟩ ends) →
      Follows (body steps .opening) read walker ends) :
    LoopFollows context (.element tag within after) walk read := by
  apply LoopFollows.of_steps
  intro walker sourceEq insideEq steps enough
  obtain ⟨token, rest, restEq, kind, tagEq, withinEq, _, afterwards⟩ :=
    Cursor.inside_element insideEq
  have shorter : rest.length < steps := by
    rw [restEq, List.length_cons] at enough
    exact enough
  rw [unfolds]
  apply Follows.move_ok (stops.opening restEq kind)
  apply opens ⟨walker.cursor.onto token rest, walker.session⟩ steps _
    ⟨sourceEq, tagEq, withinEq⟩ shorter
  intro last session lastEnds later laterRead follows
  obtain ⟨lastInside, further⟩ := afterwards last lastEnds
  have lastSource : last.source = context.source := by
    rw [lastEnds.source_eq, Cursor.onto_source, sourceEq]
  -- The element has taken tokens, so that the steps left are enough.
  have lastEnough : last.rest.length < steps := Nat.lt_trans lastEnds.rest_length_lt shorter
  exact (follows ⟨last, session⟩ lastSource lastInside steps lastEnough).of_ends further

/-! ### Loops over tags -/

theorem LoopFollows.nextTag_broken {ending : Ending}
    (unfolds : ∀ steps, walk (steps + 1) = Walk.move (Cursor.nextTag context.strict) >>= body steps) :
    LoopFollows context (.broken ending) walk (throw (context.breakError ending)) := by
  apply LoopFollows.of_steps
  intro walker sourceEq insideEq steps enough
  obtain ⟨restEq, endingEq⟩ := Cursor.inside_broken insideEq
  obtain ⟨last, failed⟩ := Cursor.endError_eq (α := Mark) sourceEq endingEq
  have moved : walker.cursor.nextTag context.strict = (.error (context.breakError ending), last) := by
    rw [Cursor.nextTag, restEq]
    exact failed
  rw [unfolds]
  exact Follows.move_error moved

/-- Text between tags takes no step. -/
theorem LoopFollows.nextTag_text {position : Position} {text : String} {after : Content}
    (unfolds : ∀ steps, walk (steps + 1) = Walk.move (Cursor.nextTag context.strict) >>= body steps)
    (later : LoopFollows context after walk read) :
    LoopFollows context (.text position text after) walk
      ((liftM (context.passText position text) : Read Unit) >>= fun _ => read) := by
  apply LoopFollows.of_steps
  intro walker sourceEq insideEq steps enough
  obtain ⟨token, rest, restEq, kind, positionEq, afterEq, further⟩ := Cursor.inside_text insideEq
  rw [unfolds, Context.passText]
  by_cases refused : (context.strict && !Text.isBlankText text) = true
  · have placeEq : (walker.cursor.onto token rest).location = context.locate position := by
      rw [Cursor.location_onto, positionEq, sourceEq]
      rfl
    have moved : walker.cursor.nextTag context.strict =
        (.error (.unexpectedText (context.locate position)), walker.cursor.onto token rest) := by
      simp only [Cursor.nextTag, Cursor.nextTagAmong, restEq, kind, refused, if_true, placeEq]
    rw [if_pos refused]
    exact Follows.move_error moved
  · have moves : walker.cursor.nextTag context.strict =
        (walker.cursor.onto token rest).nextTag context.strict := by
      simp only [Cursor.nextTag, Cursor.nextTagAmong, restEq, kind, refused]
      rfl
    -- The text is passed within the move, so that all steps are left for what comes after it.
    have hereEnough : (walker.cursor.onto token rest).rest.length < steps + 1 := by
      rw [restEq, List.length_cons] at enough
      rw [Cursor.onto_rest]
      omega
    have following := later ⟨walker.cursor.onto token rest, walker.session⟩ sourceEq afterEq
      (steps + 1) hereEnough
    rw [unfolds] at following
    rw [if_neg refused]
    exact (Follows.move_from moves following).of_ends further

/-! ### Loops over tags and texts -/

theorem LoopFollows.next_broken {ending : Ending}
    (unfolds : ∀ steps, walk (steps + 1) = Walk.move Cursor.next >>= body steps)
    (fails : ∀ steps, body steps .finished =
      Walk.look Cursor.location >>= fun place => throw (.unexpectedEnd place)) :
    LoopFollows context (.broken ending) walk (throw (context.breakError ending)) := by
  apply LoopFollows.of_steps
  intro walker sourceEq insideEq steps enough
  obtain ⟨restEq, endingEq⟩ := Cursor.inside_broken insideEq
  rw [unfolds]
  cases ending with
  | failed error =>
      have moved : walker.cursor.next = (.error (.markup error), walker.cursor) := by
        simp only [Cursor.next, restEq, Cursor.atEnd, endingEq]
      exact Follows.move_error moved
  | finished first again encoding =>
      have moved : walker.cursor.next =
          (.ok .finished, walker.cursor.onEnd first again encoding) := by
        simp only [Cursor.next, restEq, Cursor.atEnd, endingEq]
      have placeEq : (walker.cursor.onEnd first again encoding).location = context.locate first := by
        simp only [Cursor.location, Cursor.onEnd, sourceEq, Context.locate]
      apply Follows.move_ok moved
      rw [fails]
      apply Follows.look
      rw [placeEq]
      exact Follows.of_throw

theorem LoopFollows.next_text {position : Position} {text : String} {after : Content}
    {later : String → Nat → Walk α}
    (unfolds : ∀ steps, walk (steps + 1) = Walk.move Cursor.next >>= body steps)
    (looks : ∀ steps, body steps .text =
      Walk.look (·.current.text) >>= fun found => later found steps)
    (follows : LoopFollows context after (later text) read) :
    LoopFollows context (.text position text after) walk read := by
  apply LoopFollows.of_steps
  intro walker sourceEq insideEq steps enough
  obtain ⟨token, rest, restEq, kind, _, afterEq, further⟩ := Cursor.inside_text insideEq
  have moved : walker.cursor.next = (.ok .text, walker.cursor.onto token rest) := by
    simp only [Cursor.next, restEq, Cursor.markOf, kind]
  have shown : (walker.cursor.onto token rest).current.text = text := by
    simp only [Cursor.onto, Current.after, kind]
  have shorter : rest.length < steps := by
    rw [restEq, List.length_cons] at enough
    exact enough
  rw [unfolds]
  apply Follows.move_ok moved
  rw [looks]
  apply Follows.look
  rw [shown]
  exact (follows ⟨walker.cursor.onto token rest, walker.session⟩ sourceEq afterEq steps
    shorter).of_ends further

end Walk

end Trellis.Reading
