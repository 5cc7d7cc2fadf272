import Trellis.Reading.Reader

/-!
Runs of the parts of a read.

A part of a read takes a session and ends with a value and a session, or with an error.  What it
ensures of its value, and which errors it can end with, is proved along the way it is put together.
-/

namespace Trellis.Reading

/-! ### Steps of a run -/

theorem eq_ok_of_bind {ε α β : Type} {outcome : Except ε α} {next : α → Except ε β} {value : β}
    (runs : (outcome >>= next) = .ok value) : ∃ found, outcome = .ok found ∧ next found = .ok value := by
  cases outcome with
  | error error => cases runs
  | ok found => exact ⟨found, rfl, runs⟩

theorem Read.bind_apply {α β : Type} (read : Read α) (next : α → Read β) (session : Session) :
    (read >>= next) session =
      match read session with
      | .ok (value, session) => next value session
      | .error error => .error error := by
  change Except.bind (read session) _ = _
  cases read session <;> rfl

theorem Read.bind_of_ok {α β : Type} {read : Read α} {session session' : Session} {value : α}
    (readEq : read session = .ok (value, session')) (next : α → Read β) :
    (read >>= next) session = next value session' := by
  rw [Read.bind_apply, readEq]

theorem Read.bind_eq_ok {α β : Type} {read : Read α} {next : α → Read β} {session : Session}
    {found : β × Session} (runs : (read >>= next) session = .ok found) :
    ∃ value session', read session = .ok (value, session') ∧ next value session' = .ok found := by
  rw [Read.bind_apply] at runs
  cases readEq : read session with
  | error error =>
      rw [readEq] at runs
      cases runs
  | ok middle =>
      rw [readEq] at runs
      exact ⟨middle.1, middle.2, rfl, runs⟩

theorem Read.lift_apply {α : Type} (outcome : Except ReadError α) (session : Session) :
    (liftM outcome : Read α) session = outcome.map (·, session) := by
  cases outcome <;> rfl

theorem Read.lift_eq_ok {α : Type} {outcome : Except ReadError α} {session session' : Session}
    {value : α} (runs : (liftM outcome : Read α) session = .ok (value, session')) :
    outcome = .ok value ∧ session' = session := by
  rw [Read.lift_apply] at runs
  cases outcome with
  | error error => cases runs
  | ok found =>
      cases runs
      exact ⟨rfl, rfl⟩

theorem Read.lift_bind_eq_ok {α β : Type} {outcome : Except ReadError α} {next : α → Read β}
    {session : Session} {found : β × Session}
    (runs : ((liftM outcome : Read α) >>= next) session = .ok found) :
    ∃ value, outcome = .ok value ∧ next value session = .ok found := by
  obtain ⟨value, _, lifts, goesOn⟩ := Read.bind_eq_ok runs
  obtain ⟨outcomeEq, rfl⟩ := Read.lift_eq_ok lifts
  exact ⟨value, outcomeEq, goesOn⟩

theorem Read.lift_ok_bind {α β : Type} (value : α) (next : α → Read β) :
    ((liftM (.ok value : Except ReadError α) : Read α) >>= next) = next value := by
  funext session
  rw [Read.bind_apply]
  rfl

theorem Read.lift_bind {α β : Type} (outcome : Except ReadError α) (next : α → Except ReadError β) :
    (liftM (outcome >>= next) : Read β) =
      (liftM outcome : Read α) >>= fun value => liftM (next value) := by
  funext session
  rw [Read.bind_apply]
  cases outcome <;> rfl

/-! ### What a run ensures -/

/-- Whatever the read comes to, if it comes to a value, has the property. -/
def Ensures {α : Type} (read : Read α) (property : α → Prop) : Prop :=
  ∀ session value session', read session = .ok (value, session') → property value

namespace Ensures

variable {α β : Type} {read : Read α} {property : α → Prop}

theorem pure {value : α} (holds : property value) : Ensures (pure value) property := by
  intro session found session' runs
  cases runs
  exact holds

theorem throw {error : ReadError} : Ensures (throw error : Read α) property := by
  intro session found session' runs
  cases runs

theorem bind {next : α → Read β} {later : β → Prop} (first : Ensures read property)
    (second : ∀ value, property value → Ensures (next value) later) :
    Ensures (read >>= next) later := by
  intro session found session' runs
  rw [Read.bind_apply] at runs
  cases readEq : read session with
  | error error =>
      rw [readEq] at runs
      cases runs
  | ok middle =>
      obtain ⟨value, session''⟩ := middle
      rw [readEq] at runs
      exact second value (first session value session'' readEq) session'' found session' runs

theorem andThen {next : α → Read β} {later : β → Prop}
    (second : ∀ value, Ensures (next value) later) : Ensures (read >>= next) later := by
  have nothing : Ensures read fun _ => True := fun _ _ _ _ => trivial
  exact nothing.bind fun value _ => second value

theorem after {first : Read β} (holds : Ensures read property) :
    Ensures (first >>= fun _ => read) property :=
  andThen fun _ => holds

theorem lift {outcome : Except ReadError α} (holds : ∀ value, outcome = .ok value → property value) :
    Ensures (liftM outcome) property := by
  intro session found session' runs
  rw [Read.lift_apply] at runs
  cases outcome with
  | error error => cases runs
  | ok value =>
      cases runs
      exact holds _ rfl

theorem map {f : α → β} {later : β → Prop} (first : Ensures read property)
    (carries : ∀ value, property value → later (f value)) : Ensures (f <$> read) later := by
  rw [← bind_pure_comp]
  exact first.bind fun value holds => .pure (carries value holds)

end Ensures

/-! ### What a run comes to -/

/-- Whatever has been read before, the read comes to a value, and that has the property. -/
def Yields {α : Type} (read : Read α) (property : α → Prop) : Prop :=
  ∀ session, ∃ value session', read session = .ok (value, session') ∧ property value

namespace Yields

variable {α β : Type} {read : Read α} {property : α → Prop}

theorem pure {value : α} (holds : property value) : Yields (pure value) property :=
  fun session => ⟨value, session, rfl, holds⟩

theorem bind {next : α → Read β} {later : β → Prop} (first : Yields read property)
    (second : ∀ value, property value → Yields (next value) later) :
    Yields (read >>= next) later := by
  intro session
  obtain ⟨value, session', readEq, holds⟩ := first session
  obtain ⟨found, session'', nextEq, later⟩ := second value holds session'
  refine ⟨found, session'', ?_, later⟩
  rw [Read.bind_apply, readEq]
  exact nextEq

theorem afterModify {change : Session → Session} (holds : Yields read property) :
    Yields (modify change >>= fun _ => read) property := by
  intro session
  obtain ⟨value, session', readEq, found⟩ := holds (change session)
  refine ⟨value, session', ?_, found⟩
  rw [Read.bind_apply]
  exact readEq

theorem lift {outcome : Except ReadError α} {value : α} (outcomeEq : outcome = .ok value)
    (holds : property value) : Yields (liftM outcome) property := by
  intro session
  refine ⟨value, session, ?_, holds⟩
  rw [Read.lift_apply, outcomeEq]
  rfl

theorem afterLift {outcome : Except ReadError α} {value : α} (outcomeEq : outcome = .ok value)
    {next : α → Read β} {later : β → Prop} (second : Yields (next value) later) :
    Yields (liftM outcome >>= next) later := by
  have first : Yields (liftM outcome) (· = value) := lift outcomeEq rfl
  apply first.bind
  intro found foundEq
  rw [foundEq]
  exact second

theorem map {f : α → β} {later : β → Prop} (first : Yields read property)
    (carries : ∀ value, property value → later (f value)) : Yields (f <$> read) later := by
  rw [← bind_pure_comp]
  exact first.bind fun value holds => .pure (carries value holds)

theorem weaken {weaker : α → Prop} (holds : Yields read property)
    (implies : ∀ value, property value → weaker value) : Yields read weaker := by
  intro session
  obtain ⟨value, session', readEq, found⟩ := holds session
  exact ⟨value, session', readEq, implies value found⟩

end Yields

/-! ### What a run ends with instead -/

def ErrsIn {α : Type} (allowed : ReadError → Prop) (outcome : Except ReadError α) : Prop :=
  ∀ error, outcome = .error error → allowed error

namespace ErrsIn

variable {α β : Type} {allowed : ReadError → Prop} {outcome : Except ReadError α}

theorem ok {value : α} : ErrsIn allowed (.ok value : Except ReadError α) := by
  intro error impossible
  cases impossible

theorem error {error : ReadError} (isAllowed : allowed error) :
    ErrsIn allowed (.error error : Except ReadError α) := by
  intro error same
  cases same
  exact isAllowed

theorem bind {next : α → Except ReadError β} (first : ErrsIn allowed outcome)
    (second : ∀ value, outcome = .ok value → ErrsIn allowed (next value)) :
    ErrsIn allowed (outcome >>= next) := by
  cases outcome with
  | error error => exact .error (first error rfl)
  | ok value => exact second value rfl

theorem map {f : α → β} (first : ErrsIn allowed outcome) : ErrsIn allowed (f <$> outcome) := by
  cases outcome with
  | error error => exact .error (first error rfl)
  | ok value => exact .ok

theorem weaken {wider : ReadError → Prop} (first : ErrsIn allowed outcome)
    (implies : ∀ error, allowed error → wider error) : ErrsIn wider outcome :=
  fun error isError => implies error (first error isError)

end ErrsIn

def ReadErrsIn {α : Type} (allowed : ReadError → Prop) (read : Read α) : Prop :=
  ∀ session, ErrsIn allowed (read session)

namespace ReadErrsIn

variable {α β : Type} {allowed : ReadError → Prop} {read : Read α}

theorem pure {value : α} : ReadErrsIn allowed (pure value) :=
  fun _ => .ok

theorem throw {error : ReadError} (isAllowed : allowed error) :
    ReadErrsIn allowed (throw error : Read α) :=
  fun _ => .error isAllowed

theorem modify {change : Session → Session} : ReadErrsIn allowed (modify change) :=
  fun _ => .ok

theorem lift {outcome : Except ReadError α} (errs : ErrsIn allowed outcome) :
    ReadErrsIn allowed (liftM outcome) := by
  intro session
  rw [Read.lift_apply]
  exact errs.map

theorem bind {property : α → Prop} {next : α → Read β} (first : ReadErrsIn allowed read)
    (ensures : Ensures read property)
    (second : ∀ value, property value → ReadErrsIn allowed (next value)) :
    ReadErrsIn allowed (read >>= next) := by
  intro session
  refine (first session).bind ?_
  intro found readEq
  exact second found.1 (ensures session found.1 found.2 readEq) found.2

theorem andThen {next : α → Read β} (first : ReadErrsIn allowed read)
    (second : ∀ value, ReadErrsIn allowed (next value)) : ReadErrsIn allowed (read >>= next) :=
  first.bind (fun _ _ _ _ => trivial) fun value (_ : True) => second value

end ReadErrsIn

/-! ### Defaults -/

section Defaults

variable {layout : Schema.Layout} {location : Location} {property : FieldValues → Prop}

private theorem withDefault_eq_ok {field : Schema.TaggedField} {before after : FieldValues}
    (read : withDefault location before field = .ok after) :
    after = before ∨ ∃ text type value, field.declared.default = some text ∧
      field.declared.scalarType? = some type ∧
      coerce false field.declared type text location = .ok value ∧
      after = before.set field.name value := by
  unfold withDefault at read
  split at read
  · rename_i text type defaultEq typeEq
    split at read
    · cases read
      exact .inl rfl
    · cases coerceEq : coerce false field.declared type text location with
      | error error =>
          rw [coerceEq] at read
          cases read
      | ok value =>
          rw [coerceEq] at read
          cases read
          exact .inr ⟨text, type, value, defaultEq, typeEq, coerceEq, rfl⟩
  · cases read
    exact .inl rfl

/-- What holds of no values, and still does where a default is set, holds of the defaults. -/
theorem defaultValues_induction (empty : property [])
    (set : ∀ field ∈ layout.fields, ∀ text type before value,
      field.declared.default = some text → field.declared.scalarType? = some type →
        coerce false field.declared type text location = .ok value → property before →
          property (before.set field.name value))
    {values : FieldValues} (read : defaultValues layout location = .ok values) : property values := by
  -- The fields come one after the other; those to come are among the fields of the layout.
  have onward (fields : List Schema.TaggedField) (members : fields ⊆ layout.fields)
      (before : FieldValues) (holds : property before)
      (run : fields.foldlM (withDefault location) before = .ok values) : property values := by
    induction fields generalizing before with
    | nil =>
        cases run
        exact holds
    | cons field rest ih =>
        rw [List.foldlM_cons] at run
        obtain ⟨member, restMembers⟩ := List.cons_subset.1 members
        obtain ⟨after, stepEq, goesOn⟩ := eq_ok_of_bind run
        refine ih restMembers after ?_ goesOn
        rcases withDefault_eq_ok stepEq with
          rfl | ⟨text, type, value, defaultEq, typeEq, coerceEq, rfl⟩
        · exact holds
        · exact set field member text type before value defaultEq typeEq coerceEq holds
  exact onward layout.fields (List.Subset.refl _) [] empty read

end Defaults

/-! ### Whole reads -/

theorem eq_ok_of_toOption {ε α : Type} {outcome : Except ε α} {value : α}
    (found : outcome.toOption = some value) : outcome = .ok value := by
  cases outcome with
  | error error => cases found
  | ok other =>
      cases found
      rfl

/-- A document that is read has a first element, and that is read as the root, from the first
session on. -/
theorem readDocument_eq_ok {context : Context} {className : String} {document : Markup.Document}
    {graph : ObjectGraph} (reads : context.readDocument className document = .ok graph) :
    ∃ tag inside session, document = .rooted tag inside ∧
      context.readEntity className tag inside true .initial = .ok (graph.root, session) ∧
      graph.locations = if context.schema.tracksLocations then some session.locations else none := by
  unfold Context.readDocument at reads
  split at reads
  · cases reads
  · split at reads
    · cases reads
    · cases reads
    · rename_i tag inside
      split at reads
      · cases reads
      · obtain ⟨found, entityEq, ends⟩ := eq_ok_of_bind reads
        cases ends
        exact ⟨tag, inside, found.2, rfl, entityEq, rfl⟩

end Trellis.Reading
