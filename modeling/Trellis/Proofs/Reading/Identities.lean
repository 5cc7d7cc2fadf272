import Trellis.Proofs.Reading.Numbering
import Trellis.Proofs.Schema.Acceptance

/-!
Identities and start tags.

The elements that are read as entities are among those that the tokens of a document begin, in that
order, and the number of each is the identity of its entity.  The tracker of a read counts them all,
those among them that a set has left out.
-/

namespace Trellis.Markup

def Token.tag? (token : Token) : Option Tag :=
  match token.kind with
  | .opening name attributes => some ⟨name, attributes, token.position⟩
  | _ => none

def Content.tags : Content → List Tag
  | .closed _ => []
  | .broken _ => []
  | .text _ _ rest => rest.tags
  | .element tag inside rest => tag :: (inside.tags ++ rest.tags)

theorem Content.tags_ofTokens (ending : Ending) (tokens : List Token) :
    (ofTokens ending tokens).1.tags ++ (ofTokens ending tokens).2.flatMap tags =
      tokens.filterMap Token.tag? := by
  induction tokens with
  | nil => rfl
  | cons token rest ih =>
      obtain ⟨kind, position, encoding⟩ := token
      rw [List.filterMap_cons, ← ih]
      cases kind with
      | text content => rfl
      | closing name => rfl
      | opening name attributes =>
          simp only [ofTokens, Token.tag?]
          cases (ofTokens ending rest).2 with
          | nil => simp only [tags, List.append_nil, List.flatMap_nil]
          | cons next outer =>
              simp only [tags, List.flatMap_cons, List.cons_append, List.append_assoc]

theorem Document.tags_sublist {ending : Ending} {tokens : List Token} {tag : Tag} {inside : Content}
    (documentEq : ofTokens ending tokens = .rooted tag inside) :
    List.Sublist (tag :: inside.tags) (tokens.filterMap Token.tag?) := by
  induction tokens with
  | nil => cases documentEq
  | cons token rest ih =>
      obtain ⟨kind, position, encoding⟩ := token
      cases kind with
      | text content => exact ih documentEq
      | closing name => exact ih documentEq
      | opening name attributes =>
          cases documentEq
          refine List.Sublist.cons_cons _ ?_
          rw [← Content.tags_ofTokens ending rest]
          exact List.sublist_append_left _ _

end Trellis.Markup

namespace Trellis.Reading

open Trellis.Graph (Entity Value)
open Markup (Content Document Tag Token tokenize)
open Schema (Declarations Layout)

/-! ### Elements read as entities, among all -/

private theorem startsIn_sublist (schema : Schema) (role : Option Role) (content : Content) :
    List.Sublist ((startsIn schema role content).map (·.tag)) content.tags := by
  induction content generalizing role with
  | closed encoding => exact List.Sublist.refl _
  | broken ending => exact List.Sublist.refl _
  | text position text rest ih => exact ih role
  | element tag inside rest ihInside ihRest =>
      simp only [startsIn, List.map_append, Content.tags, List.append_assoc]
      have here : List.Sublist
          ((startAt (role.bind (·.childClass? tag.name)) tag inside).map (·.tag)) [tag] := by
        cases role.bind (·.childClass? tag.name) with
        | none => exact List.nil_sublist _
        | some className => exact List.Sublist.refl _
      exact here.append ((ihInside _).append (ihRest role))

theorem Start.all_sublist (schema : Schema) (start : Start) :
    List.Sublist ((start.all schema).map (·.tag)) (start.tag :: start.inside.tags) :=
  List.Sublist.cons_cons _ (startsIn_sublist schema _ start.inside)

/-! ### Places of entities -/

theorem Context.keys_startPlaces (context : Context) (first : Nat) (starts : List Start) :
    (context.startPlaces first starts).map Prod.fst =
      ((List.range' first starts.length).map EntityId.mk).reverse := by
  rw [Context.startPlaces, List.map_reverse, List.map_map, ← List.zipIdx_map_snd, List.map_map]
  rfl

theorem Context.lookup_startPlaces (context : Context) (first : Nat) (front : List Start)
    (start : Start) (rest : List Start) :
    (context.startPlaces first (front ++ start :: rest)).lookup ⟨first + front.length⟩ =
      some (context.locate start.tag.position) := by
  have split : context.startPlaces first (front ++ start :: rest) =
      context.startPlaces (first + front.length + 1) rest ++
        (⟨first + front.length⟩, context.locate start.tag.position) ::
          context.startPlaces first front := by
    rw [Context.startPlaces_append, ← List.singleton_append, Context.startPlaces_append,
      List.append_assoc]
    rfl
  refine List.lookup_eq_some_iff.2 ⟨_, _, split, ?_⟩
  intro entry member
  have key : entry.1 ∈ (context.startPlaces (first + front.length + 1) rest).map Prod.fst :=
    List.mem_map_of_mem member
  rw [Context.keys_startPlaces, List.mem_reverse] at key
  obtain ⟨number, inRange, same⟩ := List.mem_map.1 key
  have bounds := List.mem_range'_1.1 inRange
  rw [bne_iff_ne, ← same]
  intro equal
  have numbers : first + front.length = number := congrArg EntityId.value equal
  omega

private theorem eraseDups_of_nodup {κ : Type} [BEq κ] [LawfulBEq κ] {keys : List κ}
    (nodup : keys.Nodup) :
    keys.eraseDups = keys := by
  induction keys with
  | nil => rfl
  | cons key rest ih =>
      obtain ⟨new, restNodup⟩ := List.nodup_cons.1 nodup
      have others : rest.filter (fun other => !other == key) = rest := by
        refine List.filter_eq_self.2 ?_
        intro other member
        rw [Bool.not_eq_true', beq_eq_false_iff_ne]
        rintro rfl
        exact new member
      rw [List.eraseDups_cons, others, ih restNodup]

/-! ### Whole reads -/

def Start.IsReadAs (context : Context) (start : Start) (entity : Entity) : Prop :=
  ∃ before after, before.nextId = entity.id.value ∧
    context.readEntity start.className start.tag start.inside (entity.id.value == 0) before =
      .ok (entity, after)

/-- The entities of a graph have the numbers of the elements that they are read from. -/
structure NumbersFrom (context : Context) (starts : List Start) (root : Entity) : Prop where
  root_id : root.id = ⟨0⟩
  nodup : (root.all.map (·.id)).Nodup
  nested : ∀ owner ∈ root.all, ∀ inner ∈ owner.inside, owner.id.value < inner.id.value
  rising : ∀ owner ∈ root.all, ∀ entry ∈ owner.fields, entry.2.Rising
  read : ∀ entity ∈ root.all, ∃ start, starts[entity.id.value]? = some start ∧
    start.IsReadAs context entity

/-- A map has the places of the elements as those of the entities with their numbers, and of no
others. -/
structure CountsStarts (context : Context) (starts : List Start) (map : LocationMap) : Prop where
  count : map.entityCount = starts.length
  places : ∀ (number : Nat) start, starts[number]? = some start →
    map.entityPlace? ⟨number⟩ = some (context.locate start.tag.position)

/-- The entity is what the element with its number is read as, by the layout of its class. -/
structure IsEntityAt (context : Context) (starts : List Start) (entity : Entity) (start : Start)
    (layout : Layout) : Prop where
  start_eq : starts[entity.id.value]? = some start
  class_eq : start.className = entity.className
  layout_eq : context.schema.layout? start.className = some layout
  read : start.IsReadAs context entity

theorem Session.initial_fresh : Session.initial.Fresh :=
  fun _ _ _ => ⟨rfl, fun _ => rfl⟩

variable {context : Context} {className : String} {tag : Tag} {inside : Content} {root : Entity}
  {session : Session}

theorem root_numbered
    (runs : context.readEntity className tag inside true .initial = .ok (root, session)) :
    Numbered context
      (fun start number => (Start.all context.schema ⟨className, tag, inside⟩)[number]? = some start)
      0 session root.all := by
  have runsFirst : context.readEntity className tag inside (Session.initial.nextId == 0) .initial =
      .ok (root, session) := runs
  refine readEntity_numbered runsFirst Session.initial_fresh ?_
  intro entry member
  exact List.mem_zipIdx_iff_getElem?.1 member

theorem numbersFrom_readEntity
    (runs : context.readEntity className tag inside true .initial = .ok (root, session)) :
    NumbersFrom context (Start.all context.schema ⟨className, tag, inside⟩) root := by
  have numbered := root_numbered runs
  refine ⟨?_, ?_, ?_, ?_, ?_⟩
  · obtain ⟨_, _, _, _, begins, _, rfl⟩ := entity_eq_ok runs
    obtain ⟨_, _, _, rfl, _⟩ := beginEntity_eq_ok begins
    rfl
  · have nodup : ((root.all.map (·.id)).map EntityId.value).Nodup := by
      rw [List.map_map]
      exact numbered.nodup
    exact nodup.of_map _
  · exact fun owner member => (numbered.settled owner member).nested
  · exact fun owner member => (numbered.settled owner member).rising
  · intro entity member
    obtain ⟨start, found, before, after, nextEq, _, readEq, _⟩ := (numbered.settled entity member).read
    exact ⟨start, found, before, after, nextEq, readEq⟩

theorem exists_isEntityAt {root : Entity}
    (runs : context.readEntity className tag inside true .initial = .ok (root, session))
    {entity : Entity} (reaches : root.Reaches entity) :
    ∃ start layout,
      IsEntityAt context (Start.all context.schema ⟨className, tag, inside⟩) entity start layout := by
  have numbers := numbersFrom_readEntity runs
  obtain ⟨start, startEq, isRead⟩ := numbers.read entity (Graph.Entity.mem_all_iff.2 reaches)
  obtain ⟨before, after, nextEq, readEq⟩ := isRead
  obtain ⟨frame, values, begun, values', begins, _, entityEq⟩ := entity_eq_ok readEq
  refine ⟨start, frame.layout, startEq, ?_, beginEntity_layout? begins, before, after, nextEq, readEq⟩
  rw [entityEq]
  rfl

theorem IsEntityAt.layout_unique {starts : List Start} {entity : Entity} {start : Start}
    {layout layout' : Layout} (isAt : IsEntityAt context starts entity start layout)
    (layoutEq : context.schema.layout? entity.className = some layout') : layout' = layout := by
  rw [← isAt.class_eq] at layoutEq
  exact Option.some.inj (layoutEq.symm.trans isAt.layout_eq)

theorem countsStarts_readEntity
    (runs : context.readEntity className tag inside true .initial = .ok (root, session)) :
    CountsStarts context (Start.all context.schema ⟨className, tag, inside⟩) session.locations := by
  have advances := gives_readEntity context className tag inside true _ _ _ runs
  generalize Start.all context.schema ⟨className, tag, inside⟩ = starts at advances
  have entitiesEq : session.locations.entities = context.startPlaces 0 starts := by
    rw [advances.entities_eq]
    exact List.append_nil _
  constructor
  · have nodup : ((context.startPlaces 0 starts).map Prod.fst).Nodup := by
      rw [Context.keys_startPlaces, List.nodup_reverse]
      exact (List.nodup_range' (s := 0)).map fun _ _ same => congrArg EntityId.value same
    rw [LocationMap.entityCount, entitiesEq, eraseDups_of_nodup nodup, Context.keys_startPlaces,
      List.length_reverse, List.length_map, List.length_range']
  · intro number start found
    obtain ⟨less, rfl⟩ := List.getElem?_eq_some_iff.1 found
    have split : starts = starts.take number ++ starts[number] :: starts.drop (number + 1) := by
      rw [← List.drop_eq_getElem_cons less, List.take_append_drop]
    have lengthEq : (starts.take number).length = number := List.length_take_of_le (Nat.le_of_lt less)
    have place := context.lookup_startPlaces 0 (starts.take number) starts[number]
      (starts.drop (number + 1))
    rw [← split, lengthEq, Nat.zero_add] at place
    rw [LocationMap.entityPlace?, entitiesEq]
    exact place

/-- The identities of a graph are the numbers, from zero on, of the elements that are read as
entities, in the order of their start tags in the document. -/
theorem identities_follow_startTags (reader : Reader) (className document : String)
    (source : Option Source) {graph : ObjectGraph}
    (reads : reader.readAs className document source = .ok graph) :
    let context : Context :=
      ⟨reader.schema, reader.options.strict, if reader.schema.tracksSources then source else none⟩
    ∃ (tag : Tag) (inside : Content) (session : Session),
      Document.parse reader.options.extended document = .rooted tag inside ∧
      context.readEntity className tag inside true .initial = .ok (graph.root, session) ∧
      let starts := Start.all reader.schema ⟨className, tag, inside⟩
      List.Sublist (starts.map (·.tag))
        ((tokenize reader.options.extended document).tokens.filterMap Token.tag?) ∧
      session.nextId = starts.length ∧ NumbersFrom context starts graph.root ∧
      graph.locations.isSome = reader.schema.tracksLocations ∧
      ∀ map, graph.locations = some map → CountsStarts context starts map := by
  intro context
  obtain ⟨tag, inside, session, documentEq, entityEq, locationsEq⟩ := readDocument_eq_ok reads
  have advances := gives_readEntity context className tag inside true _ _ _ entityEq
  refine ⟨tag, inside, session, documentEq, entityEq, ?_, ?_, numbersFrom_readEntity entityEq, ?_, ?_⟩
  · exact (Start.all_sublist _ _).trans (Document.tags_sublist documentEq)
  · rw [advances.nextId_eq]
    exact Nat.zero_add _
  · rw [locationsEq]
    change Option.isSome (if reader.schema.tracksLocations then _ else _) = _
    cases reader.schema.tracksLocations <;> rfl
  · intro map mapEq
    rw [locationsEq] at mapEq
    obtain ⟨_, same⟩ := Option.ite_none_right_eq_some.1 mapEq
    cases same
    exact countsStarts_readEntity entityEq

def band : Declarations where
  classes := [
    { name := "Band"
      fields := [
        { name := "leader", kind := .one "Player" },
        { name := "players", kind := .many .set (.entity "Player") true },
        { name := "songs", kind := .many .list (.entity "Song") false }] },
    { name := "Player", fields := [{ name := "name", kind := .scalar .text, isContent := true }] },
    { name := "Song", fields := [{ name := "title", kind := .scalar .text, isContent := true }] },
    { name := "Place" }]
  roots := ["Band"]
  locationTracker := some "Place"

def numbersAndCount (outcome : Except ReadError ObjectGraph) : Option (List Nat × Nat) :=
  outcome.toOption.bind fun graph =>
    graph.locations.map fun map => (graph.root.all.map (·.id.value), map.entityCount)

/-- The second of two players with one name is left out of the set, and has a number and a place all
the same. -/
theorem identities_follow_startTags_of_band :
    let document := "<band><song>Blue</song><leader>Ann</leader><players><player>Bob</player>" ++
      "<player>Bob</player></players><song>Red</song></band>"
    ∃ schema, band.build = .ok schema ∧
      let context : Context := ⟨schema, true, none⟩
      ∃ graph map starts, (Reader.mk schema {}).readAs "Band" document none = .ok graph ∧
        graph.locations = some map ∧ NumbersFrom context starts graph.root ∧
        CountsStarts context starts map ∧
        graph.root.all.map (·.id.value) = [0, 1, 5, 2, 3] ∧ map.entityCount = 6 := by
  intro document
  have passes : band.build.toOption.any (fun schema =>
      numbersAndCount ((Reader.mk schema {}).readAs "Band" document none) ==
        some ([0, 1, 5, 2, 3], 6)) = true := by
    decide +kernel
  obtain ⟨schema, built, passes⟩ := Schema.exists_built passes
  obtain ⟨graph, found, passes⟩ := Option.bind_eq_some_iff.1 (beq_iff_eq.1 passes)
  obtain ⟨map, mapEq, passes⟩ := Option.map_eq_some_iff.1 passes
  have reads := eq_ok_of_toOption found
  have numbers := identities_follow_startTags (Reader.mk schema {}) "Band" document none reads
  simp only [ite_self] at numbers
  obtain ⟨tag, inside, _, _, _, _, _, numbersFrom, _, counts⟩ := numbers
  exact ⟨schema, built, graph, map, _, reads, mapEq, numbersFrom, counts map mapEq,
    congrArg Prod.fst passes, congrArg Prod.snd passes⟩

end Trellis.Reading
