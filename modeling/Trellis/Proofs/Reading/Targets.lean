import Trellis.Proofs.Reading.Identities

/-!
Classes that are read.

A document is read as an entity of the root class or of a class that is named, and the entities inside
are of classes that fields lead to.  Classes that stand for places and provenance are refused by name.
Nothing else keeps them from being read: the root class may be one of them, and so may the target of a
field.
-/

namespace Trellis.Schema

/-- A document whose root is an entity of the first class can have entities of the second one. -/
inductive Leads (schema : Schema) : String → String → Prop
  | here (className : String) : Leads schema className className
  | onward {className target later : String} {layout : Layout} {field : TaggedField}
      (layoutEq : schema.layout? className = some layout) (noContent : layout.contentField? = none)
      (member : field ∈ layout.elementFields) (targetEq : field.declared.target? = some target)
      (leads : Leads schema target later) : Leads schema className later

def Targets (schema : Schema) (className : String) : Prop :=
  ∃ owner layout, schema.layout? owner = some layout ∧
    ∃ field ∈ layout.elementFields, field.declared.target? = some className

theorem Leads.eq_or_targets {schema : Schema} {className later : String}
    (leads : schema.Leads className later) : later = className ∨ schema.Targets later := by
  induction leads with
  | here => exact .inl rfl
  | @onward owner target later layout field layoutEq _ member targetEq _ ih =>
      rcases ih with rfl | targets
      · exact .inr ⟨owner, layout, layoutEq, field, member, targetEq⟩
      · exact .inr targets

end Trellis.Schema

namespace Trellis.Reading

open Trellis.Graph (Entity)
open Markup (Content Document Tag)
open Schema (Declarations ItemType Layout TaggedField)

/-! ### Elements -/

/-- An element of the role can have entities of the class in it. -/
def Role.Leads (schema : Schema) (className : String) : Role → Prop
  | .entity layout => ∃ field ∈ layout.elementFields, ∃ target,
      field.declared.target? = some target ∧ schema.Leads target className
  | .items _ type => ∃ target, itemClass? type = some target ∧ schema.Leads target className
  | .entries _ _ => False
  | .entry => False

section Elements

variable {schema : Schema} {className : String}

private theorem leads_of_entityRole? {target : String} {role : Role}
    (found : entityRole? schema target = some role) (leads : role.Leads schema className) :
    schema.Leads target className := by
  obtain ⟨layout, layoutEq, noContent, rfl⟩ := entityRole?_eq_some_iff.1 found
  obtain ⟨field, member, inner, targetEq, onward⟩ := leads
  exact .onward layoutEq noContent member targetEq onward

private theorem leads_of_itemRole? {type : ItemType} {role : Role}
    (found : itemRole? schema type = some role)
    (leads : role.Leads schema className) :
    ∃ target, itemClass? type = some target ∧ schema.Leads target className := by
  cases type with
  | entity target => exact ⟨target, rfl, leads_of_entityRole? found leads⟩
  | scalar type => cases found

private theorem leads_of_fieldRole? {field : TaggedField} {role : Role}
    (found : fieldRole? schema field = some role) (leads : role.Leads schema className) :
    ∃ target, field.declared.target? = some target ∧ schema.Leads target className := by
  unfold fieldRole? at found
  unfold Schema.Field.target?
  cases kindEq : field.declared.kind with
  | scalar type =>
      rw [kindEq] at found
      cases found
  | one target =>
      rw [kindEq] at found
      exact ⟨target, rfl, leads_of_entityRole? found leads⟩
  | map encoding =>
      rw [kindEq] at found
      cases found
      cases leads
  | many collection type wrapped =>
      have inItems : ∃ target, itemClass? type = some target ∧ schema.Leads target className := by
        rw [kindEq] at found
        cases wrapped with
        | true =>
            cases found
            exact leads
        | false => exact leads_of_itemRole? found leads
      obtain ⟨target, classEq, onward⟩ := inItems
      cases type with
      | entity inner =>
          cases classEq
          exact ⟨target, rfl, onward⟩
      | scalar type => cases classEq

private theorem target?_of_fieldClass? {field : TaggedField}
    (found : fieldClass? field = some className) :
    field.declared.target? = some className := by
  unfold fieldClass? at found
  unfold Schema.Field.target?
  cases kindEq : field.declared.kind with
  | scalar type | map encoding =>
      rw [kindEq] at found
      cases found
  | one target =>
      rw [kindEq] at found
      exact found
  | many collection type wrapped =>
      rw [kindEq] at found
      cases wrapped with
      | true => cases found
      | false =>
          cases type with
          | entity target => exact found
          | scalar type => cases found

theorem Role.leads_of_child? {role inner : Role} {name : String}
    (found : role.child? schema name = some inner) (leads : inner.Leads schema className) :
    role.Leads schema className := by
  cases role with
  | entity layout =>
      obtain ⟨field, routeEq, roleEq⟩ := Option.bind_eq_some_iff.1 found
      obtain ⟨target, targetEq, onward⟩ := leads_of_fieldRole? roleEq leads
      exact ⟨field, List.mem_of_find?_eq_some routeEq, target, targetEq, onward⟩
  | items itemTag type =>
      simp only [Role.child?] at found
      split at found
      · exact leads_of_itemRole? found leads
      · cases found
  | entries encoding itemTag =>
      cases encoding with
      | inline => cases found
      | explode =>
          simp only [Role.child?] at found
          split at found
          · cases found
            cases leads
          · cases found
  | entry => cases found

theorem Role.leads_of_childClass? {role : Role} {name : String}
    (found : role.childClass? name = some className) : role.Leads schema className := by
  cases role with
  | entity layout =>
      obtain ⟨field, routeEq, classEq⟩ := Option.bind_eq_some_iff.1 found
      exact ⟨field, List.mem_of_find?_eq_some routeEq, className, target?_of_fieldClass? classEq,
        .here className⟩
  | items itemTag type =>
      simp only [Role.childClass?] at found
      split at found
      · exact ⟨className, found, .here className⟩
      · cases found
  | entries encoding itemTag => cases found
  | entry => cases found

private theorem leads_of_mem_startsIn {role : Role} {content : Content} {start : Start}
    (member : start ∈ startsIn schema (some role) content) : role.Leads schema start.className := by
  induction content generalizing role with
  | closed encoding => cases member
  | broken ending => cases member
  | text position text rest ih => exact ih member
  | element tag inside rest ihInside ihRest =>
      simp only [startsIn, Option.bind_some, List.mem_append] at member
      rcases member with (here | within) | after
      · unfold startAt at here
        obtain ⟨className, isClass, rfl⟩ := List.mem_map.1 here
        exact Role.leads_of_childClass? (Option.mem_toList.1 isClass)
      · cases roleEq : role.child? schema tag.name with
        | none =>
            rw [roleEq, startsIn_none] at within
            cases within
        | some inner =>
            rw [roleEq] at within
            exact Role.leads_of_child? roleEq (ihInside within)
      · exact ihRest after

private theorem leads_of_mem_all {first start : Start} (member : start ∈ first.all schema) :
    schema.Leads first.className start.className := by
  rcases List.mem_cons.1 member with rfl | within
  · exact .here _
  · cases roleEq : entityRole? schema first.className with
    | none =>
        rw [roleEq, startsIn_none] at within
        cases within
    | some role =>
        rw [roleEq] at within
        exact leads_of_entityRole? roleEq (leads_of_mem_startsIn within)

end Elements

/-! ### Graphs -/

/-- The ways to ask for a document: as one of the root class, which may come from somewhere, or as one
of a class that is named. -/
inductive Entry where
  | root (source : Option Source)
  | named (className : String)

def Entry.className (schema : Schema) : Entry → String
  | .root _ => schema.root
  | .named className => className

def Reader.enter (reader : Reader) (entry : Entry) (document : String) :
    Except ReadError ObjectGraph :=
  match entry with
  | .root none => reader.read document
  | .root (some source) => reader.readFrom document source
  | .named className => reader.readClass className document

theorem Reader.enter_eq_ok {reader : Reader} {entry : Entry} {document : String} {graph : ObjectGraph}
    (reads : reader.enter entry document = .ok graph) :
    (∃ source, reader.readAs (entry.className reader.schema) document source = .ok graph) ∧
      ∀ className, entry = .named className → reader.schema.isTrackingSupport className = false := by
  cases entry with
  | root source =>
      refine ⟨⟨source, ?_⟩, nofun⟩
      cases source with
      | none => exact reads
      | some source => exact reads
  | named className =>
      simp only [Reader.enter, Reader.readClass] at reads
      split at reads
      · cases reads
      · split at reads
        · cases reads
        · rename_i admitted
          simp only [Bool.or_eq_true, not_or, Bool.not_eq_true] at admitted
          refine ⟨⟨none, reads⟩, ?_⟩
          intro other sameEntry
          cases sameEntry
          exact admitted.2

/-- A class that is not meant to be read is refused by name, and a graph has an entity of it only where
it is the root class, or the target of a field that the classes from the root on lead to. -/
theorem trackers_read_as_roots_or_targets (reader : Reader) (entry : Entry) (document : String)
    {graph : ObjectGraph} (reads : reader.enter entry document = .ok graph) :
    graph.root.className = entry.className reader.schema ∧
      (∀ className, entry = .named className → reader.schema.isTrackingSupport className = false) ∧
      ∀ entity, graph.root.Reaches entity →
        reader.schema.Leads graph.root.className entity.className ∧
        (reader.schema.isTrackingSupport entity.className = true →
          ((∃ source, entry = .root source) ∧ entity.className = reader.schema.root) ∨
            reader.schema.Targets entity.className) := by
  obtain ⟨⟨source, readsAs⟩, refused⟩ := Reader.enter_eq_ok reads
  obtain ⟨tag, inside, session, _, entityEq, _⟩ := readDocument_eq_ok readsAs
  have rootClass : graph.root.className = entry.className reader.schema := by
    obtain ⟨_, _, _, _, _, _, rootEq⟩ := entity_eq_ok entityEq
    rw [rootEq]
    rfl
  refine ⟨rootClass, refused, ?_⟩
  intro entity reaches
  obtain ⟨start, layout, isAt⟩ := exists_isEntityAt entityEq reaches
  have leads := leads_of_mem_all (List.mem_of_getElem? isAt.start_eq)
  rw [isAt.class_eq] at leads
  refine ⟨rootClass ▸ leads, ?_⟩
  intro isTracker
  rcases leads.eq_or_targets with same | targets
  · cases entry with
    | root source => exact .inl ⟨⟨source, rfl⟩, same⟩
    | named className =>
        have noTracker := refused className rfl
        rw [same] at isTracker
        exact absurd isTracker (Bool.eq_false_iff.1 noTracker)
  · exact .inr targets

def place : Declarations where
  classes := [{ name := "Place", fields := [{ name := "next", kind := .one "Place" }] }]
  roots := ["Place"]
  locationTracker := some "Place"

/-- Places are refused by name, and where none is named the root and the entity in it are places. -/
theorem trackers_read :
    let document := "<place><next/></place>"
    ∃ schema, place.build = .ok schema ∧
      let reader : Reader := ⟨schema, {}⟩
      reader.enter (.named "Place") document = .error (.notStandalone "Place") ∧
      ∃ graph, reader.enter (.root none) document = .ok graph ∧
        graph.root.all.map (·.className) = ["Place", "Place"] ∧
        ∀ entity, graph.root.Reaches entity → schema.isTrackingSupport entity.className = true := by
  intro document
  have passes : place.build.toOption.any (fun schema =>
      decide (schema.isTrackingSupport "Place" = true) &&
      (match (Reader.mk schema {}).enter (.named "Place") document with
        | .error error => decide (error = .notStandalone "Place")
        | .ok _ => false) &&
      ((Reader.mk schema {}).enter (.root none) document).toOption.any fun graph =>
        decide (graph.root.all.map (·.className) = ["Place", "Place"])) = true := by
    decide +kernel
  obtain ⟨schema, built, passes⟩ := Schema.exists_built passes
  simp only [Bool.and_eq_true, Option.any_eq_true, decide_eq_true_eq] at passes
  obtain ⟨⟨isTracker, refused⟩, graph, found, classes⟩ := passes
  refine ⟨schema, built, ?_, graph, eq_ok_of_toOption found, classes, ?_⟩
  · split at refused
    · rename_i error errorEq
      rw [errorEq, of_decide_eq_true refused]
    · cases refused
  · intro entity reaches
    have member : entity.className ∈ graph.root.all.map (·.className) :=
      List.mem_map_of_mem (Graph.Entity.mem_all_iff.2 reaches)
    rw [classes] at member
    have isPlace : entity.className = "Place" := by
      simpa using member
    rw [isPlace]
    exact isTracker

/-- The places in a place are those that its field leads to. -/
theorem trackers_read_as_roots_or_targets_of_place :
    let document := "<place><next/></place>"
    ∃ schema graph, place.build = .ok schema ∧
      (Reader.mk schema {}).enter (.root none) document = .ok graph ∧ graph.root.className = "Place" ∧
        ∀ entity, graph.root.Reaches entity → schema.Leads "Place" entity.className := by
  intro document
  have passes : place.build.toOption.any (fun schema =>
      ((Reader.mk schema {}).enter (.root none) document).toOption.any fun graph =>
        graph.root.className = "Place") = true := by
    decide +kernel
  obtain ⟨schema, built, passes⟩ := Schema.exists_built passes
  simp only [Option.any_eq_true, decide_eq_true_eq] at passes
  obtain ⟨graph, found, rootClass⟩ := passes
  have reads := eq_ok_of_toOption found
  obtain ⟨_, _, inside⟩ := trackers_read_as_roots_or_targets (Reader.mk schema {}) (.root none) document
    reads
  refine ⟨schema, graph, built, reads, rootClass, ?_⟩
  intro entity reaches
  rw [← rootClass]
  exact (inside entity reaches).1

end Trellis.Reading
