import Trellis.Location

/-!
The places at which the parts of a graph were read.

They are kept apart from the graph, by the identity of the entity, by the name of its field, and by
the key of an entry of the field.  Of several places for a field the first stays, of several places
for an entity or for an entry the last.  `entityPlace?`, `fieldPlace?` and `entryPlace?` say all
that a map tells; each way of recording changes one of them, for one key.
-/

namespace Trellis

/-- What tells the entries of one field apart: a position in a list, the text of a member of a set,
or the key of a map. -/
inductive EntryKey where
  | index (position : Nat)
  | member (text : String)
  | key (text : String)
  deriving DecidableEq, Repr

structure LocationMap where
  /-- The places of entities, the one recorded last first. -/
  entities : List (EntityId × Location) := []
  /-- The places of fields, each field once. -/
  fields : List ((EntityId × String) × Location) := []
  /-- The places of entries, the one recorded last first. -/
  entries : List ((EntityId × String × EntryKey) × Location) := []
  deriving Repr

namespace LocationMap

def empty : LocationMap := {}

def entityPlace? (map : LocationMap) (id : EntityId) : Option Location :=
  map.entities.lookup id

def fieldPlace? (map : LocationMap) (id : EntityId) (field : String) : Option Location :=
  map.fields.lookup (id, field)

def entryPlace? (map : LocationMap) (id : EntityId) (field : String) (key : EntryKey) : Option Location :=
  map.entries.lookup (id, field, key)

def entityCount (map : LocationMap) : Nat :=
  (map.entities.map Prod.fst).eraseDups.length

def setEntity (map : LocationMap) (id : EntityId) (place : Location) : LocationMap :=
  { map with entities := (id, place) :: map.entities }

/-- Records the place of a field unless it has one. -/
def setField (map : LocationMap) (id : EntityId) (field : String) (place : Location) : LocationMap :=
  if (map.fieldPlace? id field).isSome then map
  else { map with fields := ((id, field), place) :: map.fields }

/-- Records the place of an entry, in place of an earlier one. -/
def setEntry (map : LocationMap) (id : EntityId) (field : String) (key : EntryKey)
    (place : Location) : LocationMap :=
  { map with entries := ((id, field, key), place) :: map.entries }

/-! ### What recording does to the views -/

theorem lookup_cons_eq_ite {κ : Type} [BEq κ] (key other : κ) (place : Location)
    (rest : List (κ × Location)) :
    ((key, place) :: rest).lookup other = if other == key then some place else rest.lookup other := by
  rw [List.lookup_cons]
  cases other == key <;> rfl

@[simp] theorem fieldPlace?_setEntity (map : LocationMap) (id other : EntityId) (place : Location)
    (field : String) : (map.setEntity id place).fieldPlace? other field = map.fieldPlace? other field := rfl

@[simp] theorem entryPlace?_setEntity (map : LocationMap) (id other : EntityId) (place : Location)
    (field : String) (key : EntryKey) :
    (map.setEntity id place).entryPlace? other field key = map.entryPlace? other field key := rfl

@[simp] theorem entityPlace?_setField (map : LocationMap) (id other : EntityId) (field : String)
    (place : Location) : (map.setField id field place).entityPlace? other = map.entityPlace? other := by
  unfold setField
  split <;> rfl

theorem fieldPlace?_setField (map : LocationMap) (id other : EntityId) (field name : String)
    (place : Location) :
    (map.setField id field place).fieldPlace? other name =
      if other = id ∧ name = field then (map.fieldPlace? id field).or (some place)
      else map.fieldPlace? other name := by
  unfold setField
  cases recorded : map.fieldPlace? id field with
  | some earlier =>
      by_cases same : other = id ∧ name = field
      · simp [same, recorded]
      · simp [same]
  | none =>
      simp [fieldPlace?, lookup_cons_eq_ite]

@[simp] theorem entryPlace?_setField (map : LocationMap) (id other : EntityId) (field name : String)
    (key : EntryKey) (place : Location) :
    (map.setField id field place).entryPlace? other name key = map.entryPlace? other name key := by
  unfold setField
  split <;> rfl

@[simp] theorem entityPlace?_setEntry (map : LocationMap) (id other : EntityId) (field : String)
    (key : EntryKey) (place : Location) :
    (map.setEntry id field key place).entityPlace? other = map.entityPlace? other := rfl

@[simp] theorem fieldPlace?_setEntry (map : LocationMap) (id other : EntityId) (field name : String)
    (key : EntryKey) (place : Location) :
    (map.setEntry id field key place).fieldPlace? other name = map.fieldPlace? other name := rfl

theorem entryPlace?_setEntry (map : LocationMap) (id other : EntityId) (field name : String)
    (key another : EntryKey) (place : Location) :
    (map.setEntry id field key place).entryPlace? other name another =
      if other = id ∧ name = field ∧ another = key then some place
      else map.entryPlace? other name another := by
  simp [entryPlace?, setEntry, lookup_cons_eq_ite]

end LocationMap

end Trellis
