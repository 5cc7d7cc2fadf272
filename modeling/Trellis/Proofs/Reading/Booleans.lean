import Trellis.Proofs.Reading.Assembly
import Trellis.Proofs.Reading.Coercions

/-!
Booleans.

A boolean is true if its text spells `true` in whatever letter case, and no text is refused.  An empty
text stands for the default, and so does a field that is not given at all; but they do not always take
it for the same truth.  For the empty text the blanks around the default never count, and for the
field that is not given they count as they would in the document.
-/

namespace Trellis.Reading

open Trellis.Graph (Value)
open Markup (Content Document Tag)
open Schema (Declarations Field ScalarType)
open Text (isBlank)

/-! ### Texts that spell true -/

def SpellsTrue (text : String) : Prop :=
  List.Forall₂ (fun c letter => c = letter.1 ∨ c = letter.2) text.toList
    [('t', 'T'), ('r', 'R'), ('u', 'U'), ('e', 'E')]

private theorem toLower_eq_iff {c small large : Char} (least : 65 ≤ large.toNat)
    (greatest : large.toNat ≤ 90) (pair : small.toNat = large.toNat + 32) :
    c.toLower = small ↔ c = small ∨ c = large := by
  rw [← Char.toNat_inj, ← Char.toNat_inj, ← Char.toNat_inj]
  by_cases capital : c.val ≥ 'A'.val ∧ c.val ≤ 'Z'.val
  · have atLeast : 65 ≤ c.toNat := UInt32.le_iff_toNat_le.1 capital.1
    have atMost : c.toNat ≤ 90 := UInt32.le_iff_toNat_le.1 capital.2
    have moved : c.toLower.val = c.val + ('a'.val - 'A'.val) := congrArg Char.val (dif_pos capital)
    have lowered : c.toLower.toNat = c.toNat + 32 := by
      rw [Char.toNat, moved, UInt32.toNat_add]
      exact @Nat.mod_eq_of_lt (c.toNat + 32) _ (by omega)
    omega
  · have kept : c.toLower = c := dif_neg capital
    have outside : ¬ (65 ≤ c.toNat ∧ c.toNat ≤ 90) := fun inside =>
      capital ⟨UInt32.le_iff_toNat_le.2 inside.1, UInt32.le_iff_toNat_le.2 inside.2⟩
    rw [kept]
    omega

private theorem isTrue_iff {text : String} : isTrue text = true ↔ SpellsTrue text := by
  have letters (c : Char) :
      (c.toLower = 't' ↔ c = 't' ∨ c = 'T') ∧ (c.toLower = 'r' ↔ c = 'r' ∨ c = 'R') ∧
        (c.toLower = 'u' ↔ c = 'u' ∨ c = 'U') ∧ (c.toLower = 'e' ↔ c = 'e' ∨ c = 'E') :=
    ⟨toLower_eq_iff (by decide) (by decide) rfl, toLower_eq_iff (by decide) (by decide) rfl,
      toLower_eq_iff (by decide) (by decide) rfl, toLower_eq_iff (by decide) (by decide) rfl⟩
  have spelling : "true".toList = ['t', 'r', 'u', 'e'] := by decide
  rw [isTrue, SpellsTrue, beq_iff_eq, spelling]
  rcases text.toList with _ | ⟨t, _ | ⟨r, _ | ⟨u, _ | ⟨e, _ | rest⟩⟩⟩⟩ <;> simp [letters]

private theorem not_spellsTrue_empty : ¬ SpellsTrue "" :=
  nofun

private theorem trim_empty : Text.trim "" = "" := by
  decide

private theorem trim_of_spellsTrue {text : String} (spells : SpellsTrue text) :
    Text.trim text = text := by
  have ends : (∀ c, text.toList.head? = some c → isBlank c = false) ∧
      ∀ c, text.toList.getLast? = some c → isBlank c = false := by
    unfold SpellsTrue at spells
    rcases chars : text.toList with _ | ⟨t, _ | ⟨r, _ | ⟨u, _ | ⟨e, _ | rest⟩⟩⟩⟩ <;>
      simp only [chars, List.forall₂_cons, List.forall₂_nil_left_iff, List.forall₂_nil_right_iff,
        reduceCtorEq, and_false] at spells
    obtain ⟨first, _, _, last, _⟩ := spells
    simp only [List.head?_cons, List.getLast?_cons_cons, List.getLast?_singleton, Option.some.injEq]
    constructor
    · rintro c rfl
      rcases first with rfl | rfl <;> decide
    · rintro c rfl
      rcases last with rfl | rfl <;> decide
  have solid := @trimChars_of_solid [] text.toList [] nofun nofun ends.1 ends.2
  rw [List.nil_append, List.append_nil] at solid
  rw [Text.trim, solid, String.ofList_toList]

/-! ### What texts are read as -/

section Texts

variable {field : Field} {default text : String}

private theorem coerce_boolean (strict : Bool) (field : Field) (raw : String) (location : Location) :
    coerce strict field .boolean raw location =
      .ok (.boolean (readBoolean field.default (fieldText field raw))) :=
  rfl

private theorem readBoolean_of_text {default? : Option String} (filled : text ≠ "") :
    readBoolean default? text = true ↔ SpellsTrue text := by
  have notEmpty : ¬ text.isEmpty = true := fun empty => filled (String.isEmpty_iff.1 empty)
  rw [readBoolean, if_neg notEmpty, isTrue_iff]

private theorem readBoolean_of_empty {default? : Option String} :
    readBoolean default? "" = true ↔ SpellsTrue (Text.trim (default?.getD "")) :=
  isTrue_iff

private theorem readBoolean_of_default (defaultEq : field.default = some default) :
    readBoolean field.default (fieldText field default) = true ↔ SpellsTrue (fieldText field default) := by
  by_cases empty : fieldText field default = ""
  · have nothing : Text.trim default = "" := by
      unfold fieldText at empty
      split at empty
      · exact empty
      · rw [empty, trim_empty]
    rw [empty, readBoolean_of_empty, defaultEq, Option.getD_some, nothing]
  · exact readBoolean_of_text empty

end Texts

/-! ### What boolean fields hold -/

def trimming (field : Field) : Field :=
  { field with trims := true }

/-- What a boolean field holds by the text that it is given, if it is given any.  An empty text stands
for the default without the blanks around it, whether or not the field keeps such blanks. -/
structure BooleanHeld (field : Field) (raw? : Option String) (value : Option Value) : Prop where
  ofText : ∀ raw text, raw? = some raw → IsFieldText field raw text → text ≠ "" →
    ∃ truth, value = some (.boolean truth) ∧ (truth = true ↔ SpellsTrue text)
  ofEmpty : ∀ raw, raw? = some raw → IsFieldText field raw "" →
    ∃ truth, value = some (.boolean truth) ∧ (truth = true ↔ ∃ default text,
      field.default = some default ∧ IsFieldText (trimming field) default text ∧ SpellsTrue text)
  ofDefault : ∀ default text, raw? = none → field.default = some default →
    IsFieldText field default text →
      ∃ truth, value = some (.boolean truth) ∧ (truth = true ↔ SpellsTrue text)
  unset : raw? = none → field.default = none → value = none

/-- The field keeps blanks, and the default spells `true` but for those at its ends. -/
structure KeepsBlanksAround (field : Field) (default : String) : Prop where
  keeps : field.trims = false
  hidden : ¬ SpellsTrue default
  inside : ∃ text, IsFieldText (trimming field) default text ∧ SpellsTrue text

private theorem isFieldText_trimming_iff {field : Field} {raw text : String} :
    IsFieldText (trimming field) raw text ↔ Text.trim raw = text :=
  isFieldText_iff

theorem ScalarHeld.booleanHeld {context : Context} {field : Schema.TaggedField}
    {text? : Option (String × Position)} {location : Location} {value : Option Value}
    (held : ScalarHeld context field .boolean text? location value) :
    BooleanHeld field.declared (text?.map (·.1)) value := by
  have ofRaw (raw : String) (given : text?.map (·.1) = some raw) : value =
      some (.boolean (readBoolean field.declared.default (fieldText field.declared raw))) := by
    obtain ⟨⟨_, position⟩, textEq, rfl⟩ := Option.map_eq_some_iff.1 given
    obtain ⟨read, coerceEq, valueEq⟩ := held.ofText _ position textEq
    rw [coerce_boolean] at coerceEq
    cases coerceEq
    exact valueEq
  refine ⟨?_, ?_, ?_, ?_⟩
  · intro raw text given isText filled
    obtain rfl := isFieldText_iff.1 isText
    exact ⟨_, ofRaw raw given, readBoolean_of_text filled⟩
  · intro raw given isEmpty
    refine ⟨_, ofRaw raw given, ?_⟩
    rw [isFieldText_iff.1 isEmpty, readBoolean_of_empty]
    simp only [isFieldText_trimming_iff]
    cases field.declared.default with
    | none =>
        rw [Option.getD_none, trim_empty]
        exact iff_of_false not_spellsTrue_empty nofun
    | some default => simp
  · intro default text missing defaultEq isText
    obtain rfl := isFieldText_iff.1 isText
    obtain ⟨read, coerceEq, valueEq⟩ :=
      held.ofDefault (Option.map_eq_none_iff.1 missing) default defaultEq
    rw [coerce_boolean] at coerceEq
    cases coerceEq
    exact ⟨_, valueEq, readBoolean_of_default defaultEq⟩
  · intro missing noDefault
    exact held.unset (Option.map_eq_none_iff.1 missing) noDefault

/-- An empty text is read as the field is without any, unless the field keeps the blanks around a
default that spells `true`. -/
theorem BooleanHeld.eq_iff {field : Field} {raw default : String} {value value' : Option Value}
    (given : BooleanHeld field (some raw) value) (missing : BooleanHeld field none value')
    (isEmpty : IsFieldText field raw "") (defaultEq : field.default = some default) :
    value = value' ↔ ¬ KeepsBlanksAround field default := by
  obtain ⟨truth, rfl, spells⟩ := given.ofEmpty raw rfl isEmpty
  obtain ⟨truth', rfl, spells'⟩ :=
    missing.ofDefault default (fieldText field default) rfl defaultEq (isFieldText_iff.2 rfl)
  have stripped : truth = true ↔ SpellsTrue (Text.trim default) := by
    rw [spells, defaultEq]
    simp [isFieldText_trimming_iff]
  rw [Option.some.injEq, Value.boolean.injEq, Bool.eq_iff_iff, stripped, spells']
  cases trims : field.trims with
  | true =>
      rw [fieldText, trims, if_pos rfl]
      refine iff_of_true Iff.rfl ?_
      intro keeps
      rw [keeps.keeps] at trims
      cases trims
  | false =>
      rw [fieldText, trims, if_neg Bool.false_ne_true]
      constructor
      · intro alike keeps
        obtain ⟨_, isText, inside⟩ := keeps.inside
        rw [← isFieldText_trimming_iff.1 isText] at inside
        exact keeps.hidden (alike.1 inside)
      · intro notKept
        constructor
        · intro inside
          by_contra hidden
          exact notKept ⟨trims, hidden, _, isFieldText_trimming_iff.2 rfl, inside⟩
        · intro whole
          rw [trim_of_spellsTrue whole]
          exact whole

/-! ### Whole reads -/

/-- No boolean is refused.  In every read of a schema that is built, the boolean fields of all entities
hold what their texts spell, or what their defaults do.  A field that is given an empty text holds what
it holds without any text, unless it keeps the blanks around a default that spells `true`. -/
theorem booleans_spelled (reader : Reader) {declarations : Declarations}
    (built : declarations.build = .ok reader.schema) (className document : String)
    (source : Option Source) {graph : ObjectGraph}
    (reads : reader.readAs className document source = .ok graph) :
    let context : Context :=
      ⟨reader.schema, reader.options.strict, if reader.schema.tracksSources then source else none⟩
    (∀ strict field raw location, ∃ truth,
      coerce strict field .boolean raw location = .ok (.boolean truth)) ∧
    (∃ (tag : Tag) (inside : Content),
      Document.parse reader.options.extended document = .rooted tag inside ∧
      ∀ entity, graph.root.Reaches entity → ∃ start layout,
        IsEntityAt context (Start.all reader.schema ⟨className, tag, inside⟩) entity start layout ∧
        ∀ field ∈ layout.fields, field.declared.scalarType? = some .boolean → layout.Sole field →
          BooleanHeld field.declared
            ((givenText? layout (entity.id.value == 0) start field).map (·.1))
            (entity.get? field.name)) ∧
    ∀ (field : Field) (raw default : String) (value value' : Option Value),
      BooleanHeld field (some raw) value → BooleanHeld field none value' →
      IsFieldText field raw "" → field.default = some default →
        (value = value' ↔ ¬ KeepsBlanksAround field default) := by
  intro context
  refine ⟨?_, ?_, ?_⟩
  · intro strict field raw location
    exact ⟨_, coerce_boolean strict field raw location⟩
  · obtain ⟨tag, inside, session, documentEq, entityEq, _⟩ := readDocument_eq_ok reads
    refine ⟨tag, inside, documentEq, ?_⟩
    intro entity reaches
    obtain ⟨start, layout, isAt⟩ := exists_isEntityAt entityEq reaches
    refine ⟨start, layout, isAt, ?_⟩
    intro field member typeEq sole
    obtain ⟨before, after, _, readEq⟩ := isAt.read
    obtain ⟨held, started, contentHeld⟩ :=
      readEntity_contentHeld isAt.layout_eq (isAt.placed built) member sole readEq
    exact (contentHeld.scalarHeld started typeEq nofun).booleanHeld
  · intro field raw default value value' given missing isEmpty defaultEq
    exact given.eq_iff missing isEmpty defaultEq

def switch : Declarations where
  classes := [
    { name := "Switch"
      fields := [{ name := "on", kind := .scalar .boolean, trims := false, default := some " true " }] }]
  roots := ["Switch"]

/-- A switch that does not say whether it is on is off, and one that says so with no text is on. -/
theorem empty_boolean_not_default :
    ∃ schema missing empty, switch.build = .ok schema ∧
      (Reader.mk schema {}).readAs "Switch" "<switch/>" none = .ok missing ∧
      (Reader.mk schema {}).readAs "Switch" "<switch><on/></switch>" none = .ok empty ∧
      (missing.root.get? "on").bind (·.boolean?) = some false ∧
      (empty.root.get? "on").bind (·.boolean?) = some true := by
  have passes : switch.build.toOption.any (fun schema =>
      ((Reader.mk schema {}).readAs "Switch" "<switch/>" none).toOption.any fun missing =>
        ((Reader.mk schema {}).readAs "Switch" "<switch><on/></switch>" none).toOption.any fun empty =>
          (missing.root.get? "on").bind (·.boolean?) = some false ∧
          (empty.root.get? "on").bind (·.boolean?) = some true) = true := by
    decide +kernel
  obtain ⟨schema, built, passes⟩ := Schema.exists_built passes
  simp only [Option.any_eq_true, decide_eq_true_eq] at passes
  obtain ⟨missing, foundMissing, empty, foundEmpty, off, on⟩ := passes
  exact ⟨schema, missing, empty, built, eq_ok_of_toOption foundMissing, eq_ok_of_toOption foundEmpty,
    off, on⟩

/-- The switch holds what its text spells. -/
theorem booleans_spelled_of_switch :
    let document := "<switch><on>TRUE</on></switch>"
    ∃ schema layout graph start field, switch.build = .ok schema ∧
      schema.layout? "Switch" = some layout ∧
      (Reader.mk schema {}).readAs "Switch" document none = .ok graph ∧
      field ∈ layout.fields ∧ field.declared.scalarType? = some .boolean ∧ layout.Sole field ∧
      BooleanHeld field.declared ((givenText? layout true start field).map (·.1))
        (graph.root.get? field.name) ∧
      (graph.root.get? field.name).bind (·.boolean?) = some true := by
  intro document
  have passes : switch.build.toOption.any (fun schema =>
      (schema.layout? "Switch").any fun layout =>
        ((Reader.mk schema {}).readAs "Switch" document none).toOption.any fun graph =>
          graph.root.className = "Switch" ∧ graph.root.id.value = 0 ∧
          layout.fields.any fun field =>
            field.declared.scalarType? = some .boolean ∧ layout.Sole field ∧
              (graph.root.get? field.name).bind (·.boolean?) = some true) = true := by
    decide +kernel
  obtain ⟨schema, built, passes⟩ := Schema.exists_built passes
  simp only [Option.any_eq_true, List.any_eq_true, decide_eq_true_eq] at passes
  obtain ⟨layout, layoutEq, graph, found, classEq, idEq, field, member, typeEq, sole, on⟩ := passes
  have reads := eq_ok_of_toOption found
  obtain ⟨_, ⟨tag, inside, _, held⟩, _⟩ :=
    booleans_spelled (Reader.mk schema {}) built "Switch" document none reads
  obtain ⟨start, layout', isAt, held⟩ := held graph.root (.self _)
  obtain rfl := isAt.layout_unique (by rw [classEq]; exact layoutEq)
  have rootHeld := held field member typeEq sole
  rw [idEq] at rootHeld
  exact ⟨schema, layout, graph, start, field, built, layoutEq, reads, member, typeEq, sole, rootHeld,
    on⟩

end Trellis.Reading
