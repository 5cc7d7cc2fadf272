import Trellis.Proofs.Markup.Endings
import Trellis.Proofs.Reading.Runs
import Trellis.Proofs.Schema.Acceptance

/-!
Reads that go on to succeed.

A read that succeeds has seen the end tag of the document's own element, and it looks at nothing that
comes later.  So it comes to the same where the document goes on, and where the reader knows more
names of characters.  A document may break off inside that end tag, though, and still be read; if it
goes on, then the tag is another one, unless it ends at once.
-/

namespace Trellis.Reading

open Markup (Content Document HoldsRoot Tag scanned tokenize)
open Schema (ScalarType)

variable {context : Context}

/-! ### Reads have seen the end tag -/

private theorem complete_of_passContent {inside : Content}
    (passes : context.passContent inside = .ok ()) :
    inside.break? = none := by
  unfold Context.passContent at passes
  split at passes
  · assumption
  · cases passes

private theorem complete_of_textOf {inside : Content} {text : String}
    (reads : context.textOf inside = .ok text) : inside.break? = none := by
  induction inside generalizing text with
  | closed encoding => rfl
  | broken ending => cases reads
  | text position content rest ih =>
      rw [Context.textOf] at reads
      obtain ⟨later, restEq, _⟩ := Markup.map_eq_ok reads
      exact ih restEq
  | element tag inside rest _ _ => cases reads

private theorem complete_of_partsOf {inside : Content} {parts : String × List Graph.Tree}
    (reads : context.partsOf inside = .ok parts) : inside.break? = none := by
  induction inside generalizing parts with
  | closed encoding => rfl
  | broken ending => cases reads
  | text position content rest ih =>
      rw [Context.partsOf] at reads
      obtain ⟨later, restEq, _⟩ := eq_ok_of_bind reads
      exact ih restEq
  | element tag inside rest _ ih =>
      rw [Context.partsOf] at reads
      obtain ⟨inner, _, goesOn⟩ := eq_ok_of_bind reads
      obtain ⟨later, restEq, _⟩ := eq_ok_of_bind goesOn
      exact ih restEq

private theorem complete_of_scalar {field : Schema.Field} {type : ScalarType} {tag : Tag}
    {inside : Content}
    {value : Graph.Value} (reads : context.scalar field type tag inside = .ok value) :
    inside.break? = none := by
  have ofText (type : ScalarType) (reads : (context.textOf inside >>= fun text =>
      coerce context.strict field type text (context.locate tag.position)) = .ok value) :
      inside.break? = none := by
    cases textEq : context.textOf inside with
    | error error =>
        rw [textEq] at reads
        cases reads
    | ok text => exact complete_of_textOf textEq
  cases type with
  | tree =>
      obtain ⟨tree, treeEq, _⟩ := Markup.map_eq_ok reads
      unfold Context.treeOf at treeEq
      cases partsEq : context.partsOf inside with
      | error error =>
          rw [partsEq] at treeEq
          cases treeEq
      | ok parts => exact complete_of_partsOf partsEq
  | _ => exact ofText _ reads

private theorem readContentField_complete (frame : Frame) (values : FieldValues)
    (field : Schema.TaggedField)
    (tag : Tag) (inside : Content) :
    Ensures (context.readContentField frame values field tag inside) fun _ =>
      inside.break? = none := by
  unfold Context.readContentField
  cases field.declared.scalarType? with
  | none =>
      have passes : Ensures (liftM (context.passContent inside)) fun _ : Unit =>
          inside.break? = none :=
        .lift fun _ passes => complete_of_passContent passes
      exact passes.bind fun _ complete => .pure complete
  | some type =>
      have reads : Ensures (liftM (context.scalar field.declared type tag inside))
          fun _ => inside.break? = none :=
        .lift fun _ reads => complete_of_scalar reads
      exact reads.bind fun _ complete => .after (.pure complete)

private theorem readChildren_complete (frame : Frame) (values : FieldValues) (seen : List String)
    (inside : Content) :
    Ensures (context.readChildren frame values seen inside) fun _ => inside.break? = none := by
  induction inside generalizing values seen with
  | closed encoding => exact .pure rfl
  | broken ending => exact .throw
  | text position text rest ih =>
      rw [Context.readChildren]
      exact .after (ih values seen)
  | element tag inside rest _ ih =>
      rw [Context.readChildren]
      cases frame.layout.elementField? tag.name with
      | none => exact .after (ih values seen)
      | some field =>
          apply Ensures.andThen
          intro seen
          apply Ensures.andThen
          intro values
          exact ih values seen

private theorem readEntity_complete (className : String) (tag : Tag) (inside : Content)
    (atRoot : Bool) :
    Ensures (context.readEntity className tag inside atRoot) fun _ => inside.break? = none := by
  unfold Context.readEntity Context.entity
  apply Ensures.andThen
  intro begun
  obtain ⟨frame, values⟩ := begun
  simp only
  cases contentEq : frame.layout.contentField? with
  | none =>
      have children : Ensures (context.childrenIn inside frame values) fun _ => inside.break? = none :=
        readChildren_complete frame values [] inside
      exact children.bind fun _ complete => .pure complete
  | some field =>
      have content : Ensures (context.readContentField frame values field tag inside) fun _ =>
          inside.break? = none :=
        readContentField_complete frame values field tag inside
      exact content.bind fun _ complete => .pure complete

private theorem complete_of_readDocument {className : String} {document : Document}
    {graph : ObjectGraph}
    (reads : context.readDocument className document = .ok graph) :
    ∃ root inside, document = .rooted root inside ∧ inside.break? = none := by
  obtain ⟨root, inside, session, documentEq, entityEq, _⟩ := readDocument_eq_ok reads
  exact ⟨root, inside, documentEq, readEntity_complete className root inside true _ _ _ entityEq⟩

namespace Reader

variable {reader : Reader} {className document : String} {source : Option Source}
variable {graph : ObjectGraph}

private theorem holdsRoot_of_readAs (reads : reader.readAs className document source = .ok graph) :
    ∃ root inside, HoldsRoot (tokenize reader.options.extended document).tokens root inside ∧
      inside.break? = none := by
  obtain ⟨root, inside, rooted, complete⟩ := complete_of_readDocument reads
  exact ⟨root, inside, Markup.holdsRoot_of_parse rooted complete, complete⟩

private theorem readAs_of_holdsRoot (reads : reader.readAs className document source = .ok graph)
    {extended : Bool} {document' : String} {root : Tag} {inside : Content}
    (holds : HoldsRoot (tokenize reader.options.extended document).tokens root inside)
    (holds' : HoldsRoot (tokenize extended document').tokens root inside) :
    (reader.withExtended extended).readAs className document' source = .ok graph := by
  unfold Reader.readAs at reads ⊢
  rw [holds.parse_eq] at reads
  rw [Reader.withExtended, holds'.parse_eq]
  exact reads

/-! ### Trailing text -/

/-- The document breaks off inside an end tag, and without that tag it could not be read. -/
def BreaksOff (reader : Reader) (className document : String) (source : Option Source) : Prop :=
  ∃ front tail, document = front ++ "</" ++ tail ∧ '>' ∉ tail.toList ∧
    ∀ graph, reader.readAs className front source ≠ .ok graph

/-- A document whose last character is the end of markup does not break off inside an end tag. -/
private theorem not_breaksOff_of_getLast? (ends : document.toList.getLast? = some '>') :
    ¬ reader.BreaksOff className document source := by
  intro breaksOff
  obtain ⟨front, tail, documentEq, noEnd, _⟩ := breaksOff
  rw [documentEq, String.toList_append, String.toList_append, List.append_assoc] at ends
  cases tailEq : tail.toList using List.reverseRecOn with
  | nil =>
      rw [tailEq, List.append_nil] at ends
      change (front.toList ++ ['<', '/']).getLast? = some '>' at ends
      rw [List.getLast?_append] at ends
      cases ends
  | append_singleton init last =>
      rw [tailEq] at ends noEnd
      rw [← List.append_assoc, ← List.append_assoc, List.getLast?_concat] at ends
      cases ends
      exact noEnd (List.mem_append_right _ List.mem_cons_self)

/-- What comes behind a document that has been read is not looked at: a document that goes on, with
whatever it may be, is read as the same objects with the same identities and places.  Only a document
that breaks off inside the end tag it depends on must go on with the end of that tag. -/
theorem trailing_text_ignored (reads : reader.readAs className document source = .ok graph) :
    (¬ reader.BreaksOff className document source →
      ∀ rest, reader.readAs className (document ++ rest) source = .ok graph) ∧
    ∀ rest, reader.readAs className (document ++ ">" ++ rest) source = .ok graph := by
  obtain ⟨root, inside, holds, complete⟩ := holdsRoot_of_readAs reads
  have filled := holds.toList_ne_nil
  have goesOn (rest : String)
      (holds' : HoldsRoot (tokenize reader.options.extended (document ++ rest)).tokens root inside) :
      reader.readAs className (document ++ rest) source = .ok graph :=
    readAs_of_holdsRoot reads holds holds'
  rcases holds.before_end complete with early | ⟨taken, modeEq⟩
  · constructor
    · intro _ rest
      exact goesOn rest (early.append filled rest)
    · intro rest
      rw [String.append_assoc]
      exact goesOn _ (early.append filled _)
  · constructor
    · intro whole rest
      obtain ⟨front, tail, documentEq, noEnd, isPrefix⟩ := Markup.exists_front modeEq
      -- If the front could be read, the element would be complete there and so before the tag.
      have early : HoldsRoot (scanned reader.options.extended document).emitted.reverse root inside := by
        by_contra late
        apply whole
        refine ⟨front, tail, documentEq, noEnd, ?_⟩
        intro frontGraph frontReads
        obtain ⟨root', inside', holds', _⟩ := holdsRoot_of_readAs frontReads
        have holdsEarly := holds'.of_prefix isPrefix
        have same := (holdsEarly.append filled "").parse_eq
        rw [String.append_empty, holds.parse_eq] at same
        cases same
        exact late holdsEarly
      exact goesOn rest (early.append filled rest)
    · intro rest
      rw [String.append_assoc]
      apply goesOn
      rw [← String.append_assoc]
      exact holds.of_prefix (Markup.tokenize_append_sign modeEq filled rest)

def leaflet : Schema.Declarations where
  classes := [{ name := "Leaflet", fields := [{ name := "title", kind := .scalar .text }] }]
  roots := ["Leaflet"]

/-- Markup without sense behind a leaflet, and the end of an end tag behind one that lacks it. -/
theorem trailing_text_ignored_behind_leaflet :
    ∃ schema, leaflet.build = .ok schema ∧
      let reader : Reader := ⟨schema, {}⟩
      let whole := "<leaflet><title>a</title></leaflet>"
      let cut := "<leaflet><title>a</title></leaflet"
      ∃ graph cutGraph, reader.readAs "Leaflet" whole none = .ok graph ∧
        ¬ reader.BreaksOff "Leaflet" whole none ∧
        reader.readAs "Leaflet" (whole ++ "</b> &amp <![CDATA[ <!-") none = .ok graph ∧
        reader.readAs "Leaflet" cut none = .ok cutGraph ∧
        reader.readAs "Leaflet" (cut ++ ">" ++ "</b> &amp <![CDATA[ <!-") none = .ok cutGraph := by
  have reads : leaflet.build.toOption.any (fun schema =>
      ((⟨schema, {}⟩ : Reader).readAs "Leaflet" "<leaflet><title>a</title></leaflet>"
        none).toOption.isSome &&
        ((⟨schema, {}⟩ : Reader).readAs "Leaflet" "<leaflet><title>a</title></leaflet"
          none).toOption.isSome) = true := by
    decide +kernel
  obtain ⟨schema, built, reads⟩ := Schema.exists_built reads
  rw [Bool.and_eq_true, Option.isSome_iff_exists, Option.isSome_iff_exists] at reads
  obtain ⟨⟨graph, graphEq⟩, ⟨cutGraph, cutEq⟩⟩ := reads
  have wholeReads := eq_ok_of_toOption graphEq
  have cutReads := eq_ok_of_toOption cutEq
  have ends : ¬ Reader.BreaksOff ⟨schema, {}⟩ "Leaflet" "<leaflet><title>a</title></leaflet>" none :=
    not_breaksOff_of_getLast? (by decide +kernel)
  exact ⟨schema, built, graph, cutGraph, wholeReads, ends,
    (trailing_text_ignored wholeReads).1 ends _, cutReads, (trailing_text_ignored cutReads).2 _⟩

/-- A leaflet may lack the end of its end tag, and what comes next may then spoil it. -/
theorem trailing_text_matters :
    ∃ schema, leaflet.build = .ok schema ∧
      let reader : Reader := ⟨schema, {}⟩
      (∃ graph, reader.readAs "Leaflet" "<leaflet></leaflet" none = .ok graph) ∧
        reader.readAs "Leaflet" ("<leaflet></leaflet" ++ "s>") none =
          .error (.markup (.mismatchedEnd "leaflet" "leaflets")) := by
  have outcomes : leaflet.build.toOption.any (fun schema =>
      ((⟨schema, {}⟩ : Reader).readAs "Leaflet" "<leaflet></leaflet" none).toOption.isSome &&
        match (⟨schema, {}⟩ : Reader).readAs "Leaflet" ("<leaflet></leaflet" ++ "s>") none with
        | .ok _ => false
        | .error error => error == .markup (.mismatchedEnd "leaflet" "leaflets")) = true := by
    decide +kernel
  obtain ⟨schema, built, outcomes⟩ := Schema.exists_built outcomes
  rw [Bool.and_eq_true, Option.isSome_iff_exists] at outcomes
  obtain ⟨⟨graph, graphEq⟩, fails⟩ := outcomes
  refine ⟨schema, built, ⟨graph, eq_ok_of_toOption graphEq⟩, ?_⟩
  split at fails
  · cases fails
  · rename_i error errorEq
    rw [errorEq, beq_iff_eq.1 fails]

/-! ### More names -/

/-- A document that can be read with the reserved names alone is read as the same objects, with the
same identities and places, where all other names are known too. -/
theorem reserved_names_suffice
    (reads : (reader.withExtended false).readAs className document source = .ok graph) :
    (reader.withExtended true).readAs className document source = .ok graph := by
  obtain ⟨root, inside, holds, _⟩ := holdsRoot_of_readAs reads
  have wider : false = true → true = true := fun _ => rfl
  have holds' : HoldsRoot (tokenize true document).tokens root inside :=
    holds.of_prefix (Markup.tokenize_extended wider document)
  exact readAs_of_holdsRoot reads holds holds'

def poster : Schema.Declarations where
  classes := [
    { name := "Poster"
      fields := [
        { name := "caption", kind := .scalar .text, isAttribute := true },
        { name := "body", kind := .scalar .text },
        { name := "art", kind := .scalar .tree }] }]
  roots := ["Poster"]

/-- References in an attribute, in a text, in a tree and in an element of no field. -/
theorem reserved_names_suffice_for_poster :
    ∃ schema, poster.build = .ok schema ∧
      let reader : Reader := ⟨schema, { strict := false }⟩
      let document := "<poster caption='&lt;a'><body>&#x42;&amp;</body>" ++
        "<art k='&quot;'>&gt;<x>&apos;</x></art><skip y='&amp;'>&lt;</skip></poster>"
      ∃ graph, (reader.withExtended false).readAs "Poster" document none = .ok graph ∧
        (reader.withExtended true).readAs "Poster" document none = .ok graph := by
  have reads : poster.build.toOption.any (fun schema =>
      (((⟨schema, { strict := false }⟩ : Reader).withExtended false).readAs "Poster"
        ("<poster caption='&lt;a'><body>&#x42;&amp;</body>" ++
          "<art k='&quot;'>&gt;<x>&apos;</x></art><skip y='&amp;'>&lt;</skip></poster>")
        none).toOption.isSome) = true := by
    decide +kernel
  obtain ⟨schema, built, reads⟩ := Schema.exists_built reads
  obtain ⟨graph, graphEq⟩ := Option.isSome_iff_exists.1 reads
  have readEq := eq_ok_of_toOption graphEq
  exact ⟨schema, built, graph, readEq, reserved_names_suffice readEq⟩

end Reader

end Trellis.Reading
