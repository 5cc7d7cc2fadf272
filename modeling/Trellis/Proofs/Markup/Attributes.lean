import Mathlib.Data.List.Forall2
import Mathlib.Data.List.Nodup
import Trellis.Proofs.Markup.Framing

/-!
The names of attributes.

A tag whose attributes share a name is no markup, so the attributes of every start tag of a document
have names of their own, and what is read for a name is read from one attribute.
-/

namespace Trellis.Markup

/-! ### The attributes of one tag -/

def AttributePhase.named? : AttributePhase → Option String
  | .beforeValue _ awaited => some awaited
  | .value _ begun _ _ => some begun
  | _ => none

def AttributeReader.names (reader : AttributeReader) : List String :=
  reader.phase.named?.toList ++ reader.done.map (·.name)

variable {reader : AttributeReader}

/-- A name that an attribute has had is a mistake at the equals sign. -/
theorem AttributeReader.nodup_afterEquals (distinct : (reader.done.map (·.name)).Nodup)
    (start : Nat) (taken : List Char) :
    ((reader.afterEquals true start taken).named?.toList ++ reader.done.map (·.name)).Nodup := by
  simp only [AttributeReader.afterEquals, if_true]
  split
  · exact distinct
  · rename_i new
    refine List.nodup_cons.2 ⟨?_, distinct⟩
    intro member
    obtain ⟨earlier, earlierMember, same⟩ := List.mem_map.1 member
    have other := List.find?_eq_none.1 new earlier earlierMember
    exact other (beq_iff_eq.2 same)

theorem AttributeReader.nodup_done (distinct : reader.names.Nodup) :
    (reader.done.map (·.name)).Nodup :=
  (List.sublist_append_right _ _).nodup distinct

theorem AttributeReader.nodup_step (distinct : reader.names.Nodup) (c : Char) :
    (reader.step true c).names.Nodup := by
  have done := nodup_done distinct
  unfold AttributeReader.step
  cases phaseEq : reader.phase with
  | failed error => exact distinct
  | between =>
      simp only
      split <;> exact done
  | name start taken =>
      simp only
      split
      · exact nodup_afterEquals done start taken
      · split <;> exact done
  | afterName start taken =>
      simp only
      split
      · exact done
      · split
        · exact nodup_afterEquals done start taken
        · exact done
  | beforeValue start name =>
      rw [AttributeReader.names, phaseEq] at distinct
      simp only
      split
      · exact distinct
      · split
        · exact distinct
        · exact done
  | value start name quote taken =>
      rw [AttributeReader.names, phaseEq] at distinct
      simp only
      split <;> exact distinct

private theorem nodup_readAttributes (offset : Nat) (text : List Char) :
    ((readAttributes true offset text).1.map (·.name)).Nodup := by
  have steps (chars : List Char) (reader : AttributeReader) (distinct : reader.names.Nodup) :
      (chars.foldl (AttributeReader.step true) reader).names.Nodup := by
    induction chars generalizing reader with
    | nil => exact distinct
    | cons c rest ih => exact ih _ (AttributeReader.nodup_step distinct c)
  have distinct := steps text ⟨.between, offset, []⟩ List.nodup_nil
  rw [readAttributes, List.map_reverse, List.nodup_reverse]
  exact AttributeReader.nodup_done distinct

private theorem mapM_eq_ok_iff {α β ε : Type} {f : α → Except ε β} {inputs : List α}
    {outputs : List β} :
    inputs.mapM f = .ok outputs ↔
      List.Forall₂ (fun input output => f input = .ok output) inputs outputs := by
  constructor
  · intro run
    induction inputs generalizing outputs with
    | nil =>
        cases run
        exact .nil
    | cons input rest ih =>
        rw [List.mapM_cons] at run
        cases firstEq : f input with
        | error error =>
            rw [firstEq] at run
            cases run
        | ok first =>
            rw [firstEq] at run
            cases restEq : rest.mapM f with
            | error error =>
                rw [restEq] at run
                cases run
            | ok others =>
                rw [restEq] at run
                cases run
                exact .cons firstEq (ih restEq)
  · intro each
    induction each with
    | nil => rfl
    | cons first _ ih =>
        rw [List.mapM_cons, first, ih]
        rfl

def RawAttribute.Means (extended : Bool) (written : RawAttribute) (pair : String × String) : Prop :=
  written.name = pair.1 ∧ decode extended written.value = .ok pair.2

theorem RawAttribute.means_iff {extended : Bool} {written : RawAttribute} {pair : String × String} :
    (do
      let value ← (decode extended written.value).mapError MarkupError.reference
      return (written.name, value)) = Except.ok pair ↔ written.Means extended pair := by
  unfold RawAttribute.Means
  cases decode extended written.value with
  | error error =>
      constructor
      · intro impossible
        cases impossible
      · rintro ⟨_, impossible⟩
        cases impossible
  | ok value =>
      constructor
      · intro same
        cases same
        exact ⟨rfl, rfl⟩
      · rintro ⟨nameEq, valueEq⟩
        cases valueEq
        change Except.ok (written.name, pair.2) = _
        rw [nameEq]

/-- The attributes of a tag are those written, if there is no mistake among them. -/
theorem decodeAttributes_eq_ok_iff {extended : Bool} {offset : Nat} {text : List Char}
    {attributes : List (String × String)} :
    decodeAttributes extended offset text = .ok attributes ↔
      (readAttributes true offset text).2 = none ∧
        List.Forall₂ (RawAttribute.Means extended) (readAttributes true offset text).1 attributes := by
  have each (raw : List RawAttribute) (decoded : List (String × String)) :=
    @mapM_eq_ok_iff _ _ _ (fun written : RawAttribute => do
      let value ← (decode extended written.value).mapError MarkupError.reference
      return (written.name, value)) raw decoded
  simp only [RawAttribute.means_iff] at each
  unfold decodeAttributes
  obtain ⟨raw, mistake⟩ := readAttributes true offset text
  change (raw.mapM _ >>= fun _ => _) = _ ↔ mistake = none ∧ List.Forall₂ _ raw attributes
  rw [← each]
  cases raw.mapM fun written => do
      let value ← (decode extended written.value).mapError MarkupError.reference
      return (written.name, value) with
  | error error =>
      constructor
      · intro impossible
        cases impossible
      · rintro ⟨_, impossible⟩
        cases impossible
  | ok decoded =>
      cases mistake with
      | some error =>
          constructor
          · intro impossible
            cases impossible
          · rintro ⟨impossible, _⟩
            cases impossible
      | none => exact ⟨fun same => ⟨rfl, same⟩, fun same => same.2⟩

theorem nodup_decodeAttributes {extended : Bool} {offset : Nat} {text : List Char}
    {attributes : List (String × String)}
    (decoded : decodeAttributes extended offset text = .ok attributes) :
    (attributes.map (·.1)).Nodup := by
  have distinct := nodup_readAttributes offset text
  have means := (decodeAttributes_eq_ok_iff.1 decoded).2
  have names {raw : List RawAttribute} {attributes : List (String × String)}
      (means : List.Forall₂ (RawAttribute.Means extended) raw attributes) :
      raw.map (·.name) = attributes.map (·.1) := by
    induction means with
    | nil => rfl
    | cons first _ ih => rw [List.map_cons, List.map_cons, first.1, ih]
  rwa [names means] at distinct

/-! ### The start tags of a document -/

/-- A start tag has no two attributes of one name. -/
def TokenKind.Tidy : TokenKind → Prop
  | .opening _ attributes => (attributes.map (·.1)).Nodup
  | _ => True

theorem TokenKind.Tidy.text (content : String) : (TokenKind.text content).Tidy :=
  trivial

theorem TokenKind.Tidy.closing (name : String) : (TokenKind.closing name).Tidy :=
  trivial

namespace Scanner

def Tidy (scanner : Scanner) : Prop :=
  ∀ token ∈ scanner.emitted, token.kind.Tidy

variable {scanner : Scanner}

theorem Tidy.emit (tidy : scanner.Tidy) {kind : TokenKind} (isTidy : kind.Tidy) (mark : Nat) :
    (scanner.emit kind mark).Tidy := by
  intro token member
  rcases List.mem_cons.1 member with rfl | earlier
  · exact isTidy
  · exact tidy token earlier

theorem Tidy.endText (tidy : scanner.Tidy) (taken : List Char) : (scanner.endText taken).Tidy := by
  unfold Scanner.endText
  split
  · exact tidy
  · split
    · exact tidy.emit (.text _) _
    · exact tidy

theorem Tidy.endElement (tidy : scanner.Tidy) (text : List Char) : (scanner.endElement text).Tidy := by
  unfold Scanner.endElement
  simp only
  split
  · exact tidy
  · rename_i attributes decoded
    have isTidy (name : String) : (TokenKind.opening name attributes).Tidy :=
      nodup_decodeAttributes decoded
    split
    · exact (tidy.emit (isTidy _) _).emit (.closing _) _
    · exact tidy.emit (isTidy _) _

theorem Tidy.endPiece (tidy : scanner.Tidy) (piece : Piece) (text : List Char) :
    (scanner.endPiece piece text).Tidy := by
  cases piece with
  | element quote => exact tidy.endElement text
  | closing =>
      simp only [Scanner.endPiece, Scanner.endClosing]
      split
      · exact tidy
      · split
        · have popped (opened : List String) : Tidy { scanner with opened } := tidy
          exact (popped _).emit (.closing _) _
        · exact tidy
  | instruction =>
      simp only [Scanner.endPiece, Scanner.endInstruction]
      split
      · split <;> exact tidy
      · exact tidy
  | comment =>
      simp only [Scanner.endPiece, Scanner.endComment]
      split <;> exact tidy
  | cdata =>
      simp only [Scanner.endPiece, Scanner.endCdata]
      split
      · exact tidy.emit (.text _) _
      · exact tidy
  | doctype =>
      simp only [Scanner.endPiece, Scanner.endDoctype]
      split
      · split <;> exact tidy
      · exact tidy

theorem Tidy.stepInside (tidy : scanner.Tidy) (piece : Piece) (taken : List Char) (c : Char) :
    (scanner.stepInside piece taken c).Tidy := by
  unfold Scanner.stepInside
  split
  · exact tidy.endPiece piece taken.reverse
  · exact tidy

theorem Tidy.step (tidy : scanner.Tidy) (c : Char) : (scanner.step c).Tidy := by
  have next : Tidy { scanner with offset := scanner.offset + c.utf8Size } := tidy
  unfold Scanner.step
  simp only
  split
  · exact tidy
  · split
    · have ended := next.endText
      split <;> exact ended _
    · exact tidy
  · split
    · exact tidy
    · split
      · exact tidy
      · split
        · exact tidy
        · exact next.stepInside _ _ _
  · exact tidy
  · exact next.stepInside _ _ _

theorem Tidy.foldl_step (tidy : scanner.Tidy) (text : List Char) :
    (text.foldl Scanner.step scanner).Tidy := by
  induction text generalizing scanner with
  | nil => exact tidy
  | cons c rest ih => exact ih (tidy.step c)

theorem Tidy.finish (tidy : scanner.Tidy) : ∀ token ∈ scanner.finish.tokens, token.kind.Tidy := by
  have emitted (scanner : Scanner) (tidy : scanner.Tidy) :
      ∀ token ∈ scanner.emitted.reverse, token.kind.Tidy :=
    fun token member => tidy token (List.mem_reverse.1 member)
  unfold Scanner.finish
  split
  · exact emitted _ tidy
  · rw [finishedAt_tokens]
    exact emitted _ (tidy.endText _)
  · rw [finishedAt_tokens]
    exact emitted _ tidy
  · exact emitted _ tidy
  · split
    · exact emitted _ tidy
    · rw [finishedAt_tokens]
      exact emitted _ (tidy.endPiece _ _)

end Scanner

theorem tidy_tokenize (extended : Bool) (document : String) :
    ∀ token ∈ (tokenize extended document).tokens, token.kind.Tidy := by
  have start : (Scanner.ofSource extended document.toList).Tidy := nofun
  exact (start.foldl_step _).finish

end Trellis.Markup
