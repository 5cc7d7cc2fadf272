import Trellis.Markup.Content
import Trellis.Proofs.Markup.Nesting
import Trellis.Proofs.Writing.Scanning

/-!
The content of a written row of elements.

A content shows a row if it has the row's elements and texts, wherever in a document they stand.  A
document that is one written element is parsed into that element, and its content shows what was
written in it.
-/

namespace Trellis.Markup

open Body (textKinds)

namespace Content

inductive Begins (text : String) (later : Content) : Content → Prop
  | nothing (empty : text = "") : Begins text later later
  | filled (position : Position) (filled : text ≠ "") : Begins text later (.text position text later)

/-- The content is that of a row of elements. -/
inductive Shows : Body → Content → Prop
  | stop (encoding : String) : Shows .stop (.closed encoding)
  | element {name text : String} {attributes : List (String × String)} {inside rest : Body}
      {inner later after : Content} (position : Position) (begins : Begins text later inner)
      (showsInside : Shows inside later) (showsRest : Shows rest after) :
      Shows (.element name attributes text inside rest) (.element ⟨name, attributes, position⟩ inner after)

def Holds (text : String) (inside : Body) (content : Content) : Prop :=
  ∃ later, Begins text later content ∧ Shows inside later

theorem Shows.stop_inv {content : Content} (shows' : Shows .stop content) :
    ∃ encoding, content = .closed encoding := by
  cases shows' with
  | stop encoding => exact ⟨encoding, rfl⟩

theorem Shows.element_inv {name text : String} {attributes : List (String × String)}
    {inside rest : Body} {content : Content}
    (shows' : Shows (.element name attributes text inside rest) content) :
    ∃ position inner after, content = .element ⟨name, attributes, position⟩ inner after ∧
      Holds text inside inner ∧ Shows rest after := by
  cases shows' with
  | element position begins showsInside showsRest =>
      exact ⟨position, _, _, rfl, ⟨_, begins, showsInside⟩, showsRest⟩

/-! ### Tokens of a row -/

theorem Spans.text_of_kinds {text : String} {later : Content} {tokens first : List Token}
    {closing : Token} (spans : later.Spans tokens closing)
    (kinds : first.map (·.kind) = textKinds text) :
    ∃ content, content.Spans (first ++ tokens) closing ∧ Begins text later content := by
  by_cases empty : text = ""
  · rw [textKinds, if_pos empty] at kinds
    rw [List.map_eq_nil_iff.1 kinds]
    exact ⟨later, spans, .nothing empty⟩
  · rw [textKinds, if_neg empty] at kinds
    obtain ⟨token, remaining, rfl, kind, remainingKinds⟩ := List.map_eq_cons_iff.1 kinds
    rw [List.map_eq_nil_iff.1 remainingKinds]
    exact ⟨_, .text kind spans, .filled token.position empty⟩

private theorem spans_of_kinds {body : Body} {tokens : List Token}
    (kinds : tokens.map (·.kind) = body.kinds) {closing : Token} {name : String}
    (kind : closing.kind = .closing name) :
    ∃ content, content.Spans tokens closing ∧ Shows body content := by
  induction body generalizing tokens closing name with
  | stop =>
      rw [List.map_eq_nil_iff.1 kinds]
      exact ⟨_, .closed kind, .stop closing.encoding⟩
  | element tagName attributes text inside rest ihInside ihRest =>
      simp only [Body.kinds, List.cons_append, List.append_assoc] at kinds
      obtain ⟨opening, tokens, rfl, openingKind, kinds⟩ := List.map_eq_cons_iff.1 kinds
      obtain ⟨first, tokens, rfl, firstKinds, kinds⟩ := List.map_eq_append_iff.1 kinds
      obtain ⟨inner, tokens, rfl, innerKinds, kinds⟩ := List.map_eq_append_iff.1 kinds
      obtain ⟨innerClosing, after, rfl, innerClosingKind, afterKinds⟩ := List.map_eq_cons_iff.1 kinds
      obtain ⟨later, laterSpans, showsInside⟩ := ihInside innerKinds innerClosingKind
      obtain ⟨content, contentSpans, begins⟩ := laterSpans.text_of_kinds firstKinds
      obtain ⟨behind, behindSpans, showsRest⟩ := ihRest afterKinds kind
      have spans := Spans.element openingKind contentSpans behindSpans
      rw [List.cons_append, List.append_assoc] at spans
      exact ⟨_, spans, .element opening.position begins showsInside showsRest⟩

end Content

/-! ### Documents -/

theorem parse_element {name text : String} {attributes : List (String × String)} {inside : Body}
    (wellFormed : (Body.element name attributes text inside .stop).WellFormed) (extended : Bool) :
    ∃ position content,
      Document.parse extended (String.ofList (Body.element name attributes text inside .stop).chars) =
        .rooted ⟨name, attributes, position⟩ content ∧ content.Holds text inside := by
  have kinds := tokenize_element wellFormed extended
  simp only [Body.kinds, List.cons_append, List.append_assoc] at kinds
  obtain ⟨opening, tokens, tokensEq, openingKind, kinds⟩ := List.map_eq_cons_iff.1 kinds
  obtain ⟨first, tokens, rfl, firstKinds, kinds⟩ := List.map_eq_append_iff.1 kinds
  obtain ⟨inner, tokens, rfl, innerKinds, kinds⟩ := List.map_eq_append_iff.1 kinds
  obtain ⟨closing, after, rfl, closingKind, _⟩ := List.map_eq_cons_iff.1 kinds
  obtain ⟨later, laterSpans, showsInside⟩ := Content.spans_of_kinds innerKinds closingKind
  obtain ⟨content, contentSpans, begins⟩ := laterSpans.text_of_kinds firstKinds
  refine ⟨opening.position, content, ?_, later, begins, showsInside⟩
  unfold Document.parse
  simp only [tokensEq, Document.ofTokens, openingKind]
  have folded := Content.ofTokens_of_spans contentSpans
    (tokenize extended (String.ofList (Body.element name attributes text inside .stop).chars)).ending after
  rw [List.append_assoc] at folded
  rw [folded]

end Trellis.Markup
