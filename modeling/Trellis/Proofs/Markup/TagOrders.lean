import Mathlib.Data.List.Perm.Basic
import Trellis.Proofs.Markup.Rearrangements

/-!
Tags with their attributes in another order.

A tag has the same attributes whatever their order, and it is refused for a repeated name whatever the
order.  So the scanner goes on behind it as before, and the document has the same tags with the same
attributes.
-/

namespace Trellis.Markup

private theorem decodeAttributes_perm {row row' : List WrittenAttribute}
    (wellFormed : ∀ written ∈ row, written.WellFormed) (perm : row.Perm row') {tail : List Char}
    (blank : ∀ c ∈ tail, isTagBlank c = true) {extended : Bool} {offset : Nat}
    {attributes : List (String × String)}
    (decoded : decodeAttributes extended offset ((attributesText row).toList ++ tail) =
      .ok attributes) :
    ∃ attributes', decodeAttributes extended offset ((attributesText row').toList ++ tail) =
        .ok attributes' ∧ SameAttributes attributes attributes' := by
  obtain ⟨distinct, means⟩ := (decodeAttributes_row wellFormed blank).1 decoded
  obtain ⟨attributes', means', perm'⟩ := List.perm_comp_forall₂ perm.symm means
  have wellFormed' : ∀ written ∈ row', written.WellFormed :=
    fun written member => wellFormed written (perm.mem_iff.2 member)
  refine ⟨attributes', (decodeAttributes_row wellFormed' blank).2 ⟨?_, means'⟩,
    .inAnyOrder (nodup_decodeAttributes decoded) perm'.symm⟩
  exact (perm.map _).nodup_iff.1 distinct

/-! ### Tokens that differ in the order of attributes -/

inductive TokenKind.Resembles : TokenKind → TokenKind → Prop
  | text (content : String) : Resembles (.text content) (.text content)
  | closing (name : String) : Resembles (.closing name) (.closing name)
  | opening (name : String) {attributes attributes' : List (String × String)}
      (same : SameAttributes attributes attributes') :
      Resembles (.opening name attributes) (.opening name attributes')

/-- The second row goes on at least as far as the first one, with tokens of the same kinds. -/
inductive KindsResemble : List TokenKind → List TokenKind → Prop
  | ended (kinds : List TokenKind) : KindsResemble [] kinds
  | cons {kind kind' : TokenKind} {kinds kinds' : List TokenKind} (first : kind.Resembles kind')
      (rest : KindsResemble kinds kinds') : KindsResemble (kind :: kinds) (kind' :: kinds')

theorem TokenKind.Resembles.refl (kind : TokenKind) : kind.Resembles kind := by
  cases kind with
  | text content => exact .text content
  | closing name => exact .closing name
  | opening name attributes => exact .opening name .inOrder

theorem KindsResemble.append {kinds kinds' : List TokenKind}
    (each : List.Forall₂ TokenKind.Resembles kinds kinds') {more more' : List TokenKind}
    (resemble : KindsResemble more more') : KindsResemble (kinds ++ more) (kinds' ++ more') := by
  induction each with
  | nil => exact resemble
  | cons first _ ih => exact .cons first ih

private theorem resembles_self (kinds : List TokenKind) :
    List.Forall₂ TokenKind.Resembles kinds kinds :=
  List.forall₂_same.2 fun kind _ => .refl kind

theorem KindsResemble.of_beginning {kinds kinds' : List TokenKind} (isPrefix : kinds <+: kinds') :
    KindsResemble kinds kinds' := by
  obtain ⟨more, rfl⟩ := isPrefix
  have resemble := KindsResemble.append (resembles_self kinds) (.ended more)
  rwa [List.append_nil] at resemble

theorem KindsResemble.tokens {token : Token} {rest tokens' : List Token}
    (resemble : KindsResemble ((token :: rest).map (·.kind)) (tokens'.map (·.kind))) :
    ∃ token' rest', tokens' = token' :: rest' ∧ token.kind.Resembles token'.kind ∧
      KindsResemble (rest.map (·.kind)) (rest'.map (·.kind)) := by
  cases tokens' with
  | nil => cases resemble
  | cons token' rest' =>
      rw [List.map_cons, List.map_cons] at resemble
      cases resemble with
      | cons first later => exact ⟨token', rest', rfl, first, later⟩

private theorem level_resembles {ending ending' : Ending} {tokens tokens' : List Token}
    (resemble : KindsResemble (tokens.map (·.kind)) (tokens'.map (·.kind))) (depth : Nat) :
    (Content.level ending tokens depth).Resembles (Content.level ending' tokens' depth) := by
  induction tokens generalizing tokens' depth with
  | nil => exact .broken [] ending _
  | cons token rest ih =>
      obtain ⟨token', rest', rfl, first, later⟩ := resemble.tokens
      have next := fun depth => ih later depth
      obtain ⟨kind, position, encoding⟩ := token
      obtain ⟨kind', position', encoding'⟩ := token'
      cases first with
      | text content =>
          cases depth with
          | zero =>
              exact @Content.Resembles.texts [(position, content)] [(position', content)] _ _ rfl
                (next 0)
          | succ depth => exact next (depth + 1)
      | closing name =>
          cases depth with
          | zero => exact .closed _ _
          | succ depth => exact next depth
      | opening name same =>
          cases depth with
          | zero => exact .element ⟨rfl, same⟩ (next 0) (next 1)
          | succ depth => exact next (depth + 2)

private theorem document_resembles (ending ending' : Ending) {tokens tokens' : List Token}
    (resemble : KindsResemble (tokens.map (·.kind)) (tokens'.map (·.kind))) :
    (Document.ofTokens ending tokens).Resembles (Document.ofTokens ending' tokens') := by
  induction tokens generalizing tokens' with
  | nil => exact .empty _ _
  | cons token rest ih =>
      obtain ⟨token', rest', rfl, first, later⟩ := resemble.tokens
      obtain ⟨kind, position, encoding⟩ := token
      obtain ⟨kind', position', encoding'⟩ := token'
      cases first with
      | text content => exact @ih rest' later
      | closing name => exact @ih rest' later
      | opening name same =>
          simp only [Document.ofTokens]
          rw [(Content.ofTokens_eq_level ending rest).1, (Content.ofTokens_eq_level ending' rest').1]
          exact .rooted ⟨rfl, same⟩ (level_resembles later 0)

/-! ### Documents -/

inductive TagEnd
  | start
  | empty

def TagEnd.text : TagEnd → String
  | .start => ">"
  | .empty => "/>"

def TagEnd.shown (tagEnd : TagEnd) (name : String) (attributes : List (String × String)) :
    List TokenKind :=
  match tagEnd with
  | .start => [.opening name attributes]
  | .empty => [.opening name attributes, .closing name]

def TagEnd.opened (tagEnd : TagEnd) (name : String) (opened : List String) : List String :=
  match tagEnd with
  | .start => name :: opened
  | .empty => opened

namespace Scanner

variable {scanner scanner' : Scanner} {extended : Bool} {opened : List String}
  {kinds : List TokenKind}

theorem Stands.tag {text : String} (isTag : IsTag text) (tagEnd : TagEnd)
    (stands : scanner.Stands extended opened kinds .tag) :
    match tagAttributes extended text.toList with
    | .ok attributes => ((text.toList ++ tagEnd.text.toList).foldl step scanner).Stands extended
        (tagEnd.opened (tagName text.toList) opened)
        (kinds ++ tagEnd.shown (tagName text.toList) attributes) (.text [])
    | .error error => ((text.toList ++ tagEnd.text.toList).foldl step scanner).Stands extended opened
        kinds (.failed error) := by
  cases tagEnd with
  | start => exact stands.startTag isTag
  | empty =>
      have settles := settles_emptyTag isTag stands
      unfold Settles at settles
      cases decoded : tagAttributes extended text.toList with
      | error error =>
          rw [decoded] at settles
          exact settles
      | ok attributes =>
          rw [decoded] at settles
          simp only [List.append_assoc] at settles
          exact settles

/-- The second scanner has shown the tokens of the first one, but for the order of attributes, and
stands where it stands; or the first one shows no more. -/
inductive Parallel (scanner scanner' : Scanner) : Prop
  | framed {kinds kinds' : List TokenKind} (each : List.Forall₂ TokenKind.Resembles kinds kinds')
      (framed : Framed [] kinds kinds' scanner scanner') : Parallel scanner scanner'
  | failed (failed : scanner.Failed) (isPrefix : scanner.shown <+: scanner'.shown) :
      Parallel scanner scanner'

private theorem shown_prefix_finish (scanner : Scanner) (chars : List Char) :
    scanner.shown <+: (chars.foldl step scanner).finish.tokens.map (·.kind) := by
  obtain ⟨more, moreEq⟩ := finish_tokens_eq scanner chars
  exact ⟨more.map (·.kind), by rw [moreEq, List.map_append, shown]⟩

theorem Parallel.finish (parallel : Parallel scanner scanner') (chars : List Char) :
    KindsResemble ((chars.foldl step scanner).finish.tokens.map (·.kind))
      ((chars.foldl step scanner').finish.tokens.map (·.kind)) := by
  cases parallel with
  | framed each framed =>
      have behind : Framed [] _ _ (chars.foldl step scanner) (chars.foldl step scanner') :=
        framed.foldl_step (.inl rfl)
      obtain ⟨more, moreEq, moreEq'⟩ := behind.finish
      rw [moreEq, moreEq']
      exact .append each (.of_beginning (List.prefix_refl more))
  | failed failed isPrefix =>
      have finishEq : (chars.foldl step scanner).finish.tokens.map (·.kind) = scanner.shown := by
        rw [foldl_step_of_failed failed]
        obtain ⟨error, modeEq⟩ := failed
        simp only [Scanner.finish, modeEq, ended, shown]
      rw [finishEq]
      exact .of_beginning (isPrefix.trans (shown_prefix_finish scanner' chars))

end Scanner

section Documents

variable {extended : Bool} {name tail : String} {row row' : List WrittenAttribute}
variable (isTagName : IsTagName name) (wellFormed : ∀ written ∈ row, written.WellFormed)
variable (perm : row.Perm row') (blank : ∀ c ∈ tail.toList, isTagBlank c = true)
include isTagName wellFormed perm blank

/-- Behind the sign, a tag and the one with its attributes in another order lead to the same. -/
private theorem parallel_tags {scanner scanner' : Scanner} {opened : List String}
    {kinds : List TokenKind}
    (stands : scanner.Stands extended opened kinds .tag)
    (stands' : scanner'.Stands extended opened kinds .tag) (tagEnd : TagEnd) :
    Scanner.Parallel
      (((tagText name row tail).toList ++ tagEnd.text.toList).foldl Scanner.step scanner)
      (((tagText name row' tail).toList ++ tagEnd.text.toList).foldl Scanner.step scanner') := by
  have wellFormed' : ∀ written ∈ row', written.WellFormed :=
    fun written member => wellFormed written (perm.mem_iff.2 member)
  have reached := stands.tag (isTag_tagText isTagName wellFormed blank) tagEnd
  have reached' := stands'.tag (isTag_tagText isTagName wellFormed' blank) tagEnd
  rw [tagAttributes_tagText isTagName wellFormed blank,
    tagName_tagText isTagName wellFormed blank] at reached
  rw [tagAttributes_tagText isTagName wellFormed' blank,
    tagName_tagText isTagName wellFormed' blank] at reached'
  cases decoded : decodeAttributes extended (Text.utf8Length name.toList)
      ((attributesText row).toList ++ tail.toList) with
  | error error =>
      rw [decoded] at reached
      refine .failed ⟨error, reached.mode_eq⟩ ?_
      rw [reached.shown_eq, ← stands'.shown_eq]
      exact (List.reverse_prefix.2 (Scanner.Grows.foldl_step _ _).emitted).map _
  | ok attributes =>
      obtain ⟨attributes', decoded', same⟩ := decodeAttributes_perm wellFormed perm blank decoded
      rw [decoded] at reached
      rw [decoded'] at reached'
      rw [← List.append_nil (tagEnd.opened name opened)] at reached'
      have shown : List.Forall₂ TokenKind.Resembles (tagEnd.shown name attributes)
          (tagEnd.shown name attributes') := by
        cases tagEnd with
        | start => exact .cons (.opening name same) .nil
        | empty => exact .cons (.opening name same) (.cons (.closing name) .nil)
      exact .framed (List.rel_append (resembles_self kinds) shown) (reached.framed reached')

theorem parse_attributes {front : String}
    (inText : ∃ taken, (scanned extended front).mode = .text taken) (tagEnd : TagEnd) (back : String) :
    (Document.parse extended (front ++ ("<" ++ tagText name row tail ++ tagEnd.text) ++ back)).Resembles
      (Document.parse extended
        (front ++ ("<" ++ tagText name row' tail ++ tagEnd.text) ++ back)) := by
  obtain ⟨taken, modeEq⟩ := inText
  have pieceEq (row : List WrittenAttribute) : ("<" ++ tagText name row tail ++ tagEnd.text).toList =
      '<' :: ((tagText name row tail).toList ++ tagEnd.text.toList) := by
    rw [String.toList_append, String.toList_append]
    rfl
  have arrives (document : String) := stands_arrive extended document.toList modeEq
  apply document_resembles
  rw [tokenize_signed front back (pieceEq row), tokenize_signed front back (pieceEq row'), pieceEq,
    pieceEq, List.foldl_cons, List.foldl_cons]
  apply Scanner.Parallel.finish
  cases decoded : decode extended taken.reverse with
  | ok content =>
      rw [← List.reverse_reverse taken] at arrives
      exact parallel_tags isTagName wellFormed perm blank ((arrives _).step_sign decoded)
        ((arrives _).step_sign decoded) tagEnd
  | error error =>
      have refused (document : String) := (arrives document).step_refused decoded
      rw [Scanner.foldl_step_of_failed ⟨_, (refused _).mode_eq⟩,
        Scanner.foldl_step_of_failed ⟨_, (refused _).mode_eq⟩]
      refine .failed ⟨_, (refused _).mode_eq⟩ ⟨[], ?_⟩
      rw [List.append_nil, (refused _).shown_eq, (refused _).shown_eq]

end Documents

end Trellis.Markup
