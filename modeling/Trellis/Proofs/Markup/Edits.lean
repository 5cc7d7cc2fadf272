import Trellis.Proofs.Markup.Nesting

/-!
Contents that differ in one place.

Where tokens are put in among those of a document, the element around the place has another content
and every other element has the content that it had, although at other positions.  The path of the
names of the elements that are open at the place leads to it.
-/

namespace Trellis.Markup

/-- The attributes are the same in the same order or, if they have names of their own, in any. -/
inductive SameAttributes (attributes : List (String × String)) : List (String × String) → Prop
  | inOrder : SameAttributes attributes attributes
  | inAnyOrder {attributes' : List (String × String)} (distinct : (attributes.map (·.1)).Nodup)
      (perm : attributes.Perm attributes') : SameAttributes attributes attributes'

/-- The second tag is the first one as it would be written elsewhere, with its attributes in any
order. -/
structure Tag.Resembles (tag tag' : Tag) : Prop where
  name_eq : tag'.name = tag.name
  attributes : SameAttributes tag.attributes tag'.attributes

theorem Tag.resembles_at (tag : Tag) (position' : Position) :
    tag.Resembles { tag with position := position' } :=
  ⟨rfl, .inOrder⟩

namespace Content

def behind (texts : List (Position × String)) (rest : Content) : Content :=
  texts.foldr (fun text rest => .text text.1 text.2 rest) rest

def joined (texts : List (Position × String)) : String :=
  texts.foldr (fun text later => text.2 ++ later) ""

/-- The second content is the first one as it would be written elsewhere, if that one has an end.  Its
runs of text may be divided otherwise. -/
inductive Follows : Content → Content → Prop
  | closed (encoding encoding' : String) : Follows (.closed encoding) (.closed encoding')
  | broken (texts : List (Position × String)) (ending : Ending) (content : Content) :
      Follows (behind texts (.broken ending)) content
  | texts {texts texts' : List (Position × String)} {rest rest' : Content}
      (same : joined texts = joined texts') (follows : Follows rest rest') :
      Follows (behind texts rest) (behind texts' rest')
  | element {tag : Tag} {position' : Position} {inside inside' rest rest' : Content}
      (followsInside : Follows inside inside') (follows : Follows rest rest') :
      Follows (.element tag inside rest) (.element { tag with position := position' } inside' rest')

inductive Resembles : Content → Content → Prop
  | closed (encoding encoding' : String) : Resembles (.closed encoding) (.closed encoding')
  | broken (texts : List (Position × String)) (ending : Ending) (content : Content) :
      Resembles (behind texts (.broken ending)) content
  | texts {texts texts' : List (Position × String)} {rest rest' : Content}
      (same : joined texts = joined texts') (resembles : Resembles rest rest') :
      Resembles (behind texts rest) (behind texts' rest')
  | element {tag tag' : Tag} {inside inside' rest rest' : Content} (tags : tag.Resembles tag')
      (resemblesInside : Resembles inside inside') (resembles : Resembles rest rest') :
      Resembles (.element tag inside rest) (.element tag' inside' rest')

/-- The second content is the first one with a change at the end of a path of names. -/
inductive Edited (change : Content → Content → Prop) : List String → Content → Content → Prop
  | here {content content' : Content} (changed : change content content') :
      Edited change [] content content'
  | text {path : List String} {position position' : Position} {text : String}
      {rest rest' : Content} (edited : Edited change path rest rest') :
      Edited change path (.text position text rest) (.text position' text rest')
  | after {path : List String} {tag : Tag} {position' : Position}
      {inside inside' rest rest' : Content} (follows : Follows inside inside')
      (edited : Edited change path rest rest') :
      Edited change path (.element tag inside rest)
        (.element { tag with position := position' } inside' rest')
  | inside {path : List String} {tag : Tag} {position' : Position}
      {inside inside' rest rest' : Content} (edited : Edited change path inside inside')
      (follows : Follows rest rest') :
      Edited change (tag.name :: path) (.element tag inside rest)
        (.element { tag with position := position' } inside' rest')

theorem Follows.text {position position' : Position} {text : String} {rest rest' : Content}
    (follows : Follows rest rest') :
    Follows (.text position text rest) (.text position' text rest') :=
  @Follows.texts [(position, text)] [(position', text)] rest rest' rfl follows

theorem break?_behind (texts : List (Position × String)) (rest : Content) :
    (behind texts rest).break? = rest.break? := by
  induction texts with
  | nil => rfl
  | cons text texts ih => exact ih

theorem Follows.resembles {content content' : Content} (follows : content.Follows content') :
    content.Resembles content' := by
  induction follows with
  | closed encoding encoding' => exact .closed encoding encoding'
  | broken texts ending content => exact .broken texts ending content
  | texts same _ ih => exact .texts same ih
  | element _ _ ihInside ih => exact .element (Tag.resembles_at _ _) ihInside ih

theorem Resembles.refl (content : Content) : Resembles content content := by
  induction content with
  | closed encoding => exact .closed encoding encoding
  | broken ending => exact .broken [] ending _
  | text position text rest ih => exact @Resembles.texts [(position, text)] [(position, text)] _ _ rfl ih
  | element tag inside rest ihInside ih => exact .element (Tag.resembles_at tag tag.position) ihInside ih

theorem Resembles.break?_eq_none {content content' : Content}
    (resembles : content.Resembles content') (complete : content.break? = none) :
    content'.break? = none := by
  induction resembles with
  | closed encoding encoding' => rfl
  | broken texts ending content =>
      rw [break?_behind] at complete
      cases complete
  | texts _ _ ih =>
      rw [break?_behind] at complete ⊢
      exact ih complete
  | element _ _ _ _ ih => exact ih complete

/-! ### Levels -/

/-- The content that is left after as many more elements than `depth` have ended as have begun. -/
def level (ending : Ending) : List Token → Nat → Content
  | [], _ => .broken ending
  | token :: rest, depth =>
      match token.kind, depth with
      | .text content, 0 => .text token.position content (level ending rest 0)
      | .text _, depth + 1 => level ending rest (depth + 1)
      | .closing _, 0 => .closed token.encoding
      | .closing _, depth + 1 => level ending rest depth
      | .opening name attributes, 0 =>
          .element ⟨name, attributes, token.position⟩ (level ending rest 0) (level ending rest 1)
      | .opening _ _, depth + 1 => level ending rest (depth + 2)

theorem ofTokens_eq_level (ending : Ending) (tokens : List Token) :
    (ofTokens ending tokens).1 = level ending tokens 0 ∧
      ∀ depth, ((ofTokens ending tokens).2)[depth]?.getD (.broken ending) =
        level ending tokens (depth + 1) := by
  induction tokens with
  | nil => exact ⟨rfl, fun depth => by simp [ofTokens, level]⟩
  | cons token rest ih =>
      obtain ⟨innerEq, outerEq⟩ := ih
      cases kind : token.kind with
      | text content => simp [ofTokens, level, kind, innerEq, outerEq]
      | closing name =>
          refine ⟨by simp [ofTokens, level, kind], ?_⟩
          intro depth
          cases depth with
          | zero => simp [ofTokens, level, kind, innerEq]
          | succ depth => simp [ofTokens, level, kind, outerEq]
      | opening name attributes =>
          have first := outerEq 0
          have later (depth : Nat) := outerEq (depth + 1)
          cases outer : (ofTokens ending rest).2 with
          | nil =>
              simp only [outer, List.getElem?_nil, Option.getD_none] at first later
              refine ⟨by simp [ofTokens, level, kind, outer, innerEq, ← first], ?_⟩
              intro depth
              simp [ofTokens, level, kind, outer, ← later]
          | cons next outer' =>
              simp only [outer, List.getElem?_cons_zero, List.getElem?_cons_succ,
                Option.getD_some] at first later
              refine ⟨by simp [ofTokens, level, kind, outer, innerEq, ← first], ?_⟩
              intro depth
              simp [ofTokens, level, kind, outer, ← later]

def levelsBehind : TokenKind → Nat → List Nat
  | .text _, depth => [depth]
  | .closing _, 0 => []
  | .closing _, depth + 1 => [depth]
  | .opening _ _, 0 => [0, 1]
  | .opening _ _, depth + 1 => [depth + 2]

variable {ending ending' : Ending}

private theorem follows_cons {token token' : Token} {rest rest' : List Token}
    (same : token.kind = token'.kind) {depth : Nat}
    (behind : ∀ later ∈ levelsBehind token.kind depth,
      (level ending rest later).Follows (level ending' rest' later)) :
    (level ending (token :: rest) depth).Follows (level ending' (token' :: rest') depth) := by
  cases kind : token.kind with
  | text content =>
      rw [kind] at same behind
      have next := behind depth (List.mem_singleton.2 rfl)
      cases depth with
      | zero =>
          simp only [level, kind, ← same]
          exact .text next
      | succ depth =>
          simp only [level, kind, ← same]
          exact next
  | closing name =>
      rw [kind] at same behind
      cases depth with
      | zero =>
          simp only [level, kind, ← same]
          exact .closed _ _
      | succ depth =>
          simp only [level, kind, ← same]
          exact behind depth (List.mem_singleton.2 rfl)
  | opening name attributes =>
      rw [kind] at same behind
      cases depth with
      | zero =>
          simp only [level, kind, ← same]
          have inside := behind 0 List.mem_cons_self
          have outside := behind 1 (List.mem_cons_of_mem 0 (List.mem_singleton.2 rfl))
          exact .element inside outside
      | succ depth =>
          simp only [level, kind, ← same]
          exact behind (depth + 2) (List.mem_singleton.2 rfl)

/-- Tokens of the same kinds make contents that follow one another, at every level. -/
theorem level_follows {tokens tokens' : List Token}
    (kinds : tokens.map (·.kind) <+: tokens'.map (·.kind)) (depth : Nat) :
    (level ending tokens depth).Follows (level ending' tokens' depth) := by
  induction tokens generalizing tokens' depth with
  | nil => exact .broken [] ending _
  | cons token rest ih =>
      cases tokens' with
      | nil => exact absurd (List.prefix_nil.1 kinds) (by simp)
      | cons token' rest' =>
          simp only [List.map_cons, List.cons_prefix_cons] at kinds
          exact follows_cons kinds.1 fun later _ => ih kinds.2 later

/-- The contents differ by a change at one level, where as many of the open elements have ended, and
at no other.  The names are those of the elements open at the change, innermost first. -/
def ChangedAt (change : Content → Content → Prop) (ending ending' : Ending)
    (tokens tokens' : List Token) (opened names : List String) : Prop :=
  ∃ ended path, ended ≤ opened.length ∧ names = path.reverse ++ opened.drop ended ∧
    Edited change path (level ending tokens ended) (level ending' tokens' ended) ∧
    ∀ depth, depth ≠ ended → (level ending tokens depth).Follows (level ending' tokens' depth)

section Steps

variable {change : Content → Content → Prop} {token token' : Token} {rest rest' : List Token}
variable {opened names : List String}

theorem ChangedAt.text {text : String} (kind : token.kind = .text text)
    (kind' : token'.kind = .text text)
    (changed : ChangedAt change ending ending' rest rest' opened names) :
    ChangedAt change ending ending' (token :: rest) (token' :: rest') opened names := by
  obtain ⟨ended, path, bound, namesEq, edited, follows⟩ := changed
  refine ⟨ended, path, bound, namesEq, ?_, ?_⟩
  · cases ended with
    | zero =>
        simp only [level, kind, kind']
        exact .text edited
    | succ ended =>
        simp only [level, kind, kind']
        exact edited
  · intro depth other
    apply follows_cons (kind.trans kind'.symm)
    rw [kind]
    intro later member
    rw [List.mem_singleton.1 member]
    exact follows depth other

theorem ChangedAt.closing {name expected : String} (kind : token.kind = .closing name)
    (kind' : token'.kind = .closing name)
    (changed : ChangedAt change ending ending' rest rest' opened names) :
    ChangedAt change ending ending' (token :: rest) (token' :: rest') (expected :: opened) names := by
  obtain ⟨ended, path, bound, namesEq, edited, follows⟩ := changed
  refine ⟨ended + 1, path, Nat.succ_le_succ bound, namesEq, ?_, ?_⟩
  · simp only [level, kind, kind']
    exact edited
  · intro depth other
    apply follows_cons (kind.trans kind'.symm)
    rw [kind]
    intro later member
    cases depth with
    | zero => cases member
    | succ depth =>
        rw [List.mem_singleton.1 member]
        exact follows depth (by omega)

/-- The change stands inside the element, right behind it, or behind an end tag further out. -/
theorem ChangedAt.opening {name : String} {attributes : List (String × String)}
    (kind : token.kind = .opening name attributes) (kind' : token'.kind = .opening name attributes)
    (changed : ChangedAt change ending ending' rest rest' (name :: opened) names) :
    ChangedAt change ending ending' (token :: rest) (token' :: rest') opened names := by
  obtain ⟨ended, path, bound, namesEq, edited, follows⟩ := changed
  have elsewhere (here : Nat) (free : ended ∉ levelsBehind token.kind here) :
      (level ending (token :: rest) here).Follows (level ending' (token' :: rest') here) :=
    follows_cons (kind.trans kind'.symm) fun depth member =>
      follows depth fun isEnded => free (isEnded ▸ member)
  rw [kind] at elsewhere
  rcases ended with _ | _ | ended
  · refine ⟨0, name :: path, Nat.zero_le _, ?_, ?_, ?_⟩
    · rw [namesEq]
      simp
    · simp only [level, kind, kind']
      change Edited change (Tag.name ⟨name, attributes, token.position⟩ :: path) _ _
      exact .inside edited (follows 1 (by omega))
    · intro depth other
      obtain ⟨outer, rfl⟩ := Nat.exists_eq_succ_of_ne_zero other
      exact elsewhere _ (mt List.mem_singleton.1 (by omega))
  · refine ⟨0, path, Nat.zero_le _, namesEq, ?_, ?_⟩
    · simp only [level, kind, kind']
      exact .after (follows 0 (by omega)) edited
    · intro depth other
      obtain ⟨outer, rfl⟩ := Nat.exists_eq_succ_of_ne_zero other
      exact elsewhere _ (mt List.mem_singleton.1 (by omega))
  · refine ⟨ended + 1, path, Nat.le_of_succ_le_succ bound, namesEq, ?_, ?_⟩
    · simp only [level, kind, kind']
      exact edited
    · intro depth other
      cases depth with
      | zero => exact elsewhere 0 (by simp [levelsBehind])
      | succ depth => exact elsewhere _ (mt List.mem_singleton.1 (by omega))

theorem ChangedAt.step {opened' : List String} (same : token.kind = token'.kind)
    (step : openAfter opened token = some opened')
    (changed : ChangedAt change ending ending' rest rest' opened' names) :
    ChangedAt change ending ending' (token :: rest) (token' :: rest') opened names := by
  cases kind : token.kind with
  | text content =>
      simp only [openAfter, kind, Option.some.injEq] at step
      rw [← step] at changed
      exact changed.text kind (same ▸ kind)
  | closing name =>
      cases opened with
      | nil => simp [openAfter, kind] at step
      | cons expected outer =>
          rw [(openAfter_of_closing kind step).2] at changed
          exact changed.closing kind (same ▸ kind)
  | opening name attributes =>
      simp only [openAfter, kind, Option.some.injEq] at step
      rw [← step] at changed
      exact changed.opening kind (same ▸ kind)

end Steps

/-- A change behind tokens changes the content at the one level at which the change stands. -/
private theorem changedAt_append {change : Content → Content → Prop} {later later' : List Token}
    (changed : change (level ending later 0) (level ending' later' 0))
    (rest : ∀ depth, (level ending later (depth + 1)).Follows (level ending' later' (depth + 1)))
    {tokens tokens' : List Token} (kinds : tokens.map (·.kind) = tokens'.map (·.kind))
    {opened names : List String} (run : tokens.foldlM openAfter opened = some names) :
    ChangedAt change ending ending' (tokens ++ later) (tokens' ++ later') opened names := by
  induction tokens generalizing tokens' opened with
  | nil =>
      cases run
      rw [List.map_eq_nil_iff.1 kinds.symm]
      refine ⟨0, [], Nat.zero_le _, rfl, .here changed, ?_⟩
      intro depth other
      obtain ⟨outer, rfl⟩ := Nat.exists_eq_succ_of_ne_zero other
      exact rest outer
  | cons token tokens ih =>
      cases tokens' with
      | nil => cases kinds
      | cons token' tokens' =>
          simp only [List.map_cons, List.cons.injEq] at kinds
          rw [List.foldlM_cons] at run
          obtain ⟨opened', step, run⟩ := Option.bind_eq_some_iff.1 run
          exact (ih kinds.2 run).step kinds.1 step

end Content

theorem Document.ofTokens_of_texts (ending : Ending) {preamble rest : List Token} {token : Token}
    (texts : ∀ token ∈ preamble, ∃ content, token.kind = .text content) {name : String}
    {attributes : List (String × String)} (kind : token.kind = .opening name attributes) :
    Document.ofTokens ending (preamble ++ token :: rest) =
      .rooted ⟨name, attributes, token.position⟩ (Content.level ending rest 0) := by
  induction preamble with
  | nil => simp only [List.nil_append, Document.ofTokens, kind, (Content.ofTokens_eq_level _ _).1]
  | cons first preamble ih =>
      obtain ⟨content, firstKind⟩ := texts first List.mem_cons_self
      simp only [List.cons_append, Document.ofTokens, firstKind]
      exact ih fun token member => texts token (List.mem_cons_of_mem _ member)

/-- The tokens up to a place inside the first element of a document, and the names of the elements
that are open there inside that one, outermost first. -/
def StandsInside (tokens : List Token) (path : List String) : Prop :=
  ∃ preamble root inner, tokens = preamble ++ root :: inner ∧
    (∀ token ∈ preamble, ∃ content, token.kind = .text content) ∧
    (∃ name attributes, root.kind = .opening name attributes) ∧
    inner.foldlM openAfter [] = some path.reverse

private theorem foldlM_openAfter_congr {tokens tokens' : List Token}
    (kinds : tokens.map (·.kind) = tokens'.map (·.kind)) (opened : List String) :
    tokens.foldlM openAfter opened = tokens'.foldlM openAfter opened := by
  induction tokens generalizing tokens' opened with
  | nil => rw [List.map_eq_nil_iff.1 kinds.symm]
  | cons token tokens ih =>
      cases tokens' with
      | nil => cases kinds
      | cons token' tokens' =>
          simp only [List.map_cons, List.cons.injEq] at kinds
          have same : openAfter opened token = openAfter opened token' := by
            simp only [openAfter, kinds.1]
          rw [List.foldlM_cons, List.foldlM_cons, same]
          congr 1
          funext opened
          exact ih kinds.2 opened

theorem StandsInside.split {tokens tokens' : List Token} {path : List String}
    (stands : StandsInside tokens path) (kinds : tokens.map (·.kind) = tokens'.map (·.kind)) :
    ∃ preamble root inner preamble' root' inner' name attributes,
      (tokens = preamble ++ root :: inner ∧ tokens' = preamble' ++ root' :: inner') ∧
      ((∀ token ∈ preamble, ∃ content, token.kind = .text content) ∧
        ∀ token ∈ preamble', ∃ content, token.kind = .text content) ∧
      (root.kind = .opening name attributes ∧ root'.kind = .opening name attributes) ∧
      inner.map (·.kind) = inner'.map (·.kind) ∧ inner.foldlM openAfter [] = some path.reverse := by
  obtain ⟨preamble, root, inner, rfl, texts, ⟨name, attributes, rootKind⟩, run⟩ := stands
  rw [List.map_append, List.map_cons] at kinds
  obtain ⟨preamble', rest', rfl, preambleKinds, restKinds⟩ := List.map_eq_append_iff.1 kinds.symm
  obtain ⟨root', inner', rfl, rootKinds, innerKinds⟩ := List.map_eq_cons_iff.1 restKinds
  have texts' : ∀ token ∈ preamble', ∃ content, token.kind = .text content := by
    intro token member
    have kindMember : token.kind ∈ preamble.map (·.kind) :=
      preambleKinds ▸ List.mem_map_of_mem member
    obtain ⟨other, otherMember, same⟩ := List.mem_map.1 kindMember
    rw [← same]
    exact texts other otherMember
  exact ⟨preamble, root, inner, preamble', root', inner', name, attributes, ⟨rfl, rfl⟩,
    ⟨texts, texts'⟩, ⟨rootKind, by rw [rootKinds, rootKind]⟩, innerKinds.symm, run⟩

theorem StandsInside.congr {tokens tokens' : List Token} {path : List String}
    (stands : StandsInside tokens path) (kinds : tokens.map (·.kind) = tokens'.map (·.kind)) :
    StandsInside tokens' path := by
  obtain ⟨_, _, inner, preamble', root', inner', name, attributes, ⟨_, tokensEq⟩, ⟨_, texts⟩,
    ⟨_, rootKind⟩, innerKinds, run⟩ := stands.split kinds
  rw [foldlM_openAfter_congr innerKinds] at run
  exact ⟨preamble', root', inner', tokensEq, texts, ⟨name, attributes, rootKind⟩, run⟩

/-- If two documents differ behind tokens of the same kinds, inside their first elements, then the
contents of these differ at the end of the path there. -/
theorem document_edited {change : Content → Content → Prop} {ending ending' : Ending}
    {tokens tokens' later later' : List Token} {path : List String}
    (stands : StandsInside tokens path) (kinds : tokens.map (·.kind) = tokens'.map (·.kind))
    (changed : change (Content.level ending later 0) (Content.level ending' later' 0))
    (rest : ∀ depth,
      (Content.level ending later (depth + 1)).Follows (Content.level ending' later' (depth + 1))) :
    ∃ (root : Tag) (position' : Position) (inside inside' : Content),
      Document.ofTokens ending (tokens ++ later) = .rooted root inside ∧
      Document.ofTokens ending' (tokens' ++ later') =
        .rooted { root with position := position' } inside' ∧
      Content.Edited change path inside inside' := by
  obtain ⟨preamble, root, inner, preamble', root', inner', name, attributes, ⟨rfl, rfl⟩,
    ⟨texts, texts'⟩, ⟨rootKind, rootKind'⟩, innerKinds, run⟩ := stands.split kinds
  obtain ⟨ended, path', bound, pathEq, edited, _⟩ :=
    Content.changedAt_append changed rest innerKinds run
  rw [List.length_nil, Nat.le_zero_eq] at bound
  rw [bound, List.drop_nil, List.append_nil, List.reverse_inj] at pathEq
  rw [bound] at edited
  rw [pathEq]
  refine ⟨⟨name, attributes, root.position⟩, root'.position, _, _, ?_, ?_, edited⟩
  · rw [List.append_assoc, List.cons_append]
    exact Document.ofTokens_of_texts ending texts rootKind
  · rw [List.append_assoc, List.cons_append]
    exact Document.ofTokens_of_texts ending' texts' rootKind'

end Trellis.Markup
