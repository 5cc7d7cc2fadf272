import Trellis.Proofs.Markup.Rearrangements

/-!
Rows of child elements in a document.

An element that stands in a row, with what comes between it and the one in front, is shown by the
scanner in the same way wherever in the row it stands.  So a document with the elements of a row in
another order has the same child elements there, in that order.
-/

namespace Trellis.Markup

def signed (extended : Bool) (text : String) : Scanner :=
  (text.toList ++ ['<']).foldl Scanner.step (Scanner.ofSource extended [])

/-- What may stand between elements: text, sections of raw text, comments and instructions. -/
structure IsFiller (extended : Bool) (text : String) : Prop where
  mode_eq : (signed extended text).mode = .tag
  opened_eq : (signed extended text).opened = []
  texts : ∀ token ∈ (signed extended text).emitted.reverse, ∃ content, token.kind = .text content

structure RowPart where
  filler : String
  name : String
  element : String

structure RowPart.WellFormed (extended : Bool) (part : RowPart) : Prop where
  filler : IsFiller extended part.filler
  element : IsElement extended part.name part.element

def rowText : List RowPart → String
  | [] => ""
  | part :: row => part.filler ++ part.element ++ rowText row

/-! ### Tokens -/

def rowTokens (extended : Bool) (row : List RowPart) : List Token :=
  row.flatMap fun part =>
    (signed extended part.filler).emitted.reverse ++ (scanned extended part.element).emitted.reverse

namespace Scanner

variable {extended : Bool} {opened : List String} {kinds : List TokenKind} {scanner : Scanner}

theorem Stands.filler {text : String} (isFiller : IsFiller extended text)
    (stands : scanner.Stands extended opened kinds (.text [])) :
    ((text.toList ++ ['<']).foldl step scanner).Stands extended opened
      (kinds ++ (signed extended text).shown) .tag := by
  have alone := stands_ofSource extended []
  have notFailed : ¬ (signed extended text).Failed := by
    rintro ⟨error, failed⟩
    rw [isFiller.mode_eq] at failed
    cases failed
  have framed : Framed opened [] kinds (signed extended text) _ :=
    (alone.framed stands).foldl_step (.inr notFailed)
  have own : (signed extended text).Stands extended [] ([] ++ (signed extended text).shown) .tag :=
    ⟨(Grows.foldl_step _ _).extended_eq, isFiller.opened_eq, rfl, isFiller.mode_eq⟩
  exact framed.stands own

theorem Stands.part {part : RowPart} (wellFormed : part.WellFormed extended)
    (stands : scanner.Stands extended opened kinds (.text [])) :
    ((part.filler ++ part.element).toList.foldl step scanner).Stands extended opened
      (kinds ++ ((signed extended part.filler).shown ++ (scanned extended part.element).shown))
      (.text []) := by
  have behind := wellFormed.element.stands_behind (stands.filler wellFormed.filler)
  obtain ⟨c, rest, elementEq, _⟩ := wellFormed.element.begins
  rw [← List.append_assoc, String.toList_append, List.foldl_append]
  rw [List.foldl_append] at behind
  rw [elementEq] at behind ⊢
  exact behind

theorem Stands.row {row : List RowPart} (wellFormed : ∀ part ∈ row, part.WellFormed extended)
    (stands : scanner.Stands extended opened kinds (.text [])) :
    ((rowText row).toList.foldl step scanner).Stands extended opened
      (kinds ++ (rowTokens extended row).map (·.kind)) (.text []) := by
  induction row generalizing scanner kinds with
  | nil =>
      rw [rowTokens, List.flatMap_nil, List.map_nil, List.append_nil]
      exact stands
  | cons part row ih =>
      have first := stands.part (wellFormed part List.mem_cons_self)
      have behind := ih (fun part member => wellFormed part (List.mem_cons_of_mem _ member)) first
      rw [rowText, String.toList_append, List.foldl_append, rowTokens, List.flatMap_cons,
        List.map_append, List.map_append, ← List.append_assoc]
      exact behind

end Scanner

/-! ### Contents -/

theorem Balanced.append {left right : List Token} (balanced : Balanced left)
    (balanced' : Balanced right) : Balanced (left ++ right) := by
  constructor
  · rw [depth_append, balanced.depth_eq, balanced'.depth_eq]
    rfl
  · rintro first ⟨remaining, split⟩
    rcases List.append_eq_append_iff.1 split with ⟨tail, leftEq, _⟩ | ⟨tail, rfl, rightEq⟩
    · exact balanced.rising first ⟨tail, leftEq.symm⟩
    · rw [depth_append, balanced.depth_eq, Int.zero_add]
      exact balanced'.rising tail ⟨remaining, rightEq.symm⟩

namespace Content

variable {ending : Ending}

private theorem level_rising {tokens : List Token} {outer : Nat}
    (rising : ∀ first, first <+: tokens → 0 ≤ outer + depth first) (more : List Token) :
    ∃ reached : Nat, (reached : Int) = outer + depth tokens ∧
      level ending (tokens ++ more) (outer + 1) = level ending more (reached + 1) := by
  induction tokens generalizing outer with
  | nil => exact ⟨outer, by simp, rfl⟩
  | cons token rest ih =>
      have next (inner : Nat) (innerEq : (inner : Int) = outer + token.rise) :
          ∃ reached : Nat, (reached : Int) = outer + depth (token :: rest) ∧
            level ending (rest ++ more) (inner + 1) = level ending more (reached + 1) := by
        obtain ⟨reached, reachedEq, same⟩ := @ih inner fun first isFirst => by
          have bound := rising (token :: first) (List.cons_prefix_cons.2 ⟨rfl, isFirst⟩)
          rw [depth_cons] at bound
          omega
        refine ⟨reached, ?_, same⟩
        rw [depth_cons]
        omega
      cases kind : token.kind with
      | text content =>
          obtain ⟨reached, reachedEq, same⟩ := next outer (by rw [Token.rise_of_text kind]; omega)
          refine ⟨reached, reachedEq, ?_⟩
          simp only [List.cons_append, level, kind]
          exact same
      | opening name attributes =>
          obtain ⟨reached, reachedEq, same⟩ :=
            next (outer + 1) (by rw [Token.rise_of_opening kind]; omega)
          refine ⟨reached, reachedEq, ?_⟩
          simp only [List.cons_append, level, kind]
          exact same
      | closing name =>
          have bound := rising [token] (List.cons_prefix_cons.2 ⟨rfl, List.nil_prefix⟩)
          rw [depth_cons, depth_nil, Token.rise_of_closing kind] at bound
          obtain ⟨inner, rfl⟩ : ∃ inner, outer = inner + 1 := ⟨outer - 1, by omega⟩
          obtain ⟨reached, reachedEq, same⟩ := next inner (by rw [Token.rise_of_closing kind]; omega)
          refine ⟨reached, reachedEq, ?_⟩
          simp only [List.cons_append, level, kind]
          exact same

private theorem level_balanced {tokens : List Token} (balanced : Balanced tokens) (more : List Token)
    (outer : Nat) : level ending (tokens ++ more) (outer + 1) = level ending more (outer + 1) := by
  obtain ⟨reached, reachedEq, same⟩ := @level_rising ending tokens outer (fun first isFirst => by
    have bound := balanced.rising first isFirst
    omega) more
  rw [balanced.depth_eq, Int.add_zero, Int.natCast_inj] at reachedEq
  rw [same, reachedEq]

/-- In front of others, the tokens are these child elements with texts between them. -/
structure Adds (tokens : List Token) (children : List Child) (words : List String) : Prop where
  balanced : Balanced tokens
  children_eq : ∀ ending more, (level ending (tokens ++ more) 0).children =
    children ++ (level ending more 0).children
  words_eq : ∀ ending more, (level ending (tokens ++ more) 0).words =
    words ++ (level ending more 0).words
  break?_eq : ∀ ending more, (level ending (tokens ++ more) 0).break? =
    (level ending more 0).break?

theorem Adds.nil : Adds [] [] [] :=
  ⟨.nil, fun _ _ => rfl, fun _ _ => rfl, fun _ _ => rfl⟩

theorem Adds.append {tokens tokens' : List Token} {children children' : List Child}
    {words words' : List String} (adds : Adds tokens children words)
    (adds' : Adds tokens' children' words') :
    Adds (tokens ++ tokens') (children ++ children') (words ++ words') where
  balanced := adds.balanced.append adds'.balanced
  children_eq ending more := by
    rw [List.append_assoc, adds.children_eq, adds'.children_eq, List.append_assoc]
  words_eq ending more := by
    rw [List.append_assoc, adds.words_eq, adds'.words_eq, List.append_assoc]
  break?_eq ending more := by
    rw [List.append_assoc, adds.break?_eq, adds'.break?_eq]

theorem Adds.text {token : Token} {content : String} (kind : token.kind = .text content) :
    Adds [token] [] [content] where
  balanced := .text (Token.rise_of_text kind) .nil
  children_eq ending more := by simp only [List.singleton_append, level, kind, children, List.nil_append]
  words_eq ending more := by simp only [List.singleton_append, level, kind, words]
  break?_eq ending more := by simp only [List.singleton_append, level, kind, break?]

theorem Adds.element {opening closing : Token} {inner : List Token} {name closingName : String}
    {attributes : List (String × String)} (kind : opening.kind = .opening name attributes)
    (balanced : Balanced inner) (closingKind : closing.kind = .closing closingName) :
    ∃ child : Child, child.tag.name = name ∧ Adds (opening :: inner ++ [closing]) [child] [] := by
  obtain ⟨inside, _, gives⟩ := level_element kind balanced closingKind
  have levelEq (ending : Ending) (more : List Token) :
      level ending (opening :: inner ++ [closing] ++ more) 0 =
        .element ⟨name, attributes, opening.position⟩ inside (level ending more 0) := by
    rw [← (gives ending more).1]
    simp
  refine ⟨⟨⟨name, attributes, opening.position⟩, inside⟩, rfl, ?_, ?_, ?_, ?_⟩
  · exact .element (Token.rise_of_opening kind) (Token.rise_of_closing closingKind) balanced .nil
  · intro ending more
    rw [levelEq]
    rfl
  · intro ending more
    rw [levelEq]
    rfl
  · intro ending more
    rw [levelEq]
    rfl

private theorem changesHere_rearranges {κ : Type} [DecidableEq κ] {key? : String → Option κ}
    {tokens tokens' row row' more more' : List Token} {children children' : List Child}
    {words words' : List String} (adds : Adds tokens children words)
    (adds' : Adds tokens' children' words')
    (permutes : Permutes (fun child => key? child.tag.name) children children')
    (blank : (∀ word ∈ words, Text.isBlankText word = true) →
      ∀ word ∈ words', Text.isBlankText word = true)
    (rowKinds : row.map (·.kind) = tokens.map (·.kind))
    (rowKinds' : row'.map (·.kind) = tokens'.map (·.kind))
    (kinds : more.map (·.kind) = more'.map (·.kind)) :
    ChangesHere (Rearranges key?) (row ++ more) (row' ++ more') := by
  intro ending ending'
  have kindsEq {left left' right right' : List Token} (same : left.map (·.kind) = left'.map (·.kind))
      (same' : right.map (·.kind) = right'.map (·.kind)) :
      (left ++ right).map (·.kind) = (left' ++ right').map (·.kind) := by
    rw [List.map_append, List.map_append, same, same']
  have first : (level ending (row ++ more) 0).Resembles (level ending (tokens ++ more) 0) :=
    (level_follows (kindsEq rowKinds rfl ▸ List.prefix_refl _) 0).resembles
  have last : (level ending (tokens' ++ more) 0).Resembles (level ending' (row' ++ more') 0) :=
    (level_follows (kindsEq rowKinds'.symm kinds ▸ List.prefix_refl _) 0).resembles
  constructor
  · cases breakEq : (level ending (row ++ more) 0).break? with
    | some reason => exact .broken breakEq _
    | none =>
        have complete := first.break?_eq_none breakEq
        have complete' : (level ending (tokens' ++ more) 0).break? = none := by
          rw [adds'.break?_eq, ← adds.break?_eq]
          exact complete
        have before := first.children breakEq
        have after := last.children complete'
        rw [adds.children_eq] at before
        rw [adds'.children_eq] at after
        refine .children (last.break?_eq_none complete') before (permutes.append_right _) after ?_
        intro blankFirst
        have blankHere := first.blank breakEq blankFirst
        rw [adds.words_eq, List.forall_mem_append] at blankHere
        apply last.blank complete'
        rw [adds'.words_eq, List.forall_mem_append]
        exact ⟨blank blankHere.1, blankHere.2⟩
  · intro depth
    rw [level_balanced (adds.balanced.congr rowKinds.symm),
      level_balanced (adds'.balanced.congr rowKinds'.symm)]
    exact level_follows (kinds ▸ List.prefix_refl _) (depth + 1)

private theorem adds_row {extended : Bool} {row : List RowPart} {child : RowPart → Child}
    {words : String → List String}
    (fillers : ∀ part ∈ row, Adds (signed extended part.filler).emitted.reverse [] (words part.filler))
    (elements : ∀ part ∈ row, Adds (scanned extended part.element).emitted.reverse [child part] []) :
    Adds (rowTokens extended row) (row.map child) (row.flatMap fun part => words part.filler) := by
  induction row with
  | nil => exact .nil
  | cons part row ih =>
      have behind := ih (fun part member => fillers part (List.mem_cons_of_mem _ member))
        fun part member => elements part (List.mem_cons_of_mem _ member)
      have here := (fillers part List.mem_cons_self).append (elements part List.mem_cons_self)
      rw [List.append_nil] at here
      exact here.append behind

end Content

theorem IsFiller.adds {extended : Bool} {text : String} (isFiller : IsFiller extended text) :
    ∃ words, Content.Adds (signed extended text).emitted.reverse [] words := by
  have texts := isFiller.texts
  generalize (signed extended text).emitted.reverse = tokens at texts
  induction tokens with
  | nil => exact ⟨[], .nil⟩
  | cons token tokens ih =>
      obtain ⟨content, kind⟩ := texts token List.mem_cons_self
      obtain ⟨words, adds⟩ := ih fun token member => texts token (List.mem_cons_of_mem _ member)
      exact ⟨content :: words, (Content.Adds.text kind).append adds⟩

theorem IsElement.adds {extended : Bool} {name text : String} (isElement : IsElement extended name text) :
    ∃ child : Child, child.tag.name = name ∧
      Content.Adds (scanned extended text).emitted.reverse [child] [] := by
  obtain ⟨opening, inner, closing, attributes, tokensEq, openingKind, balanced, closingKind⟩ :=
    isElement.tokens
  rw [tokensEq]
  exact Content.Adds.element openingKind balanced closingKind

/-! ### Documents -/

def RowPart.named (part : RowPart) : String × String :=
  (part.name, part.element)

/-- The second row has the fillers of the first one and, in another order, its elements; those with one
key follow one another as before. -/
structure RowsPermute {κ : Type} [DecidableEq κ] (key? : String → Option κ)
    (row row' : List RowPart) : Prop where
  fillers : (row.map (·.filler)).Perm (row'.map (·.filler))
  elements : Permutes (fun named => key? named.1) (row.map RowPart.named) (row'.map RowPart.named)

section Documents

variable {κ : Type} [DecidableEq κ] {key? : String → Option κ} {extended : Bool} {row row' : List RowPart}

theorem RowsPermute.wellFormed (permute : RowsPermute key? row row')
    (wellFormed : ∀ part ∈ row, part.WellFormed extended) :
    ∀ part ∈ row', part.WellFormed extended := by
  intro part member
  constructor
  · obtain ⟨first, isFirst, fillerEq⟩ :=
      List.mem_map.1 (permute.fillers.mem_iff.2 (List.mem_map_of_mem member))
    rw [← fillerEq]
    exact (wellFormed first isFirst).filler
  · obtain ⟨first, isFirst, namedEq⟩ :=
      List.mem_map.1 (permute.elements.perm.mem_iff.2 (List.mem_map_of_mem member))
    obtain ⟨nameEq, elementEq⟩ := Prod.mk.inj namedEq
    rw [← nameEq, ← elementEq]
    exact (wellFormed first isFirst).element

/-- Behind the place, each document shows its row, and then both show the same. -/
theorem Gap.tokenize_rows {lead : String} {path : List String} (gap : Gap extended lead "" path)
    (wellFormed : ∀ part ∈ row, part.WellFormed extended)
    (wellFormed' : ∀ part ∈ row', part.WellFormed extended) {document document' after : String}
    (documentEq : document = lead ++ rowText row ++ after)
    (documentEq' : document' = lead ++ rowText row' ++ after) :
    ∃ shown shown' more more',
      (tokenize extended document).tokens =
        (arrive extended document.toList lead []).emitted.reverse ++ (shown ++ more) ∧
      (tokenize extended document').tokens =
        (arrive extended document'.toList lead []).emitted.reverse ++ (shown' ++ more') ∧
      shown.map (·.kind) = (rowTokens extended row).map (·.kind) ∧
      shown'.map (·.kind) = (rowTokens extended row').map (·.kind) ∧
      more.map (·.kind) = more'.map (·.kind) := by
  have noSign : ∀ c ∈ ([] : List Char), c ≠ '<' := nofun
  have arrives (document : String) := gap.arrive_stands document.toList noSign
  have behind := (arrives document).row wellFormed
  have behind' := (arrives document').row wellFormed'
  rw [← List.append_nil (scanned extended lead).opened] at behind'
  have framed : Scanner.Framed [] _ _ (after.toList.foldl Scanner.step _)
      (after.toList.foldl Scanner.step _) := (behind.framed behind').foldl_step (.inl rfl)
  obtain ⟨kinds, kindsEq, kindsEq'⟩ := framed.finish
  have split {row : List RowPart} {document : String} (documentEq : document = lead ++ rowText row ++ after)
      (kindsEq : (after.toList.foldl Scanner.step ((rowText row).toList.foldl Scanner.step
        (arrive extended document.toList lead []))).finish.tokens.map (·.kind) =
          (scanned extended lead).shown ++ (rowTokens extended row).map (·.kind) ++ kinds) :
      ∃ shown more, (tokenize extended document).tokens =
          (arrive extended document.toList lead []).emitted.reverse ++ (shown ++ more) ∧
        shown.map (·.kind) = (rowTokens extended row).map (·.kind) ∧ more.map (·.kind) = kinds := by
    have halves : document.toList = lead.toList ++ [] ++ (rowText row ++ after).toList := by
      rw [documentEq, String.append_assoc, String.toList_append, List.append_nil]
    have tokensEq := gap.tokenize_eq halves
    obtain ⟨later, laterEq⟩ := Scanner.finish_tokens_eq (arrive extended document.toList lead [])
      (rowText row ++ after).toList
    rw [String.toList_append, List.foldl_append] at laterEq tokensEq
    rw [laterEq, List.map_append, ← Scanner.shown, (arrives document).shown_eq, List.append_assoc,
      List.append_cancel_left_eq] at kindsEq
    obtain ⟨shown, more, rfl, shownKinds, moreKinds⟩ := List.map_eq_append_iff.1 kindsEq
    exact ⟨shown, more, tokensEq.trans laterEq, shownKinds, moreKinds⟩
  obtain ⟨shown, more, tokensEq, shownKinds, moreKinds⟩ := split documentEq kindsEq
  obtain ⟨shown', more', tokensEq', shownKinds', moreKinds'⟩ := split documentEq' kindsEq'
  exact ⟨shown, shown', more, more', tokensEq, tokensEq', shownKinds, shownKinds',
    moreKinds.trans moreKinds'.symm⟩

theorem Gap.parse_row {lead : String} {path : List String} (gap : Gap extended lead "" path)
    (wellFormed : ∀ part ∈ row, part.WellFormed extended) (permute : RowsPermute key? row row')
    (after : String) :
    (Document.parse extended (lead ++ rowText row ++ after)).Edited (Content.Rearranges key?) path
      (Document.parse extended (lead ++ rowText row' ++ after)) := by
  have wellFormed' := permute.wellFormed wellFormed
  have someChild : Nonempty Child := ⟨⟨⟨"", [], ⟨1, 1⟩⟩, .closed defaultEncoding⟩⟩
  have elements (named : String × String) (isElement : IsElement extended named.1 named.2) :=
    isElement.adds
  have fillers (text : String) (isFiller : IsFiller extended text) := isFiller.adds
  choose! child childName childAdds using elements
  choose! words wordsAdds using fillers
  have addsRow {row : List RowPart} (wellFormed : ∀ part ∈ row, part.WellFormed extended) :
      Content.Adds (rowTokens extended row) ((row.map RowPart.named).map child)
        ((row.map (·.filler)).flatMap words) := by
    rw [List.map_map, List.flatMap_map]
    exact Content.adds_row (fun part member => wordsAdds _ (wellFormed part member).filler)
      fun part member => childAdds part.named (wellFormed part member).element
  have permutes : Permutes (fun child : Child => key? child.tag.name)
      ((row.map RowPart.named).map child) ((row'.map RowPart.named).map child) := by
    apply permute.elements.map
    intro named member
    obtain ⟨part, isPart, rfl⟩ := List.mem_map.1 member
    rw [childName part.named (wellFormed part isPart).element]
  have blank (blankWords : ∀ word ∈ (row.map (·.filler)).flatMap words, Text.isBlankText word = true) :
      ∀ word ∈ (row'.map (·.filler)).flatMap words, Text.isBlankText word = true :=
    fun word member => blankWords word ((permute.fillers.flatMap_right words).mem_iff.2 member)
  obtain ⟨shown, shown', more, more', tokensEq, tokensEq', shownKinds, shownKinds', moreKinds⟩ :=
    gap.tokenize_rows wellFormed wellFormed' rfl rfl
  have noSign : ∀ c ∈ ([] : List Char), c ≠ '<' := nofun
  obtain ⟨root, position', inside, inside', parsed, parsed', edited⟩ :=
    gap.parse_edited noSign noSign tokensEq tokensEq' (Content.changesHere_rearranges (addsRow wellFormed)
      (addsRow wellFormed') permutes blank shownKinds shownKinds' moreKinds)
  rw [parsed, parsed']
  exact .rooted edited

end Documents

end Trellis.Markup
