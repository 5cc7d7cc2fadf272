import Trellis.Markup.Token
import Trellis.Markup.Reference
import Trellis.Markup.Attribute
import Trellis.Text.CodePoints

/-!
Rows of elements, and how they are written.

An element has attributes, a text, and elements after the text.  Names are names of XML, so no
character that delimits markup is in them.  In texts and in the values of attributes the five
reserved characters are written as references, and decoding gives the text back.
-/

namespace Trellis.Markup

open Text (utf8Length)

/-! ### Names -/

def nameStarts : Text.Ranges :=
  [(0x3A, 0x3A), (0x41, 0x5A), (0x5F, 0x5F), (0x61, 0x7A), (0xC0, 0xD6), (0xD8, 0xF6), (0xF8, 0x2FF),
   (0x370, 0x37D), (0x37F, 0x1FFF), (0x200C, 0x200D), (0x2070, 0x218F), (0x2C00, 0x2FEF),
   (0x3001, 0xD7FF), (0xF900, 0xFDCF), (0xFDF0, 0xFFFD), (0x10000, 0xEFFFF)]

def nameCharacters : Text.Ranges :=
  nameStarts ++
    [(0x2D, 0x2E), (0x30, 0x39), (0xB7, 0xB7), (0x300, 0x36F), (0x203F, 0x2040)]

def isName (text : String) : Bool :=
  match text.toList with
  | [] => false
  | c :: rest => nameStarts.has c && rest.all nameCharacters.has

def delimiters : List Char :=
  [' ', '\t', '\n', '\r', '<', '>', '/', '=', '"', '\'', '?', '!']

structure IsWord (chars : List Char) : Prop where
  filled : chars ≠ []
  plain : ∀ c ∈ chars, c ∉ delimiters

private theorem any_nameCharacters_delimiters : delimiters.any nameCharacters.has = false := by
  decide +kernel

private theorem any_nameStarts_delimiters : delimiters.any nameStarts.has = false := by
  decide +kernel

theorem isWord_of_isName {name : String} (named : isName name = true) : IsWord name.toList := by
  unfold isName at named
  cases charsEq : name.toList with
  | nil =>
      rw [charsEq] at named
      cases named
  | cons first rest =>
      rw [charsEq] at named
      simp only [Bool.and_eq_true, List.all_eq_true] at named
      obtain ⟨starts, follow⟩ := named
      constructor
      · exact List.cons_ne_nil first rest
      · intro c member delimits
        rcases List.mem_cons.1 member with here | later
        · rw [here] at delimits
          exact List.any_eq_false.1 any_nameStarts_delimiters first delimits starts
        · exact List.any_eq_false.1 any_nameCharacters_delimiters c delimits (follow c later)

theorem IsWord.ne {chars : List Char} (word : IsWord chars) {c delimiter : Char}
    (member : c ∈ chars) (delimits : delimiter ∈ delimiters) : c ≠ delimiter := by
  intro same
  rw [same] at member
  exact word.plain delimiter member delimits

theorem IsWord.not_isTagBlank {chars : List Char} (word : IsWord chars) {c : Char}
    (member : c ∈ chars) :
    isTagBlank c = false := by
  have space : c ≠ ' ' := word.ne member (by decide)
  have tab : c ≠ '\t' := word.ne member (by decide)
  have newline : c ≠ '\n' := word.ne member (by decide)
  have carriage : c ≠ '\r' := word.ne member (by decide)
  simp [isTagBlank, space, tab, newline, carriage]

/-! ### Reserved characters -/

def referenceName? : Char → Option (List Char)
  | '<' => some ['l', 't']
  | '>' => some ['g', 't']
  | '\'' => some ['a', 'p', 'o', 's']
  | '&' => some ['a', 'm', 'p']
  | '"' => some ['q', 'u', 'o', 't']
  | _ => none

def escapeChar (c : Char) : List Char :=
  match referenceName? c with
  | some name => '&' :: name ++ [';']
  | none => [c]

def escape (text : List Char) : List Char :=
  text.flatMap escapeChar

private theorem namedText?_of_referenceName? {c : Char} {name : List Char}
    (reserved : referenceName? c = some name) (extended : Bool) :
    namedText? extended (String.ofList name) = some (String.singleton c) := by
  unfold referenceName? at reserved
  split at reserved
  case h_6 => cases reserved
  all_goals
    cases reserved
    cases extended <;> decide +kernel

theorem isLower_of_referenceName? {c : Char} {name : List Char}
    (reserved : referenceName? c = some name) : ∀ d ∈ name, d.isLower = true := by
  have letters : name.all Char.isLower = true := by
    unfold referenceName? at reserved
    split at reserved
    case h_6 => cases reserved
    all_goals
      cases reserved
      decide
  exact List.all_eq_true.1 letters

private theorem not_reserved {c : Char} (free : referenceName? c = none) :
    c ≠ '<' ∧ c ≠ '>' ∧ c ≠ '"' ∧ c ≠ '&' := by
  refine ⟨?_, ?_, ?_, ?_⟩
  all_goals
    intro same
    rw [same] at free
    cases free

private theorem ne_of_isLower {c d : Char} (lower : c.isLower = true) (other : d.isLower = false) :
    c ≠ d := by
  intro same
  rw [same, other] at lower
  cases lower

private theorem mem_escapeChar {c d : Char} (member : d ∈ escapeChar c) :
    d ≠ '<' ∧ d ≠ '>' ∧ d ≠ '"' := by
  unfold escapeChar at member
  cases reserved : referenceName? c with
  | none =>
      rw [reserved] at member
      obtain ⟨noLess, noGreater, noQuote, _⟩ := not_reserved reserved
      rw [List.mem_singleton.1 member]
      exact ⟨noLess, noGreater, noQuote⟩
  | some name =>
      rw [reserved] at member
      rcases List.mem_cons.1 member with rfl | member
      · decide
      · rcases List.mem_append.1 member with inName | last
        · have lower := isLower_of_referenceName? reserved d inName
          exact ⟨ne_of_isLower lower rfl, ne_of_isLower lower rfl, ne_of_isLower lower rfl⟩
        · rw [List.mem_singleton.1 last]
          decide

/-- No tag begins or ends in a written text, and no quoted value ends in it. -/
theorem mem_escape {text : List Char} {d : Char} (member : d ∈ escape text) :
    d ≠ '<' ∧ d ≠ '>' ∧ d ≠ '"' := by
  obtain ⟨c, _, inside⟩ := List.mem_flatMap.1 member
  exact mem_escapeChar inside

private theorem decodeFrom_name (extended : Bool) (length : Nat) (rest : List Char) {name : List Char}
    (plain : ∀ d ∈ name, d ≠ '&' ∧ d ≠ ';') (start offset : Nat) (before : List Char) :
    ∃ later, decodeFrom extended length offset (some ⟨start, before⟩) (name ++ rest) =
      decodeFrom extended length later (some ⟨start, name.reverse ++ before⟩) rest := by
  induction name generalizing before offset with
  | nil => exact ⟨offset, rfl⟩
  | cons d name ih =>
      obtain ⟨noAmpersand, noSemicolon⟩ := plain d List.mem_cons_self
      have plainRest : ∀ e ∈ name, e ≠ '&' ∧ e ≠ ';' := by
        intro e member
        exact plain e (List.mem_cons_of_mem d member)
      obtain ⟨later, goesOn⟩ := ih plainRest (offset + d.utf8Size) (d :: before)
      refine ⟨later, ?_⟩
      rw [List.cons_append, decodeFrom, if_neg noAmpersand, if_neg noSemicolon, goesOn]
      simp only [List.reverse_cons, List.append_assoc, List.singleton_append]

theorem decodeFrom_reference {extended : Bool} {name text : List Char}
    (plain : ∀ d ∈ name, d ≠ '&' ∧ d ≠ ';')
    (expands : ∀ start stop, expand extended start stop name = .ok text) (length offset : Nat)
    (rest : List Char) :
    ∃ later, decodeFrom extended length offset none ('&' :: (name ++ ';' :: rest)) =
      (text ++ ·) <$> decodeFrom extended length later none rest := by
  obtain ⟨stop, goesOn⟩ := decodeFrom_name extended length (';' :: rest) plain offset (offset + 1) []
  refine ⟨stop + 1, ?_⟩
  rw [decodeFrom, if_pos rfl, goesOn, decodeFrom, if_neg (by decide), if_pos rfl]
  simp only [List.append_nil, List.reverse_reverse, expands]
  cases decodeFrom extended length (stop + 1) none rest <;> rfl

private theorem plain_of_referenceName? {c : Char} {name : List Char}
    (reserved : referenceName? c = some name) : ∀ d ∈ name, d ≠ '&' ∧ d ≠ ';' := by
  intro d member
  have lower := isLower_of_referenceName? reserved d member
  exact ⟨ne_of_isLower lower rfl, ne_of_isLower lower rfl⟩

theorem expand_of_referenceName? {c : Char} {name : List Char}
    (reserved : referenceName? c = some name) (extended : Bool) (start stop : Nat) :
    expand extended start stop name = .ok [c] := by
  have letters := isLower_of_referenceName? reserved
  unfold expand
  split
  · exact absurd rfl (ne_of_isLower (letters '#' List.mem_cons_self) rfl)
  · rw [namedText?_of_referenceName? reserved extended]
    simp only [String.toList_singleton]

private theorem decodeFrom_escapeChar (extended : Bool) (c : Char) (length offset : Nat)
    (rest : List Char) :
    ∃ later, decodeFrom extended length offset none (escapeChar c ++ rest) =
      (c :: ·) <$> decodeFrom extended length later none rest := by
  unfold escapeChar
  cases reserved : referenceName? c with
  | none =>
      obtain ⟨_, _, _, noAmpersand⟩ := not_reserved reserved
      refine ⟨offset + c.utf8Size, ?_⟩
      simp only [List.singleton_append]
      rw [decodeFrom, if_neg noAmpersand]
  | some name =>
      obtain ⟨later, goesOn⟩ := decodeFrom_reference (plain_of_referenceName? reserved)
        (expand_of_referenceName? reserved extended) length offset rest
      refine ⟨later, ?_⟩
      simp only [List.cons_append, List.append_assoc, List.nil_append]
      exact goesOn

theorem decode_escape (extended : Bool) (text : String) :
    decode extended (escape text.toList) = .ok text := by
  have decodes (length : Nat) (chars : List Char) (offset : Nat) :
      decodeFrom extended length offset none (escape chars) = .ok chars := by
    induction chars generalizing offset with
    | nil => rfl
    | cons c rest ih =>
        obtain ⟨later, goesOn⟩ := decodeFrom_escapeChar extended c length offset (escape rest)
        change decodeFrom extended length offset none (escapeChar c ++ escape rest) = _
        rw [goesOn, ih later]
        rfl
  unfold decode
  rw [decodes]
  change Except.ok (String.ofList text.toList) = _
  rw [String.ofList_toList]

/-! ### Rows of elements -/

/-- A row of elements, the first one apart from the rest. -/
inductive Body where
  | stop
  | element (name : String) (attributes : List (String × String)) (text : String) (inside rest : Body)
  deriving DecidableEq, Repr

def attributeChars (pair : String × String) : List Char :=
  ' ' :: pair.1.toList ++ '=' :: '"' :: escape pair.2.toList ++ ['"']

def tagChars (name : String) (attributes : List (String × String)) : List Char :=
  name.toList ++ attributes.flatMap attributeChars

namespace Body

def chars : Body → List Char
  | stop => []
  | element name attributes text inside rest =>
      '<' :: tagChars name attributes ++ '>' :: escape text.toList ++ inside.chars ++
        '<' :: '/' :: name.toList ++ '>' :: rest.chars

def WellFormed : Body → Prop
  | stop => True
  | element name attributes _ inside rest =>
      isName name = true ∧ (∀ pair ∈ attributes, isName pair.1 = true) ∧
        (attributes.map Prod.fst).Nodup ∧ inside.WellFormed ∧ rest.WellFormed

def textKinds (text : String) : List TokenKind :=
  if text = "" then [] else [.text text]

def kinds : Body → List TokenKind
  | stop => []
  | element name attributes text inside rest =>
      .opening name attributes :: textKinds text ++ inside.kinds ++ .closing name :: rest.kinds

end Body

end Trellis.Markup
