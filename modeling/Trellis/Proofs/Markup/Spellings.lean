import Mathlib.Data.Nat.Digits.Defs
import Trellis.Proofs.Markup.Formats
import Trellis.Proofs.Writing.Body

/-!
The ways in which a text can be written.

A character stands for itself, unless it is reserved where it stands, or it is written as a reference:
by its name, if it has one, or by its number.  In the content of an element there may be sections of
raw text as well, and comments and instructions anywhere between these.  Whatever way is chosen,
reading the content gives the text back.
-/

namespace Trellis.Markup

open Text (utf8Length)

/-! ### Characters -/

def IsDigit (base : Nat) (c : Char) (digit : Nat) : Prop :=
  digit < base ∧ (c = digit.digitChar ∨ c = digit.digitChar.toUpper)

instance (base : Nat) (c : Char) (digit : Nat) : Decidable (IsDigit base c digit) :=
  inferInstanceAs (Decidable (_ ∧ _))

def IsNumeral (base : Nat) (digits : List Char) (number : Nat) : Prop :=
  ∃ values, List.Forall₂ (IsDigit base) digits values ∧ Nat.ofDigits base values.reverse = number

/-- The characters are a way of writing the one character where some characters are reserved.  A
number is written with no more digits than the largest one has. -/
inductive Spells (reserved : List Char) (c : Char) : List Char → Prop
  | plain (free : c ∉ reserved) : Spells reserved c [c]
  | named {name : List Char} (isName : referenceName? c = some name) :
      Spells reserved c ('&' :: (name ++ [';']))
  | decimal {digits : List Char} (numeral : IsNumeral 10 digits c.toNat) (short : digits.length ≤ 7)
      (notNull : c.toNat ≠ 0) : Spells reserved c ('&' :: ('#' :: digits ++ [';']))
  | hexadecimal {digits : List Char} (numeral : IsNumeral 16 digits c.toNat)
      (short : digits.length ≤ 6) (notNull : c.toNat ≠ 0) :
      Spells reserved c ('&' :: ('#' :: 'x' :: digits ++ [';']))

inductive SpellsText (reserved : List Char) : List Char → List Char → Prop
  | nil : SpellsText reserved [] []
  | cons {c : Char} {written text more : List Char} (first : Spells reserved c written)
      (rest : SpellsText reserved text more) : SpellsText reserved (c :: text) (written ++ more)

/-! ### Numbers -/

theorem IsDigit.lt {base : Nat} {c : Char} {digit : Nat} (isDigit : IsDigit base c digit) :
    digit < base :=
  isDigit.1

theorem IsDigit.mono {base base' : Nat} (le : base ≤ base') {c : Char} {digit : Nat}
    (isDigit : IsDigit base c digit) : IsDigit base' c digit :=
  ⟨Nat.lt_of_lt_of_le isDigit.1 le, isDigit.2⟩

private theorem isDigit_hexadecimal {c : Char} {digit : Nat} (isDigit : IsDigit 16 c digit) :
    hexDigit? c = some digit ∧ c.utf8Size = 1 ∧ c ∉ ['&', ';', '<', '"', '\'', 'x'] := by
  have all : ∀ digit < 16, [digit.digitChar, digit.digitChar.toUpper].all fun c =>
      hexDigit? c = some digit ∧ c.utf8Size = 1 ∧ c ∉ ['&', ';', '<', '"', '\'', 'x'] := by
    decide
  refine of_decide_eq_true (List.all_eq_true.1 (all digit isDigit.lt) c ?_)
  rw [List.mem_cons, List.mem_singleton]
  exact isDigit.2

private theorem decimalDigit?_of_isDigit {c : Char} {digit : Nat} (isDigit : IsDigit 10 c digit) :
    decimalDigit? c = some digit := by
  have all : ∀ digit < 10, [digit.digitChar, digit.digitChar.toUpper].all fun c =>
      decimalDigit? c = some digit := by
    decide
  refine of_decide_eq_true (List.all_eq_true.1 (all digit isDigit.lt) c ?_)
  rw [List.mem_cons, List.mem_singleton]
  exact isDigit.2

private theorem readDigits_eq_ok {base : Nat} {digit? : Char → Option Nat}
    (reads : ∀ c digit, IsDigit base c digit → digit? c = some digit) {digits : List Char}
    {values : List Nat} (areDigits : List.Forall₂ (IsDigit base) digits values) (number : Nat) :
    readDigits base digit? number digits =
      .ok (values.foldl (fun number digit => number * base + digit) number) := by
  induction areDigits generalizing number with
  | nil => rfl
  | cons isDigit _ ih =>
      simp only [readDigits, reads _ _ isDigit, List.foldl_cons]
      exact ih _

theorem foldl_eq_ofDigits (base : Nat) (values : List Nat) :
    values.foldl (fun number digit => number * base + digit) 0 = Nat.ofDigits base values.reverse := by
  rw [Nat.ofDigits_eq_foldr, List.foldr_reverse]
  congr 1
  funext number digit
  rw [Nat.cast_id, Nat.mul_comm, Nat.add_comm]

theorem IsNumeral.ascii {base : Nat} (small : base ≤ 16) {digits : List Char} {number : Nat}
    (numeral : IsNumeral base digits number) :
    utf8Length digits = digits.length ∧ ∀ c ∈ digits, c ∉ ['&', ';', '<', '"', '\'', 'x'] := by
  obtain ⟨values, areDigits, -⟩ := numeral
  induction areDigits with
  | nil => exact ⟨rfl, nofun⟩
  | cons isDigit _ ih =>
      obtain ⟨_, size, noSign⟩ := isDigit_hexadecimal (isDigit.mono small)
      obtain ⟨lengthEq, noSigns⟩ := ih
      constructor
      · rw [Text.utf8Length_cons, size, lengthEq, List.length_cons, Nat.add_comm]
      · exact List.forall_mem_cons.2 ⟨noSign, noSigns⟩

theorem IsNumeral.readDigits_eq {base : Nat} {digit? : Char → Option Nat}
    (reads : ∀ c digit, IsDigit base c digit → digit? c = some digit) {digits : List Char}
    {number : Nat} (numeral : IsNumeral base digits number) :
    readDigits base digit? 0 digits = .ok number := by
  obtain ⟨values, areDigits, rfl⟩ := numeral
  rw [readDigits_eq_ok reads areDigits, foldl_eq_ofDigits]

private theorem readCode_decimal {digits : List Char} {code : Nat} (numeral : IsNumeral 10 digits code)
    (short : digits.length ≤ 7) : readCode digits = .ok code := by
  obtain ⟨lengthEq, noSigns⟩ := numeral.ascii (by decide)
  unfold readCode
  split
  · exact absurd (List.mem_cons_of_mem _ (by decide)) (noSigns 'x' List.mem_cons_self)
  · rw [lengthEq, if_neg (by omega), numeral.readDigits_eq fun _ _ => decimalDigit?_of_isDigit]
    rfl

private theorem readCode_hexadecimal {digits : List Char} {code : Nat}
    (numeral : IsNumeral 16 digits code)
    (short : digits.length ≤ 6) : readCode ('x' :: digits) = .ok code := by
  have lengthEq := (numeral.ascii (by decide)).1
  have reads : ∀ c digit, IsDigit 16 c digit → hexDigit? c = some digit := by
    intro c digit isDigit
    exact (isDigit_hexadecimal isDigit).1
  simp only [readCode]
  rw [lengthEq, if_neg (by omega), numeral.readDigits_eq reads]
  rfl

private theorem charOfCode_toNat {c : Char} (notNull : c.toNat ≠ 0) (start stop : Nat) :
    charOfCode start stop c.toNat = .ok c := by
  have valid : c.toNat.isValidChar := c.valid
  rw [charOfCode, if_neg notNull, if_pos valid, Char.ofNat_toNat]

/-! ### Reading a written text -/

/-- What stands between the signs of a reference that stands for a character. -/
structure Refers (c : Char) (name : List Char) : Prop where
  plain : ∀ d ∈ name, d ∉ ['&', ';', '<', '"', '\'']
  expands : ∀ extended start stop, expand extended start stop name = .ok [c]

private theorem refers_of_referenceName? {c : Char} {name : List Char}
    (isName : referenceName? c = some name) :
    Refers c name where
  plain := by
    intro d member isSign
    have lower := isLower_of_referenceName? isName d member
    have none : ['&', ';', '<', '"', '\''].all fun sign => !sign.isLower := by decide
    have notLower := List.all_eq_true.1 none d isSign
    rw [lower] at notLower
    cases notLower
  expands := fun extended => expand_of_referenceName? isName extended

private theorem refers_of_code {c : Char} {digits : List Char} (codeEq : readCode digits = .ok c.toNat)
    (noSigns : ∀ d ∈ digits, d ∉ ['&', ';', '<', '"', '\'']) (notNull : c.toNat ≠ 0) :
    Refers c ('#' :: digits) where
  plain := List.forall_mem_cons.2 ⟨by decide, noSigns⟩
  expands := by
    intro extended start stop
    simp only [expand, codeEq, bind, Except.bind, charOfCode_toNat notNull]
    rfl

theorem Spells.cases {reserved : List Char} {c : Char} {written : List Char}
    (spells : Spells reserved c written) :
    (written = [c] ∧ c ∉ reserved) ∨ ∃ name, written = '&' :: (name ++ [';']) ∧ Refers c name := by
  have fewer {d : Char} (noSign : d ∉ ['&', ';', '<', '"', '\'', 'x']) :
      d ∉ ['&', ';', '<', '"', '\''] := by
    simp only [List.mem_cons, List.not_mem_nil, or_false, not_or] at noSign ⊢
    exact ⟨noSign.1, noSign.2.1, noSign.2.2.1, noSign.2.2.2.1, noSign.2.2.2.2.1⟩
  cases spells with
  | plain free => exact .inl ⟨rfl, free⟩
  | named isName => exact .inr ⟨_, rfl, refers_of_referenceName? isName⟩
  | decimal numeral short notNull =>
      have noSigns := (numeral.ascii (by decide)).2
      exact .inr ⟨_, rfl, refers_of_code (readCode_decimal numeral short)
        (fun d member => fewer (noSigns d member)) notNull⟩
  | hexadecimal numeral short notNull =>
      have noSigns := (numeral.ascii (by decide)).2
      exact .inr ⟨_, rfl, refers_of_code (readCode_hexadecimal numeral short)
        (List.forall_mem_cons.2 ⟨by decide, fun d member => fewer (noSigns d member)⟩) notNull⟩

theorem Spells.decode_eq {reserved : List Char} (isReserved : '&' ∈ reserved) {c : Char}
    {written : List Char} (spells : Spells reserved c written) (extended : Bool) :
    decode extended written = .ok (String.singleton c) := by
  rw [@decode_eq_ok_iff extended written (String.singleton c) 0 0, String.toList_singleton]
  rcases spells.cases with ⟨rfl, free⟩ | ⟨name, rfl, refers⟩
  · have noAmpersand : c ≠ '&' := by
      rintro rfl
      exact free isReserved
    rw [decodeFrom, if_neg noAmpersand]
    rfl
  · have plain : ∀ d ∈ name, d ≠ '&' ∧ d ≠ ';' := by
      intro d member
      have noSign := refers.plain d member
      simp only [List.mem_cons, not_or] at noSign
      exact ⟨noSign.1, noSign.2.1⟩
    obtain ⟨later, decoded⟩ := decodeFrom_reference plain (refers.expands extended) 0 0 []
    rw [decoded]
    rfl

/-- No reserved sign of markup stands in a written character. -/
theorem Spells.ne {reserved : List Char} {c : Char} {written : List Char}
    (spells : Spells reserved c written) {sign d : Char} (isReserved : sign ∈ reserved)
    (isSign : sign ∈ ['<', '"', '\'']) (member : d ∈ written) : d ≠ sign := by
  rintro rfl
  rcases spells.cases with ⟨rfl, free⟩ | ⟨name, rfl, refers⟩
  · rw [List.mem_singleton.1 member] at isReserved
    exact free isReserved
  · have noDelimiter : d ≠ '&' ∧ d ≠ ';' := by
      simp only [List.mem_cons, List.not_mem_nil, or_false] at isSign
      rcases isSign with rfl | rfl | rfl <;> decide
    rcases List.mem_cons.1 member with isAmpersand | member
    · exact noDelimiter.1 isAmpersand
    · rcases List.mem_append.1 member with inName | isSemicolon
      · exact refers.plain d inName (List.mem_cons_of_mem _ (List.mem_cons_of_mem _ isSign))
      · exact noDelimiter.2 (List.mem_singleton.1 isSemicolon)

theorem SpellsText.decode_eq {reserved : List Char} (isReserved : '&' ∈ reserved)
    {text written : List Char} (spells : SpellsText reserved text written) (extended : Bool) :
    decode extended written = .ok (String.ofList text) := by
  induction spells with
  | nil => rfl
  | cons first _ ih =>
      rw [decode_append (first.decode_eq isReserved extended) ih, String.ofList_cons]

theorem SpellsText.ne {reserved : List Char} {text written : List Char}
    (spells : SpellsText reserved text written) {sign d : Char} (isReserved : sign ∈ reserved)
    (isSign : sign ∈ ['<', '"', '\'']) (member : d ∈ written) : d ≠ sign := by
  induction spells with
  | nil => cases member
  | cons first _ ih =>
      rcases List.mem_append.1 member with here | later
      · exact first.ne isReserved isSign here
      · exact ih later

/-! ### Contents -/

inductive Writes : List Char → List Char → Prop
  | nil : Writes [] []
  | character {c : Char} {written text more : List Char} (spells : Spells ['&', '<'] c written)
      (rest : Writes text more) : Writes (c :: text) (written ++ more)
  | raw (content : List Char) {text more : List Char} (noEnd : ¬ [']', ']', '>'] <:+: content)
      (rest : Writes text more) :
      Writes (content ++ text) ("<![CDATA[".toList ++ content ++ "]]>".toList ++ more)
  | remark {remark : String} {text more : List Char} (isRemark : IsRemark remark)
      (rest : Writes text more) : Writes text (remark.toList ++ more)

/-- A section of raw text ends with its first two brackets in front of a `>`. -/
private theorem goesOn_cdata {content : List Char} (noEnd : ¬ [']', ']', '>'] <:+: content) :
    Piece.cdata.GoesOn ("[CDATA[".toList ++ (content ++ [']', ']'])) := by
  intro before after split
  rw [Piece.behind_eq fun _ => rfl, Piece.endsAfter, Bool.eq_false_iff]
  intro brackets
  rw [List.isPrefixOf_iff_prefix, ← List.reverse_suffix, List.reverse_reverse] at brackets
  obtain ⟨front, rfl⟩ := brackets
  have noBracket : ']' ∉ "[CDATA[".toList := by decide
  rw [List.append_assoc] at split
  rcases List.append_eq_append_iff.1 split with ⟨inContent, rfl, contentEq⟩ | ⟨tail, signEq, tailEq⟩
  · rw [← List.append_assoc] at contentEq
    exact noEnd (infix_of_ends (by decide) contentEq)
  · cases tail with
    | nil =>
        have contentEq : content ++ [']', ']'] = [] ++ [']', ']'] ++ '>' :: after := tailEq.symm
        exact noEnd (infix_of_ends (by decide) contentEq)
    | cons first tail =>
        have isBracket : first = ']' := (List.cons.inj tailEq).1.symm
        rw [signEq, isBracket] at noBracket
        exact absurd (List.mem_append_right _ List.mem_cons_self) noBracket

theorem join_runText {extended : Bool} {run : List Char} {content : String}
    (decoded : decode extended run = .ok content) :
    String.join (runText run content).toList = content := by
  cases run with
  | nil =>
      cases decoded
      rfl
  | cons c run => rw [runText, List.isEmpty_cons, if_neg Bool.false_ne_true, Option.toList_some,
      String.join_cons, String.join_nil, String.append_empty]

namespace Scanner

variable {scanner : Scanner} {extended : Bool} {opened : List String} {kinds : List TokenKind}

private theorem endCdata_eq (scanner : Scanner) (content : List Char) :
    scanner.endCdata ("[CDATA[".toList ++ (content ++ [']', ']'])) =
      (scanner.emit (.text (String.ofList content)) scanner.start).beginText := by
  have begins : beginsWith "[CDATA[".toList ("[CDATA[".toList ++ (content ++ [']', ']'])) = true := by
    rw [beginsWith, List.isPrefixOf_iff_prefix, List.map_append]
    exact List.prefix_append _ _
  have lengthEq : ("[CDATA[".toList ++ (content ++ [']', ']'])).length - 9 = content.length := by
    simp
  rw [endCdata, if_pos begins, lengthEq]
  simp

theorem Stands.cdata (stands : scanner.Stands extended opened kinds .tag) {content : List Char}
    (noEnd : ¬ [']', ']', '>'] <:+: content) :
    (('!' :: "[CDATA[".toList ++ content ++ "]]>".toList).foldl step scanner).Stands extended opened
      (kinds ++ [.text (String.ofList content)]) (.text []) := by
  have begun : ((scanner.step '!').step '[').Stands extended opened kinds (.inside .cdata ['[']) := by
    have bang : scanner.step '!' =
        { scanner with mode := .bang, offset := scanner.offset + '!'.utf8Size } := by
      simp only [step, stands.mode_eq]
      rfl
    rw [bang]
    exact stands.turn _ _ _
  have split : '!' :: "[CDATA[".toList ++ content ++ "]]>".toList =
      '!' :: '[' :: (("CDATA[".toList ++ (content ++ [']', ']'])) ++ ['>']) := by
    simp
  have goesOn := goesOn_cdata noEnd
  have signEq : "[CDATA[".toList ++ (content ++ [']', ']']) =
      ['['] ++ ("CDATA[".toList ++ (content ++ [']', ']'])) := rfl
  rw [signEq] at goesOn
  have inside := @foldl_goesOn _ .cdata ['['] _ begun.mode_eq goesOn
  have accepts : (Piece.cdata.behind (['['] ++ ("CDATA[".toList ++ (content ++ [']', ']'])))).endsAfter
      (['['] ++ ("CDATA[".toList ++ (content ++ [']', ']']))).reverse = true := by
    rw [Piece.behind_eq fun _ => rfl]
    simp [Piece.endsAfter]
  rw [split, List.foldl_cons, List.foldl_cons, List.foldl_append, inside, List.foldl_cons,
    List.foldl_nil, step_accepts rfl accepts, Piece.behind_eq fun _ => rfl, ← signEq, endPiece,
    endCdata_eq]
  exact ((begun.turn _ _ _).emit _ _).beginText

/-- Behind a content as it is written: the texts shown and the run that has not ended make up what was
pending and the text. -/
theorem Stands.writes {text written : List Char} (writes : Writes text written) (run : List Char)
    {pending : String} (stands : scanner.Stands extended opened kinds (.text run.reverse))
    (decoded : decode extended run = .ok pending) :
    ∃ texts run' last,
      (written.foldl step scanner).Stands extended opened (kinds ++ texts.map .text)
        (.text run'.reverse) ∧
      decode extended run' = .ok last ∧
      String.join texts ++ last = pending ++ String.ofList text := by
  induction writes generalizing scanner kinds run pending with
  | nil =>
      refine ⟨[], run, pending, ?_, decoded, ?_⟩
      · rw [List.map_nil, List.append_nil]
        exact stands
      · rw [String.join_nil, String.ofList_nil, String.empty_append, String.append_empty]
  | @character c written text more spells _ ih =>
      have noSign : ∀ d ∈ written, d ≠ '<' := by
        intro d member
        exact spells.ne (List.mem_cons_of_mem _ List.mem_cons_self) List.mem_cons_self member
      have further := stands.foldl_text noSign
      rw [← List.reverse_append] at further
      have longer := decode_append decoded (spells.decode_eq List.mem_cons_self extended)
      obtain ⟨texts, run', last, behind, lastEq, joinedEq⟩ := ih _ further longer
      refine ⟨texts, run', last, ?_, lastEq, ?_⟩
      · rw [List.foldl_append]
        exact behind
      · rw [joinedEq, String.append_assoc, String.ofList_cons]
  | @raw content text more noEnd _ ih =>
      have none : decode extended [] = .ok "" := rfl
      obtain ⟨texts, run', last, behind, lastEq, joinedEq⟩ :=
        ih [] ((stands.step_sign decoded).cdata noEnd) none
      refine ⟨(runText run pending).toList ++ String.ofList content :: texts, run', last, ?_, lastEq, ?_⟩
      · rw [List.map_append, List.map_cons, ← List.append_assoc, List.append_cons]
        rw [List.foldl_append]
        exact behind
      · rw [String.join_append, join_runText decoded, String.join_cons, String.append_assoc,
          String.append_assoc, joinedEq, String.empty_append, String.ofList_append]
  | @remark remark text more isRemark _ ih =>
      have signed := stands.step_sign decoded
      obtain ⟨remaining, remarkEq, silent⟩ := silent_remark signed.mode_eq isRemark
      have none : decode extended [] = .ok "" := rfl
      obtain ⟨texts, run', last, behind, lastEq, joinedEq⟩ := ih [] (silent.stands signed) none
      refine ⟨(runText run pending).toList ++ texts, run', last, ?_, lastEq, ?_⟩
      · rw [List.map_append, ← List.append_assoc, remarkEq, List.cons_append, List.foldl_cons,
          List.foldl_append]
        exact behind
      · rw [String.join_append, join_runText decoded, String.append_assoc, joinedEq,
          String.empty_append]

end Scanner

end Trellis.Markup
