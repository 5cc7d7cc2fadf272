import Mathlib.Data.List.DropRight
import Trellis.Location.Tracker
import Trellis.Text.Utf8

/-!
Lines and columns without a recount.

A byte of a document is on the line that follows the line ends before it, at the column that follows
the characters since the last of them.  Counting from the beginning for each byte asked for would do,
but a cursor on the bytes goes on from where it stands, and so does a tracker on the characters.
Whatever they are asked for, and in whatever order, both stand where a recount up to the greatest byte
asked for would come to.
-/

namespace Trellis

open Text (utf8Length utf8Length_cons utf8ByteSize_eq)

/-! ### The recount -/

def lineEnd : UInt8 := 10

def continues (byte : UInt8) : Bool :=
  byte &&& 0xC0 == 0x80

def lineEnds (bytes : List UInt8) : Nat :=
  bytes.count lineEnd

def lastColumn (bytes : List UInt8) : Nat :=
  (bytes.rtakeWhile (· ≠ lineEnd)).countP (!continues ·)

def bytesOf (text : String) : List UInt8 :=
  text.toByteArray.data.toList

/-! ### Going on from where one stands -/

/-- A place among the bytes of a document, with the line ends before it and the characters since the
last of them. -/
structure ByteCursor where
  bytes : List UInt8
  offset : Nat
  line : Nat
  column : Nat

namespace ByteCursor

def ofSource (source : String) : ByteCursor :=
  ⟨bytesOf source, 0, 0, 0⟩

def count (cursor : ByteCursor) (byte : UInt8) : ByteCursor :=
  if byte = lineEnd then { cursor with line := cursor.line + 1, column := 0 }
  else if continues byte then cursor
  else { cursor with column := cursor.column + 1 }

def seek (cursor : ByteCursor) (target : Nat) : ByteCursor :=
  let target := min target cursor.bytes.length
  if target ≤ cursor.offset then cursor
  else
    let ahead := (cursor.bytes.drop cursor.offset).take (target - cursor.offset)
    { ahead.foldl count cursor with offset := target }

/-- The cursor has counted the bytes that have been passed. -/
structure Counted (cursor : ByteCursor) (passed : List UInt8) : Prop where
  line_eq : cursor.line = lineEnds passed
  column_eq : cursor.column = lastColumn passed

end ByteCursor

/-! ### One byte more -/

private theorem lineEnds_append (passed bytes : List UInt8) :
    lineEnds (passed ++ bytes) = lineEnds passed + lineEnds bytes :=
  List.count_append

private theorem lastColumn_lineEnd (passed : List UInt8) : lastColumn (passed ++ [lineEnd]) = 0 := by
  rw [lastColumn, List.rtakeWhile_concat_neg _ _ _ (by simp)]
  rfl

private theorem lastColumn_concat {byte : UInt8} (noEnd : byte ≠ lineEnd) (passed : List UInt8) :
    lastColumn (passed ++ [byte]) = lastColumn passed + if continues byte then 0 else 1 := by
  rw [lastColumn, List.rtakeWhile_concat_pos _ _ _ (by simpa using noEnd), List.countP_append,
    List.countP_singleton, lastColumn]
  cases continues byte <;> rfl

namespace ByteCursor

variable {cursor : ByteCursor} {passed : List UInt8}

private theorem bytes_count (cursor : ByteCursor) (byte : UInt8) :
    (cursor.count byte).bytes = cursor.bytes := by
  unfold count
  split
  · rfl
  · split <;> rfl

private theorem bytes_foldl_count (cursor : ByteCursor) (ahead : List UInt8) :
    (ahead.foldl count cursor).bytes = cursor.bytes := by
  induction ahead generalizing cursor with
  | nil => rfl
  | cons byte rest ih => rw [List.foldl_cons, ih, bytes_count]

theorem Counted.count (counted : cursor.Counted passed) (byte : UInt8) :
    (cursor.count byte).Counted (passed ++ [byte]) := by
  obtain ⟨lineEq, columnEq⟩ := counted
  unfold ByteCursor.count
  by_cases isEnd : byte = lineEnd
  · subst isEnd
    rw [if_pos rfl]
    constructor
    · rw [lineEnds_append, ← lineEq]
      rfl
    · rw [lastColumn_lineEnd]
  · have noEnds : lineEnds [byte] = 0 := List.count_eq_zero.2 (by simpa using Ne.symm isEnd)
    rw [if_neg isEnd]
    constructor
    · rw [lineEnds_append, noEnds, ← lineEq]
      split <;> rfl
    · rw [lastColumn_concat isEnd, ← columnEq]
      split <;> rfl

theorem Counted.foldl_count (counted : cursor.Counted passed) (ahead : List UInt8) :
    (ahead.foldl ByteCursor.count cursor).Counted (passed ++ ahead) := by
  induction ahead generalizing cursor passed with
  | nil =>
      rw [List.append_nil]
      exact counted
  | cons byte rest ih =>
      rw [List.append_cons]
      exact ih (counted.count byte)

/-! ### A row of seeks -/

/-- The cursor stands at the offset among the bytes and has counted those before it. -/
structure At (cursor : ByteCursor) (bytes : List UInt8) (offset : Nat) : Prop where
  bytes_eq : cursor.bytes = bytes
  offset_eq : cursor.offset = offset
  counted : cursor.Counted (bytes.take offset)

theorem At.unique {other : ByteCursor} {bytes : List UInt8} {offset : Nat}
    (stands : cursor.At bytes offset) (otherStands : other.At bytes offset) : cursor = other := by
  obtain ⟨bytes, offset, line, column⟩ := cursor
  obtain ⟨rfl, rfl, lineEq, columnEq⟩ := stands
  obtain ⟨bytes', offset', line', column'⟩ := other
  obtain ⟨rfl, rfl, lineEq', columnEq'⟩ := otherStands
  simp only [mk.injEq, true_and]
  exact ⟨lineEq.trans lineEq'.symm, columnEq.trans columnEq'.symm⟩

theorem At.seek {bytes : List UInt8} {offset : Nat} (stands : cursor.At bytes offset) (target : Nat) :
    (cursor.seek target).At bytes (max offset (min target bytes.length)) := by
  obtain ⟨rfl, rfl, counted⟩ := stands
  unfold ByteCursor.seek
  by_cases behind : min target cursor.bytes.length ≤ cursor.offset
  · rw [if_pos behind, Nat.max_eq_left behind]
    exact ⟨rfl, rfl, counted⟩
  · rw [if_neg behind, Nat.max_eq_right (Nat.le_of_not_le behind)]
    have splitEq : cursor.bytes.take (min target cursor.bytes.length) =
        cursor.bytes.take cursor.offset ++ (cursor.bytes.drop cursor.offset).take
          (min target cursor.bytes.length - cursor.offset) := by
      rw [← List.take_add, Nat.add_sub_cancel' (Nat.le_of_not_le behind)]
    have further := counted.foldl_count ((cursor.bytes.drop cursor.offset).take
      (min target cursor.bytes.length - cursor.offset))
    rw [← splitEq] at further
    exact ⟨bytes_foldl_count _ _, rfl, further.line_eq, further.column_eq⟩

theorem At.foldl_seek {bytes : List UInt8} {offset : Nat} (targets : List Nat)
    (stands : cursor.At bytes (min offset bytes.length)) :
    (targets.foldl ByteCursor.seek cursor).At bytes (min (targets.foldl max offset) bytes.length) := by
  induction targets generalizing cursor offset with
  | nil => exact stands
  | cons target rest ih =>
      have further := stands.seek target
      rw [← Nat.min_max_distrib_right] at further
      exact ih further

private theorem at_ofSource (source : String) : (ofSource source).At (bytesOf source) 0 :=
  ⟨rfl, rfl, rfl, rfl⟩

end ByteCursor

/-! ### The bytes of characters -/

private theorem bytesOf_ofList (chars : List Char) :
    bytesOf (String.ofList chars) = chars.flatMap String.utf8EncodeChar := by
  rw [bytesOf, String.toByteArray_ofList, List.utf8Encode, List.toList_data_toByteArray]

private theorem bytesOf_eq (text : String) :
    bytesOf text = text.toList.flatMap String.utf8EncodeChar := by
  rw [← bytesOf_ofList, String.ofList_toList]

private theorem length_bytes (chars : List Char) :
    (chars.flatMap String.utf8EncodeChar).length = utf8Length chars := by
  induction chars with
  | nil => rfl
  | cons c rest ih =>
      rw [List.flatMap_cons, List.length_append, String.length_utf8EncodeChar, ih, utf8Length_cons]

private theorem length_bytesOf (text : String) : (bytesOf text).length = text.utf8ByteSize := by
  rw [bytesOf_eq, length_bytes, utf8ByteSize_eq]

/-- How a character is written: one byte begins it, and the others go on with it.  The first one ends
a line just if the character does. -/
inductive Encodes (c : Char) : List UInt8 → Prop
  | intro {lead : UInt8} {others : List UInt8} (begins : continues lead = false)
      (goOn : ∀ byte ∈ others, continues byte = true) (ends : lead = lineEnd ↔ c = '\n') :
      Encodes c (lead :: others)

private theorem continues_ofNat {code : Nat} (small : code < 64) :
    continues (UInt8.ofNat (code + 0x80)) = true := by
  have all : ∀ code < 64, continues (UInt8.ofNat (code + 0x80)) = true := by decide
  exact all code small

private theorem begins_ofNat {code : Nat} (large : 0xC0 ≤ code) (small : code < 0x100) :
    continues (UInt8.ofNat code) = false ∧ UInt8.ofNat code ≠ lineEnd := by
  have all : ∀ code < 0x40, continues (UInt8.ofNat (0xC0 + code)) = false ∧
      UInt8.ofNat (0xC0 + code) ≠ lineEnd := by decide
  obtain ⟨code, rfl⟩ := Nat.exists_eq_add_of_le large
  exact all code (by omega)

private theorem encodes_utf8EncodeChar (c : Char) : Encodes c (String.utf8EncodeChar c) := by
  have goesOn (code : Nat) : continues (UInt8.ofNat (code % 0x40 + 0x80)) = true :=
    continues_ofNat (Nat.mod_lt _ (by decide))
  have isEnd : c = '\n' ↔ c.val.toNat = 10 := Char.toNat_inj.symm
  unfold String.utf8EncodeChar
  by_cases one : c.val.toNat ≤ 0x7F
  · have leads : ∀ code < 0x80, continues (UInt8.ofNat code) = false ∧
        (UInt8.ofNat code = lineEnd ↔ code = 10) := by decide
    obtain ⟨begins, ends⟩ := leads c.val.toNat (by omega)
    rw [if_pos one]
    exact .intro begins nofun (ends.trans isEnd.symm)
  · have noEnd : ¬ c = '\n' := by
      rw [isEnd]
      omega
    have longer {code : Nat} {others : List UInt8} (large : 0xC0 ≤ code) (small : code < 0x100)
        (goOn : others.all continues = true) : Encodes c (UInt8.ofNat code :: others) := by
      obtain ⟨begins, ends⟩ := begins_ofNat large small
      exact .intro begins (List.all_eq_true.1 goOn) (iff_of_false ends noEnd)
    rw [if_neg one]
    split
    · refine longer (Nat.le_add_left _ _) (by omega) ?_
      simp only [List.all_cons, goesOn, List.all_nil, Bool.and_self]
    · split
      · refine longer (Nat.le_add_left _ _) (by omega) ?_
        simp only [List.all_cons, goesOn, List.all_nil, Bool.and_self]
      · refine longer (Nat.le_add_left _ _) (by omega) ?_
        simp only [List.all_cons, goesOn, List.all_nil, Bool.and_self]

private theorem counts_continued {others : List UInt8} (goOn : ∀ byte ∈ others, continues byte = true)
    (passed : List UInt8) :
    lineEnds (passed ++ others) = lineEnds passed ∧ lastColumn (passed ++ others) = lastColumn passed := by
  induction others generalizing passed with
  | nil => rw [List.append_nil]; exact ⟨rfl, rfl⟩
  | cons byte rest ih =>
      obtain ⟨here, later⟩ := List.forall_mem_cons.1 goOn
      have noEnd : byte ≠ lineEnd := by
        rintro rfl
        cases here
      have noEnds : lineEnds [byte] = 0 := List.count_eq_zero.2 (by simpa using Ne.symm noEnd)
      obtain ⟨lineEq, columnEq⟩ := ih later (passed ++ [byte])
      rw [List.append_cons, lineEq, columnEq, lineEnds_append, noEnds, lastColumn_concat noEnd, here]
      exact ⟨rfl, rfl⟩

/-- Any part of a character counts as the whole character. -/
private theorem counts_take {c : Char} {bytes : List UInt8} (encodes : Encodes c bytes)
    (passed : List UInt8)
    {size : Nat} (positive : 0 < size) :
    lineEnds (passed ++ bytes.take size) = lineEnds passed + (if c = '\n' then 1 else 0) ∧
      lastColumn (passed ++ bytes.take size) = if c = '\n' then 0 else lastColumn passed + 1 := by
  cases encodes with
  | @intro lead others begins goOn ends =>
      obtain ⟨size, rfl⟩ := Nat.exists_eq_succ_of_ne_zero (Nat.ne_of_gt positive)
      have stillGoOn (byte : UInt8) (member : byte ∈ others.take size) : continues byte = true :=
        goOn byte (List.mem_of_mem_take member)
      obtain ⟨lineEq, columnEq⟩ := counts_continued stillGoOn (passed ++ [lead])
      rw [List.take_succ_cons, List.append_cons, lineEq, columnEq, lineEnds_append]
      by_cases isEnd : c = '\n'
      · obtain rfl := ends.2 isEnd
        rw [if_pos isEnd, if_pos isEnd]
        exact ⟨rfl, lastColumn_lineEnd passed⟩
      · have noEnd : lead ≠ lineEnd := fun same => isEnd (ends.1 same)
        have noEnds : lineEnds [lead] = 0 := List.count_eq_zero.2 (by simpa using Ne.symm noEnd)
        rw [if_neg isEnd, if_neg isEnd, noEnds, lastColumn_concat noEnd, begins]
        exact ⟨rfl, rfl⟩

private theorem lastColumn_bytes (front : List Char) :
    lastColumn (front.flatMap String.utf8EncodeChar) = (front.rtakeWhile (· ≠ '\n')).length := by
  induction front using List.reverseRecOn with
  | nil => rfl
  | append_singleton front c ih =>
      have encodes := encodes_utf8EncodeChar c
      have positive : 0 < (String.utf8EncodeChar c).length := by
        rw [String.length_utf8EncodeChar]
        exact c.utf8Size_pos
      have whole := (counts_take encodes (front.flatMap String.utf8EncodeChar) positive).2
      rw [List.take_length] at whole
      rw [List.flatMap_append, List.flatMap_singleton, whole, ih]
      by_cases isEnd : c = '\n'
      · rw [if_pos isEnd, List.rtakeWhile_concat_neg _ _ _ (by simpa using isEnd)]
        rfl
      · rw [if_neg isEnd, List.rtakeWhile_concat_pos _ _ _ (by simpa using isEnd), List.length_append]
        rfl

/-! ### The tracker -/

namespace Tracker

/-- A tracker that passes whole characters counts like one that stops inside a character: the
induction is on the characters ahead, with the bytes of those passed. -/
private theorem advanceOver_counts (chars : List Char) (target : Nat) (passed : List UInt8) :
    (advanceOver target passed.length (lineEnds passed) (lastColumn passed) chars).line =
        lineEnds (passed ++ (chars.flatMap String.utf8EncodeChar).take (target - passed.length)) ∧
      (advanceOver target passed.length (lineEnds passed) (lastColumn passed) chars).column =
        lastColumn (passed ++ (chars.flatMap String.utf8EncodeChar).take (target - passed.length)) := by
  induction chars generalizing passed with
  | nil =>
      rw [List.flatMap_nil, List.take_nil, List.append_nil]
      exact ⟨rfl, rfl⟩
  | cons c rest ih =>
      have sizeEq := String.length_utf8EncodeChar c
      have encodes := encodes_utf8EncodeChar c
      rw [List.flatMap_cons]
      generalize String.utf8EncodeChar c = bytes at sizeEq encodes ⊢
      by_cases before : passed.length < target
      · have positive : 0 < bytes.length := by
          rw [sizeEq]
          exact c.utf8Size_pos
        obtain ⟨lineEq, columnEq⟩ := counts_take encodes passed positive
        rw [List.take_length] at lineEq columnEq
        have stepEq : advanceOver target passed.length (lineEnds passed) (lastColumn passed)
            (c :: rest) = advanceOver target (passed ++ bytes).length (lineEnds (passed ++ bytes))
              (lastColumn (passed ++ bytes)) rest := by
          rw [advanceOver, if_pos before, List.length_append, sizeEq, lineEq, columnEq]
          split <;> rfl
        have further := ih (passed ++ bytes)
        rw [stepEq, further.1, further.2]
        by_cases inside : target - passed.length ≤ bytes.length
        · have nothingMore : target - (passed ++ bytes).length = 0 := by
            rw [List.length_append]
            omega
          obtain ⟨lineEq', columnEq'⟩ := counts_take encodes passed (Nat.sub_pos_of_lt before)
          rw [nothingMore, List.take_zero, List.append_nil, lineEq, columnEq,
            List.take_append_of_le_length inside, lineEq', columnEq']
          exact ⟨rfl, rfl⟩
        · have restEq : target - (passed ++ bytes).length = target - passed.length - bytes.length := by
            rw [List.length_append]
            omega
          rw [restEq, List.take_append, List.take_of_length_le (Nat.le_of_not_le inside),
            ← List.append_assoc]
          exact ⟨rfl, rfl⟩
      · have stepEq : advanceOver target passed.length (lineEnds passed) (lastColumn passed)
            (c :: rest) = ⟨c :: rest, passed.length, lineEnds passed, lastColumn passed⟩ := by
          rw [advanceOver, if_neg before]
        have nothing : target - passed.length = 0 := by omega
        rw [stepEq, nothing, List.take_zero, List.append_nil]
        exact ⟨rfl, rfl⟩

private theorem foldl_advance (tracker : Tracker) (targets : List Nat) (first : Nat) :
    targets.foldl advance (tracker.advance first) = tracker.advance (targets.foldl max first) := by
  induction targets generalizing first with
  | nil => rfl
  | cons target rest ih => rw [List.foldl_cons, advance_advance, ih, List.foldl_cons]

private theorem advance_zero (source : List Char) : (ofSource source).advance 0 = ofSource source := by
  cases source <;> rfl

private theorem ofSource_counts (source : String) (targets : List Nat) :
    (targets.foldl advance (ofSource source.toList)).line =
        lineEnds ((bytesOf source).take (targets.foldl max 0)) ∧
      (targets.foldl advance (ofSource source.toList)).column =
        lastColumn ((bytesOf source).take (targets.foldl max 0)) := by
  rw [← advance_zero, foldl_advance, bytesOf_eq]
  exact advanceOver_counts source.toList (targets.foldl max 0) []

end Tracker

/-! ### Forward is as good as anew -/

def reached (source : String) (targets : List Nat) : Nat :=
  min (targets.foldl max 0) source.utf8ByteSize

def recounted (source : String) (targets : List Nat) : List UInt8 :=
  (bytesOf source).take (reached source targets)

def ByteCursor.after (source : String) (targets : List Nat) : ByteCursor :=
  targets.foldl seek (.ofSource source)

def Tracker.after (source : String) (targets : List Nat) : Tracker :=
  targets.foldl advance (.ofSource source.toList)

theorem ByteCursor.after_at (source : String) (targets : List Nat) :
    (ByteCursor.after source targets).At (bytesOf source) (reached source targets) := by
  rw [reached, ← length_bytesOf]
  exact At.foldl_seek targets (by rw [Nat.zero_min]; exact at_ofSource source)

theorem Tracker.position_after (source : String) (targets : List Nat) :
    (Tracker.after source targets).position =
      ⟨lineEnds (recounted source targets) + 1, lastColumn (recounted source targets) + 1⟩ := by
  obtain ⟨lineEq, columnEq⟩ := ofSource_counts source targets
  rw [recounted, reached, ← length_bytesOf, ← List.take_eq_take_min, position, after, lineEq, columnEq]

/-- Whatever bytes are asked for one after the other, the cursor on the bytes and the tracker on the
characters come to the line and column of a recount up to the greatest of them.  Between two characters
that column is a number of characters, and no other way there leads elsewhere. -/
theorem forward_is_recount (source : String) (targets : List Nat) :
    (ByteCursor.after source targets).offset = reached source targets ∧
    ((ByteCursor.after source targets).line = lineEnds (recounted source targets) ∧
      (ByteCursor.after source targets).column = lastColumn (recounted source targets)) ∧
    (Tracker.after source targets).position =
      ⟨lineEnds (recounted source targets) + 1, lastColumn (recounted source targets) + 1⟩ ∧
    (∀ front back, source.toList = front ++ back → utf8Length front = reached source targets →
      lastColumn (recounted source targets) = (front.rtakeWhile (· ≠ '\n')).length) ∧
    ∀ others : List Nat, reached source others = reached source targets →
      ByteCursor.after source others = ByteCursor.after source targets ∧
      (Tracker.after source others).position = (Tracker.after source targets).position := by
  have cursorAt := ByteCursor.after_at source targets
  refine ⟨cursorAt.offset_eq, ?counted, Tracker.position_after source targets, ?boundary, ?cuts⟩
  case counted => exact ⟨cursorAt.counted.line_eq, cursorAt.counted.column_eq⟩
  case boundary =>
    intro front back sourceEq lengthEq
    have recountedEq : recounted source targets = front.flatMap String.utf8EncodeChar := by
      rw [recounted, bytesOf_eq, sourceEq, List.flatMap_append, ← lengthEq, ← length_bytes,
        List.take_left]
    rw [recountedEq, lastColumn_bytes]
  case cuts =>
    intro others same
    have otherAt := ByteCursor.after_at source others
    rw [same] at otherAt
    refine ⟨otherAt.unique cursorAt, ?_⟩
    rw [Tracker.position_after, Tracker.position_after, recounted, same, recounted]

/-- The byte in the middle of a character is behind that character. -/
example : (Tracker.after "a\nö" [3, 1]).position = ⟨2, 2⟩ := by decide

end Trellis
