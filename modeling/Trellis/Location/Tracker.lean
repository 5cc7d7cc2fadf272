import Trellis.Location

/-!
The position of a byte of a document, found by going forward.

A tracker stands before a character and knows how many lines end before it and how many characters
come after the last line end.  It never goes back: asked for an earlier byte it stays where it is.
-/

namespace Trellis

structure Tracker where
  ahead : List Char
  offset : Nat
  /-- Lines that end before it. -/
  line : Nat
  /-- Characters between the last line end and it. -/
  column : Nat
  deriving Repr

namespace Tracker

def ofSource (source : List Char) : Tracker :=
  ⟨source, 0, 0, 0⟩

def position (tracker : Tracker) : Position :=
  ⟨tracker.line + 1, tracker.column + 1⟩

/-- Passes every character that begins before the byte `target`. -/
def advanceOver (target : Nat) (offset line column : Nat) : List Char → Tracker
  | [] => ⟨[], offset, line, column⟩
  | c :: rest =>
      if offset < target then
        if c = '\n' then advanceOver target (offset + c.utf8Size) (line + 1) 0 rest
        else advanceOver target (offset + c.utf8Size) line (column + 1) rest
      else ⟨c :: rest, offset, line, column⟩

def advance (tracker : Tracker) (target : Nat) : Tracker :=
  advanceOver target tracker.offset tracker.line tracker.column tracker.ahead

theorem advance_advance (tracker : Tracker) (first second : Nat) :
    (tracker.advance first).advance second = tracker.advance (max first second) := by
  obtain ⟨ahead, offset, line, column⟩ := tracker
  simp only [advance]
  induction ahead generalizing offset line column with
  | nil => simp [advanceOver]
  | cons c rest ih =>
      by_cases before : offset < first
      · have later : offset < max first second := by omega
        by_cases ends : c = '\n'
        · simpa [advanceOver, before, later, ends] using ih _ _ _
        · simpa [advanceOver, before, later, ends] using ih _ _ _
      · by_cases reached : offset < second
        · have same : max first second = second := by omega
          simp [advanceOver, before, same]
        · have later : ¬ offset < max first second := by omega
          simp [advanceOver, before, reached, later]

end Tracker

end Trellis
