/-!
Tables of code points.  A property of characters is a list of ranges, or of runs where every second
character has it; a case mapping is a list of runs, each with the distance to the mapped character.
-/

namespace Trellis.Text

/-- Each pair holds the first and the last code point of one range. -/
abbrev Ranges := List (Nat × Nat)

def Ranges.has (table : Ranges) (c : Char) : Bool :=
  table.any fun range => range.1 ≤ c.toNat && c.toNat ≤ range.2

/-- Every `step`-th code point from `first` to `last`. -/
structure Run where
  first : Nat
  last : Nat
  step : Nat

def Run.has (run : Run) (c : Char) : Bool :=
  run.first ≤ c.toNat && c.toNat ≤ run.last && (c.toNat - run.first) % run.step == 0

structure Shift where
  run : Run
  distance : Int

/-- The image of a character under a mapping with expansions to several characters, which win, and
shifts.  A character that neither names is kept. -/
def mapped (expansions : List (Nat × List Nat)) (shifts : List Shift) (c : Char) : List Char :=
  match expansions.lookup c.toNat with
  | some image => image.map Char.ofNat
  | none =>
      match shifts.find? (·.run.has c) with
      | some shift => [Char.ofNat (c.toNat + shift.distance).toNat]
      | none => [c]

end Trellis.Text
