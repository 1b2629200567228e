/-!
# Ranges of code points

Character properties and case mappings are tables of ranges of code points.

## Main definitions

* `inRanges`: membership in a list of closed ranges
* `CaseRun`: evenly spaced code points that a case mapping moves by one offset
-/

namespace ElmBindgen.Text

/-- Whether a code point lies in one of some closed ranges. -/
def inRanges (ranges : List (Nat × Nat)) (code : Nat) : Bool :=
  ranges.any fun range => range.1 ≤ code && code ≤ range.2

/-- The characters `first`, `first + step`, …, `last`, all moved by `offset`. -/
structure CaseRun where
  first : Nat
  last : Nat
  step : Nat
  offset : Int

/-- Whether a code point is one of a run. -/
def CaseRun.contains (run : CaseRun) (code : Nat) : Bool :=
  run.first ≤ code && code ≤ run.last && (code - run.first) % run.step = 0

end ElmBindgen.Text
