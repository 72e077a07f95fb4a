/-! Sets of numbers written as gaps: how far it is to the next number inside, how far from there to
the next one outside, and so on. -/

namespace Highlight.Unicode.Table

structure GapReader where
  bounds : Array Nat
  bound : Nat
  gap : Nat

def GapReader.step (r : GapReader) (c : Char) : GapReader :=
  if c.isDigit then { r with gap := r.gap * 10 + (c.toNat - '0'.toNat) }
  else ⟨r.bounds.push (r.bound + r.gap), r.bound + r.gap, 0⟩

def ofGaps (gaps : String) : Array Nat :=
  let r := gaps.foldl GapReader.step ⟨#[], 0, 0⟩
  r.bounds.push (r.bound + r.gap)

def countBetween (a : Array Nat) (n low high : Nat) : Nat :=
  if low < high then
    let middle := (low + high) / 2
    if a.getD middle 0 ≤ n then countBetween a n (middle + 1) high
    else countBetween a n low middle
  else low
termination_by high - low

def count (a : Array Nat) (n : Nat) : Nat := countBetween a n 0 a.size

def contains (a : Array Nat) (n : Nat) : Bool := count a n % 2 == 1

end Highlight.Unicode.Table
