import Highlight.Pattern.Width

/-! How many steps the parts of a pattern have. A repetition is written out if that takes few steps. -/

namespace Highlight.Pattern

def writtenOutLimit : Nat := 10

def Quantifier.isWrittenOut (q : Quantifier) (size : Nat) : Bool :=
  match q.most with
  | none =>
    q.least == 0 || (q.least == 1 && size ≤ writtenOutLimit) || size * q.least ≤ writtenOutLimit
  | some most =>
    if q.greedy then most ≤ 1 || (size + 1) * most ≤ writtenOutLimit
    else most == 1 && q.least == 0

namespace Node

def literalSize (previous : Nat) : List Char → Nat
  | [] => 0
  | c :: cs => (if c.utf8Size = previous then 0 else 1) + literalSize c.utf8Size cs

def size (mayBeEmpty : Node → Bool) : Node → Nat
  | .empty => 0
  | .literal cs => literalSize 0 cs
  | .folded cs => cs.length
  | .never | .one _ | .anchor _ | .keep | .reference .. | .captured _ | .call _ | .uncut => 1
  | .sequence a b => a.size mayBeEmpty + b.size mayBeEmpty
  | .choice a b => a.size mayBeEmpty + b.size mayBeEmpty + 2
  | .loop q _ body =>
    let n := body.size mayBeEmpty
    let checked := if mayBeEmpty body then n + 2 else n
    match q.most with
    | none => if q.isWrittenOut n then n * q.least + checked + 2 else checked + 2
    | some most =>
      if most = 0 then 0
      else if !q.isWrittenOut n then checked + 2
      else if q.greedy then n * q.least + (n + 1) * (most - q.least)
      else n + 2
  | .scoped body => body.size mayBeEmpty
  | .capture _ body | .atomic body => body.size mayBeEmpty + 2
  | .lookAhead positive body => body.size mayBeEmpty + if positive then 2 else 3
  | .lookBehind positive _ _ body => body.size mayBeEmpty + if positive then 3 else 4
  | .conditional a b c => a.size mayBeEmpty + b.size mayBeEmpty + c.size mayBeEmpty + 4
  | .absent a b => a.size mayBeEmpty + b.size mayBeEmpty + 8
  | .cutBefore a => a.size mayBeEmpty + 8

end Node

end Highlight.Pattern
