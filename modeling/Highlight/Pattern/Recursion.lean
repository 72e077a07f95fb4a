import Highlight.Pattern.Width

/-! Calls that never end: a group that calls itself before it has taken any text, or in every way in
which it can match. -/

namespace Highlight.Pattern

/-- How a part comes back to a group: in every way that it can match, and perhaps before any text. -/
structure Recurrence where
  always : Bool
  endless : Bool
  deriving DecidableEq

namespace Recurrence

def none : Recurrence := ⟨false, false⟩

def and (a b : Recurrence) : Recurrence := ⟨a.always || b.always, a.endless || b.endless⟩

def or (a b : Recurrence) : Recurrence := ⟨a.always && b.always, a.endless || b.endless⟩

end Recurrence

namespace Node

def recurrence (width : Node → Width) (visit : Nat → Bool → Recurrence) (first : Bool) :
    Node → Recurrence
  | .sequence a b =>
    let r := a.recurrence width visit first
    if r.endless then r
    else r.and (b.recurrence width visit (first && (width a).least == 0))
  | .choice a b => (a.recurrence width visit first).or (b.recurrence width visit first)
  | .loop q _ body =>
    if q.most = some 0 then .none
    else
      let r := body.recurrence width visit first
      { r with always := r.always && q.least != 0 }
  | .capture g _ => visit g first
  | .call g => visit g first
  | .scoped body | .atomic body | .lookAhead _ body | .lookBehind _ _ _ body | .cutBefore body =>
    body.recurrence width visit first
  | .conditional c yes no =>
    let r := c.recurrence width visit first
    let s := yes.recurrence width visit (first && (width c).least == 0)
    r.and s |>.or (no.recurrence width visit first)
  | .absent a b => (a.recurrence width visit first).and (b.recurrence width visit first)
  | .empty | .never | .literal _ | .folded _ | .one _ | .anchor _ | .keep | .reference .. | .captured _
  | .uncut => .none

def inner : Node → Node
  | .capture _ body => body
  | n => n

def visit (root : Node) (width : Node → Width) (g : Nat) :
    (calls : Nat) → (visited : List Nat) → Nat → Bool → Recurrence
  | 0, _, _, _ => .none
  | calls + 1, visited, h, first =>
    if visited.contains h then .none
    else if h = g then ⟨true, first⟩
    else (root.target h).inner.recurrence width (root.visit width g calls (h :: visited)) first

def isEndless (root : Node) (width : Node → Width) (groups g : Nat) : Bool :=
  let r := (root.target g).inner.recurrence width (root.visit width g (groups + 2) []) true
  r.always || r.endless

end Node

end Highlight.Pattern
