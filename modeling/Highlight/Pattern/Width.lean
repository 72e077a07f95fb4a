import Highlight.Pattern.Node
import Highlight.Unicode.FoldedText

/-! How many characters the parts of a pattern take. -/

namespace Highlight.Pattern

/-- The least and the greatest number of characters. The least one is `sure` if nothing else has to
hold where so few are taken. -/
structure Width where
  least : Nat
  most : Option Nat
  sure : Bool
  deriving DecidableEq

namespace Width

def exactly (n : Nat) : Width := ⟨n, some n, true⟩

def unknown : Width := ⟨0, none, false⟩

def condition : Width := ⟨0, some 0, false⟩

def isFixed (w : Width) : Bool := w.most == some w.least

def add (v w : Width) : Width :=
  ⟨v.least + w.least, v.most.bind fun m => w.most.map (m + ·), v.sure && w.sure⟩

def or (v w : Width) : Width :=
  ⟨min v.least w.least, v.most.bind fun m => w.most.map (max m ·),
    if v.least < w.least then v.sure else if w.least < v.least then w.sure else v.sure || w.sure⟩

def times (w : Width) (q : Quantifier) : Width :=
  ⟨w.least * q.least, q.most.bind fun n => if n = 0 then some 0 else w.most.map (· * n),
    q.least == 0 || w.sure⟩

end Width

namespace Node

def width (group : Nat → Width) : Node → Width
  | .empty | .uncut => .exactly 0
  | .never => .exactly 0
  | .literal cs => .exactly cs.length
  | .folded cs =>
    let (least, most) := Unicode.CaseFolding.lengthBounds cs
    ⟨least, some most, true⟩
  | .one _ => .exactly 1
  | .keep => .exactly 0
  | .anchor _ | .lookAhead .. | .lookBehind .. | .captured _ => .condition
  | .sequence a b => (a.width group).add (b.width group)
  | .choice a b => (a.width group).or (b.width group)
  | .loop q _ body => (body.width group).times q
  | .capture _ body | .scoped body | .atomic body => body.width group
  | .reference r _ =>
    let fixedOrUnsure (w : Width) : Width := if w.isFixed then w else { w with sure := false }
    match r.groups.map fun g => fixedOrUnsure (group g) with
    | [] => .unknown
    | w :: ws => ws.foldl Width.or w
  | .call g => group g
  | .conditional condition yes no =>
    ((condition.width group).add (yes.width group)).or (no.width group)
  | .absent _ body => body.width group
  | .cutBefore _ => .exactly 0

def group? (g : Nat) : Node → Option Node
  | .capture h body => if h = g then some (.capture h body) else body.group? g
  | .sequence a b | .choice a b | .absent a b => a.group? g <|> b.group? g
  | .loop _ _ body | .scoped body | .atomic body | .lookAhead _ body | .lookBehind _ _ _ body
  | .cutBefore body => body.group? g
  | .conditional a b c => a.group? g <|> b.group? g <|> c.group? g
  | .empty | .never | .literal _ | .folded _ | .one _ | .anchor _ | .keep | .reference .. | .captured _
  | .call _ | .uncut => none

def target (root : Node) (g : Nat) : Node := if g = 0 then root else (root.group? g).getD .never

def groupWidth (root : Node) : (calls : Nat) → Nat → Width
  | 0, _ => .unknown
  | calls + 1, g => (root.target g).width (root.groupWidth calls)

def gather (own : Node → List Nat) (n : Node) : List Nat :=
  own n ++ match n with
  | .sequence a b | .choice a b | .absent a b => a.gather own ++ b.gather own
  | .capture _ body | .loop _ _ body | .scoped body | .atomic body | .lookAhead _ body
  | .lookBehind _ _ _ body | .cutBefore body => body.gather own
  | .conditional a b c => a.gather own ++ b.gather own ++ c.gather own
  | .empty | .never | .literal _ | .folded _ | .one _ | .anchor _ | .keep | .reference .. | .captured _
  | .call _ | .uncut => []

def references : Node → List Nat := gather fun n =>
  match n with
  | .reference r _ | .captured r => r.groups
  | _ => []

def captures : Node → List Nat := gather fun n =>
  match n with
  | .capture g _ => [g]
  | _ => []

def calls : Node → List Nat := gather fun n =>
  match n with
  | .call g => [g]
  | _ => []

end Node

end Highlight.Pattern
