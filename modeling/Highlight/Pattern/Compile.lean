import Highlight.Pattern.Read
import Highlight.Pattern.Recursion
import Highlight.Pattern.Size

/-! Patterns that are ready to be searched for. -/

namespace Highlight

structure Pattern where
  root : Pattern.Node
  groups : Nat
  names : List (String × List Nat)
  deriving DecidableEq

namespace Pattern

def lookBehindLimit : Nat := 65535

namespace Node

def renumber (f : Nat → Option Nat) : Node → Node
  | .capture g body =>
    match f g with
    | some h => .capture h (body.renumber f)
    | none => body.renumber f
  | .reference r fold => .reference { r with groups := r.groups.filterMap f } fold
  | .captured r => .captured { r with groups := r.groups.filterMap f }
  | .sequence a b => .sequence (a.renumber f) (b.renumber f)
  | .choice a b => .choice (a.renumber f) (b.renumber f)
  | .loop q plan body => .loop q plan (body.renumber f)
  | .scoped body => .scoped (body.renumber f)
  | .atomic body => .atomic (body.renumber f)
  | .lookAhead positive body => .lookAhead positive (body.renumber f)
  | .lookBehind positive least most body => .lookBehind positive least most (body.renumber f)
  | .conditional a b c => .conditional (a.renumber f) (b.renumber f) (c.renumber f)
  | .absent a b => .absent (a.renumber f) (b.renumber f)
  | .cutBefore a => .cutBefore (a.renumber f)
  | n => n

def withCalls (targets : List Nat) : Node → Node
  | .call i => .call (targets.getD i 0)
  | .capture g body => .capture g (body.withCalls targets)
  | .sequence a b => .sequence (a.withCalls targets) (b.withCalls targets)
  | .choice a b => .choice (a.withCalls targets) (b.withCalls targets)
  | .loop q plan body => .loop q plan (body.withCalls targets)
  | .scoped body => .scoped (body.withCalls targets)
  | .atomic body => .atomic (body.withCalls targets)
  | .lookAhead positive body => .lookAhead positive (body.withCalls targets)
  | .lookBehind positive least most body => .lookBehind positive least most (body.withCalls targets)
  | .conditional a b c =>
    .conditional (a.withCalls targets) (b.withCalls targets) (c.withCalls targets)
  | .absent a b => .absent (a.withCalls targets) (b.withCalls targets)
  | .cutBefore a => .cutBefore (a.withCalls targets)
  | n => n

def mayBeBehind (group : Nat → Bool) (positive : Bool) : Node → Bool
  | .anchor .textEnd | .anchor .textEndOrFinalNewline => false
  | .lookAhead .. | .cutBefore _ => false
  | .lookBehind p _ _ body => (p || !positive) && body.mayBeBehind group positive
  | .capture _ body => positive && body.mayBeBehind group positive
  | .sequence a b | .choice a b | .absent a b =>
    a.mayBeBehind group positive && b.mayBeBehind group positive
  | .loop _ _ body | .scoped body | .atomic body => body.mayBeBehind group positive
  | .conditional a b c =>
    a.mayBeBehind group positive && b.mayBeBehind group positive && c.mayBeBehind group positive
  | .call g => group g
  | .empty | .never | .literal _ | .folded _ | .one _ | .anchor _ | .keep | .reference .. | .captured _
  | .uncut => true

def groupMayBeBehind (root : Node) (positive : Bool) : (calls : Nat) → Nat → Bool
  | 0, _ => true
  | calls + 1, g => (root.target g).mayBeBehind (root.groupMayBeBehind positive calls) positive

structure Whole where
  root : Node
  groups : Nat

def Whole.width (w : Whole) (n : Node) : Width := n.width (w.root.groupWidth (w.groups + 1))

def Whole.mayBeEmpty (w : Whole) (n : Node) : Bool := (w.width n).least == 0

def Whole.isUsed (w : Whole) (n : Node) : Bool :=
  !n.calls.isEmpty ||
    n.captures.any fun g => w.root.references.contains g || w.root.calls.contains g

def alternatives : Node → List Node
  | .choice a b => a :: b.alternatives
  | n => [n]

def Whole.hasSeveralWidths (w : Whole) (n : Node) : Bool :=
  !(w.width n).isFixed && 1 < n.alternatives.length && n.alternatives.all fun a => (w.width a).isFixed

def lookBehindOf (positive : Bool) (w : Width) (n : Node) : Node :=
  .lookBehind positive w.least w.most n

def Whole.lookBehindFor (w : Whole) (positive : Bool) (n : Node) : Node :=
  let v := w.width n
  if v.least = 0 ∧ v.sure ∧ !w.isUsed n then (if positive then .empty else .never)
  else lookBehindOf positive v n

def Whole.lookBehind (w : Whole) (positive : Bool) (body : Node) : Except Fault Node :=
  let v := w.width body
  if !body.mayBeBehind (w.root.groupMayBeBehind positive (w.groups + 1)) positive ||
      lookBehindLimit < v.least || v.most.any (lookBehindLimit < ·) then .error .invalidLookBehind
  -- A body that may surely take nothing matches wherever it is looked for.
  else if v.least = 0 ∧ v.sure ∧ !w.isUsed body then .ok (if positive then .empty else .never)
  else if w.hasSeveralWidths body then
    let parts := body.alternatives.map (w.lookBehindFor positive)
    match parts with
    | [] => .ok .never
    | p :: ps => .ok (if positive then choiceOf p ps else sequenceOf (p :: ps))
  else .ok (lookBehindOf positive v body)

/-- The groups in the body of a repetition to which something outside of it refers. -/
def Whole.watched (w : Whole) (body : Node) : List Nat :=
  let inside := body.references
  let all := w.root.references
  body.captures.filter fun g => inside.count g < all.count g

def Whole.ready (w : Whole) : Node → Except Fault Node
  | .lookBehind positive _ _ body => do
    if !body.mayBeBehind (w.root.groupMayBeBehind positive (w.groups + 1)) positive then
      throw .invalidLookBehind
    w.lookBehind positive (← w.ready body)
  | .loop q _ body => do
    let plan : LoopPlan :=
      if w.mayBeEmpty body then
        ⟨!q.isWrittenOut (body.size w.mayBeEmpty), w.watched body⟩
      else {}
    return .loop q plan (← w.ready body)
  | .capture g body => return .capture g (← w.ready body)
  | .sequence a b => return .sequence (← w.ready a) (← w.ready b)
  | .choice a b => return .choice (← w.ready a) (← w.ready b)
  | .scoped body => return .scoped (← w.ready body)
  | .atomic body => return .atomic (← w.ready body)
  | .lookAhead positive body => return .lookAhead positive (← w.ready body)
  | .conditional a b c => return .conditional (← w.ready a) (← w.ready b) (← w.ready c)
  | .absent a b => return .absent (← w.ready a) (← w.ready b)
  | .cutBefore a => return .cutBefore (← w.ready a)
  | n => return n

end Node

def namedNumber (names : List (String × List Nat)) (g : Nat) : Option Nat :=
  let named := names.flatMap (·.2)
  if named.contains g then some ((named.filter (· ≤ g)).length) else none

def target (groups : Nat) (names : List (String × List Nat)) : Callee → Except Fault Nat
  | .group n shown =>
    if !names.isEmpty then .error .numberedReference
    else if groups < n then .error (.undefinedGroup shown)
    else .ok n
  | .name name =>
    match names.lookup name with
    | none => .error (.undefinedName name)
    | some [g] => .ok g
    | some _ => .error (.ambiguousCall name)

def compile (text : List Char) : Except Fault Pattern := do
  let (root, s) ← Read.pattern text
  -- If there are named groups, the others capture nothing, and no group may be referred to by number.
  if !s.names.isEmpty && s.numbered != 0 then throw .numberedReference
  let number : Nat → Option Nat := if s.names.isEmpty then some else namedNumber s.names
  let names := s.names.map fun (n, gs) => (n, gs.filterMap number)
  let groups := if s.names.isEmpty then s.groups else (names.flatMap (·.2)).length
  if groups < s.numbered then throw .invalidReference
  let targets ← s.calls.mapM (target groups names)
  let root := (root.renumber number).withCalls targets
  let whole : Node.Whole := ⟨root, groups⟩
  if targets.any fun g => root.isEndless whole.width groups g then throw .endlessRecursion
  let root ← whole.ready root
  return ⟨root, groups, names.mergeSort fun a b => a.1 ≤ b.1⟩

end Pattern

end Highlight
