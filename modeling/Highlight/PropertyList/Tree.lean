import Highlight.PropertyList.Event
import Highlight.Tree

/-! Values from the events of a property list. -/

namespace Highlight.PropertyList

abbrev Taken (α : Type) (es : List Event) := α × { r : List Event // r.length < es.length }

def Taken.widen {α : Type} {es fs : List Event} (h : es.length ≤ fs.length) :
    Taken α es → Taken α fs
  | (a, ⟨r, hr⟩) => (a, ⟨r, Nat.lt_of_lt_of_le hr h⟩)

def unexpected (expected : EventKind) (e : Event) : Fault :=
  ⟨.unexpectedEventType expected e.kind, none⟩

def Event.tree : Event → Tree
  | .boolean b => .boolean b
  | .data b => .data b
  | .date s => .text s
  | .integer n => if n < 0 then .negative n else .natural n.toNat
  | .real x => .real x
  | .text s => .text s
  | .uid n => .natural n
  | .startArray | .startDictionary | .endCollection => .null

/-- A collection that is not closed yet: its items, or its members and perhaps a key without a value,
the last one first. -/
inductive Opened
  | items (done : List Tree)
  | members (done : List (Tree × Tree)) (key : Option Tree)

namespace Opened

def put (v : Tree) : Opened → Opened
  | .items done => .items (v :: done)
  | .members done none => .members done (some v)
  | .members done (some k) => .members ((k, v) :: done) none

def close? : Opened → Option Tree
  | .items done => some (.array done.reverse)
  | .members done none => some (.record done.reverse)
  | .members _ (some _) => none

def finish (ending : Fault) (c : Opened) (around : List Opened) :
    (es : List Event) → Except Fault (Taken Tree es)
  | [] => .error ending
  | .endCollection :: es =>
    match c.close?, around with
    | none, _ => .error (unexpected .valueOrStartCollection .endCollection)
    | some v, [] => .ok (v, ⟨es, Nat.lt_succ_self _⟩)
    | some v, outer :: around =>
      ((outer.put v).finish ending around es).map (Taken.widen (Nat.le_succ _))
  | .startArray :: es =>
    (finish ending (.items []) (c :: around) es).map (Taken.widen (Nat.le_succ _))
  | .startDictionary :: es =>
    (finish ending (.members [] none) (c :: around) es).map (Taken.widen (Nat.le_succ _))
  | e :: es => (finish ending (c.put e.tree) around es).map (Taken.widen (Nat.le_succ _))

end Opened

def tree (ending : Fault) : (es : List Event) → Except Fault (Taken Tree es)
  | [] => .error ending
  | .endCollection :: _ => .error (unexpected .valueOrStartCollection .endCollection)
  | .startArray :: es => (Opened.finish ending (.items []) [] es).map (Taken.widen (Nat.le_succ _))
  | .startDictionary :: es =>
    (Opened.finish ending (.members [] none) [] es).map (Taken.widen (Nat.le_succ _))
  | e :: es => .ok (e.tree, ⟨es, Nat.lt_succ_self _⟩)

end Highlight.PropertyList
