import Highlight.Text.Bytes
import Highlight.PropertyList.Fault
import Highlight.Text.Remainder

/-! Property lists as sequences of events, whichever way they are written. -/

namespace Highlight.PropertyList

inductive Event
  | startArray
  | startDictionary
  | endCollection
  | boolean (b : Bool)
  | data (b : Bytes)
  | date (s : String)
  | integer (n : Int)
  | real (x : Float)
  | text (s : String)
  | uid (n : Nat)

def Event.kind : Event → EventKind
  | .startArray => .startArray
  | .startDictionary => .startDictionary
  | .endCollection => .endCollection
  | .boolean _ => .boolean
  | .data _ => .data
  | .date _ => .date
  | .integer _ => .integer
  | .real _ => .real
  | .text _ => .text
  | .uid _ => .uid

structure Trace where
  events : List Event
  fault : Option Fault := none

namespace Trace

def fail (f : Fault) : Trace := ⟨[], some f⟩

def complete : Trace := ⟨[], none⟩

def cons (e : Event) (t : Trace) : Trace := ⟨e :: t.events, t.fault⟩

end Trace

end Highlight.PropertyList
