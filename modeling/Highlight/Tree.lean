import Highlight.Text.Bytes

/-! Values as a file gives them, before anything is asked of their shape. -/

namespace Highlight

inductive Tree
  | null
  | boolean (b : Bool)
  | natural (n : Nat)
  | negative (n : Int)
  | real (x : Float)
  | text (s : String)
  | data (b : Bytes)
  | array (items : List Tree)
  | record (members : List (Tree × Tree))

namespace Tree

def text? : Tree → Option String
  | .text s => some s
  | .data b => Bytes.text? b
  | _ => none

/-- Which of the named fields a key means: by name, by the bytes of the name, or by position.
The outer result is empty for a value that is no key at all, the inner one for an unknown field. -/
def field? (fields : List String) : Tree → Option (Option Nat)
  | .text s => some (fields.idxOf? s)
  | .data b => some (fields.findIdx? fun f => Bytes.ofString f == b)
  | .natural n => some (if n < fields.length then some n else none)
  | _ => none

end Tree

end Highlight
