import Highlight.Decimal.Text
import Highlight.Text.Shown

/-! Ways in which what is read fails to have the shape of a grammar, and how they are said. -/

namespace Highlight

inductive Found
  | null
  | boolean (b : Bool)
  | integer (n : Int)
  | real (x : Float)
  | text (s : String)
  | bytes
  | sequence
  | map

def Found.description (style : Decimal.NumberStyle) : Found → String
  | .null => "null"
  | .boolean b => s!"boolean `{b}`"
  | .integer n => s!"integer `{n}`"
  | .real x => "floating point `" ++ style.text x ++ "`"
  | .text s => "string " ++ Shown.text s
  | .bytes => "byte array"
  | .sequence => "sequence"
  | .map => "map"

inductive Misfit
  | invalidType (found : Found) (expected : String)
  | invalidValue (found : Found) (expected : String)
  | missingField (name : String)
  | duplicateField (name : String)
  | invalidLength (found : Nat) (expected : String)
  | noKindOfRule

def Misfit.message (style : Decimal.NumberStyle) : Misfit → String
  | .invalidType found expected =>
    "invalid type: " ++ found.description style ++ ", expected " ++ expected
  | .invalidValue found expected =>
    "invalid value: " ++ found.description style ++ ", expected " ++ expected
  | .missingField name => "missing field `" ++ name ++ "`"
  | .duplicateField name => "duplicate field `" ++ name ++ "`"
  | .invalidLength found expected => s!"invalid length {found}, expected " ++ expected
  | .noKindOfRule => "data did not match any variant of untagged enum Rule"

end Highlight
