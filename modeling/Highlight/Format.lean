import Highlight.Text.Bytes
import Highlight.Grammar.Document
import Highlight.Json.Printer
import Highlight.PropertyList.Printer

/-! The two formats of a grammar file. -/

namespace Highlight

inductive Format
  | propertyList
  | json
  deriving DecidableEq, Repr

structure Output where
  path : String
  format : Format
  deriving DecidableEq

namespace Grammar

def text (g : Grammar) : Format → List Char
  | .propertyList => PropertyList.printed g.toDocument
  | .json => Json.indented 0 g.toDocument

def toBytes (g : Grammar) (f : Format) : Bytes := Bytes.ofString (String.ofList (g.text f))

end Grammar

end Highlight
