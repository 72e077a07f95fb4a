import Highlight.Files.Obstacle
import Highlight.Format
import Highlight.Json.Grammar
import Highlight.PropertyList.Grammar

/-! What can go wrong when a grammar is written or read. -/

namespace Highlight

open Files

inductive Failure
  | propertyList (fault : PropertyList.Fault)
  | json (fault : Json.Fault) (document : Bytes)
  | createDirectory (path : String) (obstacle : Obstacle)
  | write (path : String) (obstacle : Obstacle)
  | read (path : String) (obstacle : Obstacle)

namespace Failure

def message : Failure → String
  | .propertyList _ => "failed to deserialize property list"
  | .json fault _ => "failed to deserialize json at \"" ++ Json.pathText fault.path ++ "\""
  | .createDirectory path _ => "failed to create directory " ++ path
  | .write path _ => "failed to write " ++ path
  | .read path _ => "failed to read " ++ path

def causes : Failure → List String
  | .propertyList fault => fault.messages
  | .json fault document => [fault.message document]
  | .createDirectory _ obstacle | .write _ obstacle | .read _ obstacle => [obstacle.message]

end Failure

def Grammar.ofBytes (f : Format) (document : Bytes) : Except Failure Grammar :=
  match f with
  | .propertyList => (ofPropertyList document).mapError .propertyList
  | .json => (ofJson document).mapError (.json · document)

end Highlight
