import Highlight.Tree
import Highlight.Json.Collection

/-! Reading a value of any kind. -/

namespace Highlight.Json

def Scalar.tree : Scalar → Tree
  | .null => .null
  | .boolean b => .boolean b
  | .number (.natural n) => .natural n
  | .number (.negative n) => .negative n
  | .number (.real x) => .real x
  | .text s => .text s

def treeWith (inner : Option (Reader Tree)) : Reader Tree := Reader.afterSpace fun s =>
  match s with
  | [] => .error (.inFirst .endInValue [])
  | b :: rest =>
    if b = openBracket then
      match inner with
      | none => .error (.inFirst .nestedTooDeeply (b :: rest))
      | some value => (Result.map .array (items value 0 rest)).widen (length_le_cons b rest)
    else if b = openBrace then
      match inner with
      | none => .error (.inFirst .nestedTooDeeply (b :: rest))
      | some value =>
        let member (ms : List (Tree × Tree)) (key : String) : Reader (List (Tree × Tree)) := fun s =>
          Result.map (fun v => (.text key, v) :: ms) (memberValue key value s)
        (Result.map (fun ms => .record ms.reverse) (members member [] true rest)).widen
          (length_le_cons b rest)
    else Result.map Scalar.tree (scalar (b :: rest))

def tree : (depth : Nat) → Reader Tree
  | 0 => treeWith none
  | depth + 1 => treeWith (some (tree depth))

end Highlight.Json
