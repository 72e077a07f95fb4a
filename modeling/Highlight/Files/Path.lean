import Highlight.Files.Obstacle
import Highlight.Text.Pieces

/-! Paths as texts: names with slashes between them. -/

namespace Highlight.Files

def longestName : Nat := 255

def longestPath : Nat := 4095

namespace Path

def names (path : String) : List String := stringPieces '/' path

def ofNames (names : List String) : String := "/".intercalate names

def objection? (path : String) : Option Obstacle :=
  if path.toList.contains '\x00' then some .nulByte
  else if path.isEmpty then some .notFound
  else if longestPath < path.utf8ByteSize then some .nameTooLong
  else none

def endsInSlash (path : String) : Bool := (names path).getLast? == some ""

def target? (path : String) : Option (List String × String) :=
  match (names path).reverse.dropWhile (· == "") with
  | [] => none
  | last :: before => some (before.reverse, last)

def isIdle (name : String) : Bool := name == "" || name == "."

/-- What is left of a path, read from its end, as it loses one name after the other. A name that leads
nowhere else goes with the one after it, except the first of all. -/
def shortenings : List String → List (List String)
  | [] => []
  | [n] => if n = "" then [] else [[n]]
  | n :: m :: ns => if isIdle n then shortenings (m :: ns) else (n :: m :: ns) :: shortenings (m :: ns)

def directories (path : String) : List String :=
  (shortenings (names path).reverse).tail.map fun ns => ofNames ns.reverse

end Path

end Highlight.Files
