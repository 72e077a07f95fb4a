import Highlight.Document
import Highlight.Json.Quoted

/-! Documents as JSON, on one line and indented by tabs. -/

namespace Highlight.Json

open Document

mutual

def compact : Document → List Char
  | .text s => quoted s
  | .list items => '[' :: (compactItems items ++ [']'])
  | .record members => '\x7b' :: (compactMembers members ++ ['\x7d'])

def compactItems : List Document → List Char
  | [] => []
  | [d] => compact d
  | d :: e :: ds => compact d ++ ',' :: compactItems (e :: ds)

def compactMembers : List (String × Document) → List Char
  | [] => []
  | [(k, d)] => quoted k ++ ':' :: compact d
  | (k, d) :: e :: ms => quoted k ++ ':' :: (compact d ++ ',' :: compactMembers (e :: ms))

end

def newline (depth : Nat) : List Char := '\n' :: List.replicate depth '\t'

mutual

/-- JSON with every item and member on a line of its own, indented by one tab for each bracket that
is open; an empty list or record is written without a line break. -/
def indented (depth : Nat) : Document → List Char
  | .text s => quoted s
  | .list [] => ['[', ']']
  | .list (d :: ds) => '[' :: (indentedItems (depth + 1) (d :: ds) ++ newline depth ++ [']'])
  | .record [] => ['\x7b', '\x7d']
  | .record (m :: ms) => '\x7b' :: (indentedMembers (depth + 1) (m :: ms) ++ newline depth ++ ['\x7d'])

def indentedItems (depth : Nat) : List Document → List Char
  | [] => []
  | [d] => newline depth ++ indented depth d
  | d :: e :: ds => newline depth ++ (indented depth d ++ ',' :: indentedItems depth (e :: ds))

def indentedMembers (depth : Nat) : List (String × Document) → List Char
  | [] => []
  | [(k, d)] => newline depth ++ (quoted k ++ ':' :: ' ' :: indented depth d)
  | (k, d) :: e :: ms =>
    newline depth ++ (quoted k ++ ':' :: ' ' ::
      (indented depth d ++ ',' :: indentedMembers depth (e :: ms)))

end

end Highlight.Json
