import Highlight.Document

/-! Documents as XML property lists, indented by tabs. -/

namespace Highlight.PropertyList

def escape (c : Char) : List Char :=
  match c with
  | '<' => "&lt;".toList
  | '>' => "&gt;".toList
  | '&' => "&amp;".toList
  | '\'' => "&apos;".toList
  | '"' => "&quot;".toList
  | '\r' => "&#13;".toList
  | _ => [c]

def element (tag : String) (s : String) : List Char :=
  '<' :: (tag.toList ++ '>' :: (s.toList.flatMap escape ++ '<' :: '/' :: (tag.toList ++ ['>'])))

def indent (depth : Nat) : List Char := List.replicate depth '\t'

mutual

def lines (depth : Nat) : Document → List Char
  | .text s => indent depth ++ element "string" s ++ ['\n']
  | .list [] => indent depth ++ "<array/>\n".toList
  | .list (d :: ds) =>
    indent depth ++ "<array>\n".toList ++ itemLines (depth + 1) (d :: ds) ++
      (indent depth ++ "</array>\n".toList)
  | .record [] => indent depth ++ "<dict/>\n".toList
  | .record (m :: ms) =>
    indent depth ++ "<dict>\n".toList ++ memberLines (depth + 1) (m :: ms) ++
      (indent depth ++ "</dict>\n".toList)

def itemLines (depth : Nat) : List Document → List Char
  | [] => []
  | d :: ds => lines depth d ++ itemLines depth ds

def memberLines (depth : Nat) : List (String × Document) → List Char
  | [] => []
  | (k, d) :: ms => indent depth ++ (element "key" k ++ '\n' :: (lines depth d ++ memberLines depth ms))

end

def documentType : String :=
  "!DOCTYPE plist PUBLIC \"-//Apple//DTD PLIST 1.0//EN\" " ++
    "\"http://www.apple.com/DTDs/PropertyList-1.0.dtd\""

def markupLine (inside : String) : List Char := '<' :: (inside.toList ++ ['>', '\n'])

def header : List Char :=
  markupLine "?xml version=\"1.0\" encoding=\"UTF-8\"?" ++ markupLine documentType ++
    markupLine "plist version=\"1.0\""

def footer : List Char := "</plist>".toList

def printed (d : Document) : List Char := header ++ (lines 0 d ++ footer)

end Highlight.PropertyList
