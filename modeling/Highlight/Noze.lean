import Highlight.Format

/-! The grammar of the Noze language. Its rules stand in order of precedence: the header of a
function before the rule for types, and the keywords before plain identifiers. -/

namespace Highlight.Noze

def keywords : List String :=
  ["_", "as", "assert", "c", "case", "catch", "copy", "do", "else", "from", "get", "if", "include",
    "io", "import", "pass", "private", "set", "spec", "try", "when",
    "\\<", "\\>", "\\<\\=", "\\>\\=", "\\+", "\\-", "\\*", "\\/"]

def wordPattern (alternatives : List String) : String :=
  "\\b(" ++ "|".intercalate alternatives ++ ")\\b"

def keywordPattern : String := wordPattern keywords

def single (name pattern : String) (spec : Option CaptureSpec) : Rule :=
  .single name pattern (spec.map (·.captures))

def header : Rule :=
  single "keyword" "^\\s*(fun)\\s+([A-Z][a-zA-Z0-9\\-]*)\\s+([a-zA-Z0-9\\-]*)"
    (some (.ofLabels [("2", "support.type"), ("3", "string.quoted")]))

def typeName : Rule := single "support.type" "(\\?|\\$)?[A-Z][a-zA-Z0-9\\-]*" none

def keyword : Rule := single "keyword" keywordPattern none

def identifier : Rule := single "" "\\b[a-z][a-zA-Z0-9\\-]*\\b" none

def punctuation : Rule := single "comment" "\\.|\\,|=|\\\\" none

def stringEscape : Rule := single "keyword" "\\\\." none

def interpolation : Rule :=
  single "keyword" "\\\x7b([^\x7d])\\\x7d" (some (.single "string.interpolated"))

def stringLiteral : Rule :=
  .region "string.quoted" "\"" "\"" (some [stringEscape, interpolation]) none none

def comment : Rule := single "comment" "\\|\\s.*" none

def bracket : Rule := single "variable.other" "[\\(\\)\\[\\]\\\x7b\\\x7d\\<\\>]" none

def number : Rule :=
  -- Octal digits include the 8, and hexadecimal ones are in lower case only.
  single "constant.numeric" "[\\+\\-]?((0((b[01]+)|(o[0-8]+)|(x[\\da-f]+)))|(\\d+(\\.\\d+)?))" none

def patterns : List Rule :=
  [header, typeName, keyword, identifier, punctuation, stringLiteral, comment, bracket, number]

def grammar : Grammar := ⟨"Noze", "source.noze", ["nz"], patterns⟩

def defaultOutput : Output := ⟨"syntaxes/noze.tmLanguage", .propertyList⟩

def jsonOutput : Output := ⟨"grammars/noze.json", .json⟩

end Highlight.Noze
