/-! What can be wrong with a pattern. -/

namespace Highlight.Pattern

inductive Fault
  | depthLimit
  | emptyClass
  | unclosedClass
  | endAtEscape
  | endAtMeta
  | endAtControl
  | invalidMeta
  | invalidControl
  | classAtEndOfRange
  | unmatchedRange
  | repeatWithoutTarget
  | repeatOfInvalidTarget
  | unmatchedClose
  | unmatchedOpen
  | endInGroup
  | undefinedOption
  | invalidBracketType
  | invalidLookBehind
  | tooBigNumber
  | tooBigRepeat
  | emptyRange
  | shortByteSequence
  | invalidReference
  | numberedReference
  | tooLongCode
  | emptyName
  | invalidName (name : String)
  | invalidCharacterInName (name : String)
  | undefinedName (name : String)
  | undefinedGroup (name : String)
  | ambiguousCall (name : String)
  | endlessRecursion
  | unknownProperty (name : String)
  | invalidConditional
  | invalidCode
  | tooBigCode
  deriving DecidableEq

namespace Fault

def code : Fault → Int
  | .depthLimit => -16
  | .emptyClass => -102
  | .unclosedClass => -103
  | .endAtEscape => -104
  | .endAtMeta => -105
  | .endAtControl => -106
  | .invalidMeta => -108
  | .invalidControl => -109
  | .classAtEndOfRange => -110
  | .unmatchedRange => -112
  | .repeatWithoutTarget => -113
  | .repeatOfInvalidTarget => -114
  | .unmatchedClose => -116
  | .unmatchedOpen => -117
  | .endInGroup => -118
  | .undefinedOption => -119
  | .invalidBracketType => -121
  | .invalidLookBehind => -122
  | .tooBigNumber => -200
  | .tooBigRepeat => -201
  | .emptyRange => -203
  | .shortByteSequence => -206
  | .invalidReference => -208
  | .numberedReference => -209
  | .tooLongCode => -212
  | .emptyName => -214
  | .invalidName _ => -215
  | .invalidCharacterInName _ => -216
  | .undefinedName _ => -217
  | .undefinedGroup _ => -218
  | .ambiguousCall _ => -220
  | .endlessRecursion => -221
  | .unknownProperty _ => -223
  | .invalidConditional => -224
  | .invalidCode => -400
  | .tooBigCode => -401

def shown (name : String) : String :=
  if name.utf8ByteSize ≤ 30 then name
  else String.ofList (start 27 name.toList ++ "...".toList)
where
  start (room : Nat) : List Char → List Char
    | [] => []
    | c :: cs => if c.utf8Size ≤ room then c :: start (room - c.utf8Size) cs else []

def description : Fault → String
  | .depthLimit => "parse depth limit over"
  | .emptyClass => "empty char-class"
  | .unclosedClass => "premature end of char-class"
  | .endAtEscape => "end pattern at escape"
  | .endAtMeta => "end pattern at meta"
  | .endAtControl => "end pattern at control"
  | .invalidMeta => "invalid meta-code syntax"
  | .invalidControl => "invalid control-code syntax"
  | .classAtEndOfRange => "char-class value at end of range"
  | .unmatchedRange => "unmatched range specifier in char-class"
  | .repeatWithoutTarget => "target of repeat operator is not specified"
  | .repeatOfInvalidTarget => "target of repeat operator is invalid"
  | .unmatchedClose => "unmatched close parenthesis"
  | .unmatchedOpen => "end pattern with unmatched parenthesis"
  | .endInGroup => "end pattern in group"
  | .undefinedOption => "undefined group option"
  | .invalidBracketType => "invalid POSIX bracket type"
  | .invalidLookBehind => "invalid pattern in look-behind"
  | .tooBigNumber => "too big number"
  | .tooBigRepeat => "too big number for repeat range"
  | .emptyRange => "empty range in char class"
  | .shortByteSequence => "too short multibyte code string"
  | .invalidReference => "invalid backref number/name"
  | .numberedReference => "numbered backref/call is not allowed. (use name)"
  | .tooLongCode => "too long wide-char value"
  | .emptyName => "group name is empty"
  | .invalidName name => "invalid group name <" ++ shown name ++ ">"
  | .invalidCharacterInName name => "invalid char in group name <" ++ shown name ++ ">"
  | .undefinedName name => "undefined name <" ++ shown name ++ "> reference"
  | .undefinedGroup name => "undefined group <" ++ shown name ++ "> reference"
  | .ambiguousCall name => "multiplex definition name <" ++ shown name ++ "> call"
  | .endlessRecursion => "never ending recursion"
  | .unknownProperty name => "invalid character property name \x7b" ++ shown name ++ "\x7d"
  | .invalidConditional => "invalid if-else syntax"
  | .invalidCode => "invalid code point value"
  | .tooBigCode => "too big wide-char value"

def message (f : Fault) : String := "Oniguruma error: " ++ f.description

end Fault

end Highlight.Pattern
