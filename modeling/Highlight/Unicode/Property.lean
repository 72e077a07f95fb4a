import Highlight.Unicode.Class
import Highlight.Unicode.Script

/-! Character properties, and their names. Case, spaces, hyphens and underscores in a name do not count. -/

namespace Highlight.Unicode

inductive Property
  | alphanumeric
  | alphabetic
  | blank
  | control
  | digit
  | graph
  | lowercase
  | print
  | punctuation
  | space
  | uppercase
  | hexDigit
  | ascii
  | word
  | any
  | assigned
  | newline
  | math
  | cased
  | caseIgnorable
  | idStart
  | idContinue
  | xidStart
  | xidContinue
  | graphemeBase
  | graphemeExtend
  | oneOf (categories : List Category)
  | within (bounds : Array Nat)
  deriving DecidableEq

namespace Property

def isCased (c : Char) : Bool := isUppercase c || isLowercase c || category c == .titlecaseLetter

def isIdStart (c : Char) : Bool :=
  (hasCategory (.letterNumber :: letterCategories) c || inSet Sets.otherIdStart c) &&
    !inSet Sets.patternSyntax c && !inSet Sets.patternWhiteSpace c || inSet Sets.otherIdStart c

def isIdContinue (c : Char) : Bool :=
  isIdStart c || hasCategory [.nonspacingMark, .spacingMark, .decimalNumber, .connectorPunctuation] c ||
    inSet Sets.otherIdContinue c

def isXidStart (c : Char) : Bool := isIdStart c && !inSet Sets.xidException c

def isXidContinue (c : Char) : Bool := isIdContinue c && !inSet Sets.xidContinueException c

def isCaseIgnorable (c : Char) : Bool :=
  hasCategory [.nonspacingMark, .enclosingMark, .format, .modifierLetter, .modifierSymbol] c ||
    inSet Sets.otherCaseIgnorable c

def isGraphemeBase (c : Char) : Bool :=
  !hasCategory (.lineSeparator :: .paragraphSeparator :: otherCategories) c && !isGraphemeExtend c

def holds : Property → Char → Bool
  | .alphanumeric => isAlphanumeric
  | .alphabetic => isAlphabetic
  | .blank => isBlank
  | .control => isControl
  | .digit => isDigit
  | .graph => isGraph
  | .lowercase => isLowercase
  | .print => isPrint
  | .punctuation => isPunctuation
  | .space => isSpace
  | .uppercase => isUppercase
  | .hexDigit => isHexDigit
  | .ascii => isAscii
  | .word => isWord
  | .any => fun _ => true
  | .assigned => (category · != .unassigned)
  | .newline => (· == '\n')
  | .math => fun c => category c == .mathSymbol || inSet Sets.otherMath c
  | .cased => isCased
  | .caseIgnorable => isCaseIgnorable
  | .idStart => isIdStart
  | .idContinue => isIdContinue
  | .xidStart => isXidStart
  | .xidContinue => isXidContinue
  | .graphemeBase => isGraphemeBase
  | .graphemeExtend => isGraphemeExtend
  | .oneOf cs => hasCategory cs
  | .within bounds => inSet bounds

def posix : List (String × Property) :=
  [("alnum", .alphanumeric), ("alpha", .alphabetic), ("blank", .blank), ("cntrl", .control),
    ("digit", .digit), ("graph", .graph), ("lower", .lowercase), ("print", .print),
    ("punct", .punctuation), ("space", .space), ("upper", .uppercase), ("xdigit", .hexDigit),
    ("ascii", .ascii), ("word", .word)]

def categories : List (String × String × List Category) :=
  [("l", "letter", letterCategories), ("lc", "casedletter", [.uppercaseLetter, .lowercaseLetter,
      .titlecaseLetter]),
    ("lu", "uppercaseletter", [.uppercaseLetter]), ("ll", "lowercaseletter", [.lowercaseLetter]),
    ("lt", "titlecaseletter", [.titlecaseLetter]), ("lm", "modifierletter", [.modifierLetter]),
    ("lo", "otherletter", [.otherLetter]), ("m", "mark", markCategories),
    ("mn", "nonspacingmark", [.nonspacingMark]), ("mc", "spacingmark", [.spacingMark]),
    ("me", "enclosingmark", [.enclosingMark]), ("n", "number", numberCategories),
    ("nd", "decimalnumber", [.decimalNumber]), ("nl", "letternumber", [.letterNumber]),
    ("no", "othernumber", [.otherNumber]), ("p", "punctuation", punctuationCategories),
    ("pc", "connectorpunctuation", [.connectorPunctuation]),
    ("pd", "dashpunctuation", [.dashPunctuation]), ("ps", "openpunctuation", [.openPunctuation]),
    ("pe", "closepunctuation", [.closePunctuation]),
    ("pi", "initialpunctuation", [.initialPunctuation]),
    ("pf", "finalpunctuation", [.finalPunctuation]), ("po", "otherpunctuation", [.otherPunctuation]),
    ("s", "symbol", symbolCategories), ("sm", "mathsymbol", [.mathSymbol]),
    ("sc", "currencysymbol", [.currencySymbol]), ("sk", "modifiersymbol", [.modifierSymbol]),
    ("so", "othersymbol", [.otherSymbol]), ("z", "separator", separatorCategories),
    ("zs", "spaceseparator", [.spaceSeparator]), ("zl", "lineseparator", [.lineSeparator]),
    ("zp", "paragraphseparator", [.paragraphSeparator]), ("c", "other", otherCategories),
    ("cc", "control", [.control]), ("cf", "format", [.format]), ("cs", "surrogate", [.surrogate]),
    ("co", "privateuse", [.privateUse]), ("cn", "unassigned", [.unassigned]),
    ("combiningmark", "combiningmark", markCategories)]

def binary : List (String × String × Property) :=
  [("any", "any", .any), ("assigned", "assigned", .assigned), ("newline", "newline", .newline),
    ("alpha", "alphabetic", .alphabetic), ("upper", "uppercase", .uppercase),
    ("lower", "lowercase", .lowercase), ("wspace", "whitespace", .space),
    ("math", "math", .math), ("cased", "cased", .cased),
    ("ci", "caseignorable", .caseIgnorable),
    ("ids", "idstart", .idStart), ("idc", "idcontinue", .idContinue),
    ("xids", "xidstart", .xidStart), ("xidc", "xidcontinue", .xidContinue),
    ("grbase", "graphemebase", .graphemeBase), ("grext", "graphemeextend", .graphemeExtend),
    ("ahex", "asciihexdigit", .hexDigit), ("hex", "hexdigit", .within Sets.hexDigit),
    ("extpict", "extendedpictographic", .within Sets.extendedPictographic),
    ("emoji", "emoji", .within Sets.emoji), ("ecomp", "emojicomponent", .within Sets.emojiComponent),
    ("emod", "emojimodifier", .within Sets.emojiModifier),
    ("ebase", "emojimodifierbase", .within Sets.emojiModifierBase),
    ("epres", "emojipresentation", .within Sets.emojiPresentation),
    ("pcm", "prependedconcatenationmark", .within Sets.prependedConcatenationMark),
    ("dash", "dash", .within Sets.dash), ("hyphen", "hyphen", .within Sets.hyphen),
    ("dia", "diacritic", .within Sets.diacritic), ("ext", "extender", .within Sets.extender),
    ("ideo", "ideographic", .within Sets.ideographic),
    ("uideo", "unifiedideograph", .within Sets.unifiedIdeograph),
    ("radical", "radical", .within Sets.radical),
    ("idsb", "idsbinaryoperator", .within Sets.idsBinaryOperator),
    ("idst", "idstrinaryoperator", .within Sets.idsTrinaryOperator),
    ("qmark", "quotationmark", .within Sets.quotationMark),
    ("term", "terminalpunctuation", .within Sets.terminalPunctuation),
    ("sterm", "sentenceterminal", .within Sets.sentenceTerminal),
    ("vs", "variationselector", .within Sets.variationSelector),
    ("joinc", "joincontrol", .within Sets.joinControl),
    ("bidic", "bidicontrol", .within Sets.bidiControl), ("sd", "softdotted", .within Sets.softDotted),
    ("loe", "logicalorderexception", .within Sets.logicalOrderException),
    ("nchar", "noncharactercodepoint", .within Sets.noncharacter),
    ("dep", "deprecated", .within Sets.deprecated),
    ("ri", "regionalindicator", .within Sets.regionalIndicator),
    ("patsyn", "patternsyntax", .within Sets.patternSyntax),
    ("patws", "patternwhitespace", .within Sets.patternWhiteSpace),
    ("di", "defaultignorablecodepoint", .within Sets.defaultIgnorable),
    ("oalpha", "otheralphabetic", .within Sets.otherAlphabetic),
    ("olower", "otherlowercase", .within Sets.otherLowercase),
    ("oupper", "otheruppercase", .within Sets.otherUppercase),
    ("omath", "othermath", .within Sets.otherMath),
    ("ogrext", "othergraphemeextend", .within Sets.otherGraphemeExtend)]

def normalName (name : String) : String :=
  String.ofList ((name.toList.filter fun c => c != ' ' && c != '-' && c != '_').map Char.toLower)

def posix? (name : String) : Option Property := posix.lookup name

def category? (name : String) : Option Property :=
  (categories.find? fun e => e.1 == name || e.2.1 == name).map fun e => .oneOf e.2.2

def binary? (name : String) : Option Property :=
  (binary.find? fun e => e.1 == name || e.2.1 == name).map (·.2.2)

def script? (name : String) : Option Property :=
  (Script.entries.find? fun e => normalName e.1 == name || normalName e.2.1 == name).map fun e =>
    .within (Table.ofGaps e.2.2)

def named? (name : String) : Option Property :=
  if name.toList.all isAscii then
    let n := normalName name
    posix? n <|> category? n <|> binary? n <|> script? n
  else none

end Property

end Highlight.Unicode
