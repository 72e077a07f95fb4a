import Highlight.Unicode.Category
import Highlight.Unicode.Sets

/-! Classes of characters. Where a class has a plain meaning for ASCII, that meaning is its
definition there. -/

namespace Highlight.Unicode

def inSet (bounds : Array Nat) (c : Char) : Bool := Table.contains bounds c.toNat

def isAscii (c : Char) : Bool := c.toNat < 0x80

def hasCategory (cs : List Category) (c : Char) : Bool := cs.contains (category c)

def letterCategories : List Category :=
  [.uppercaseLetter, .lowercaseLetter, .titlecaseLetter, .modifierLetter, .otherLetter]

def markCategories : List Category := [.nonspacingMark, .spacingMark, .enclosingMark]

def numberCategories : List Category := [.decimalNumber, .letterNumber, .otherNumber]

def punctuationCategories : List Category :=
  [.connectorPunctuation, .dashPunctuation, .openPunctuation, .closePunctuation,
    .initialPunctuation, .finalPunctuation, .otherPunctuation]

def symbolCategories : List Category := [.mathSymbol, .currencySymbol, .modifierSymbol, .otherSymbol]

def separatorCategories : List Category := [.spaceSeparator, .lineSeparator, .paragraphSeparator]

def otherCategories : List Category := [.control, .format, .surrogate, .privateUse, .unassigned]

def isAlphabetic (c : Char) : Bool :=
  if isAscii c then c.isAlpha
  else hasCategory (.letterNumber :: letterCategories) c || inSet Sets.otherAlphabetic c

def isDigit (c : Char) : Bool :=
  if isAscii c then c.isDigit else category c == .decimalNumber

def isWord (c : Char) : Bool :=
  isAlphabetic c || isDigit c || c == '_' ||
    (!isAscii c && (hasCategory markCategories c || category c == .connectorPunctuation))

def isSpace (c : Char) : Bool :=
  if isAscii c then c == ' ' || ('\t' ≤ c && c ≤ '\r') else inSet Sets.whiteSpace c

def isUppercase (c : Char) : Bool :=
  if isAscii c then c.isUpper else category c == .uppercaseLetter || inSet Sets.otherUppercase c

def isLowercase (c : Char) : Bool :=
  if isAscii c then c.isLower else category c == .lowercaseLetter || inSet Sets.otherLowercase c

def isHexDigit (c : Char) : Bool :=
  c.isDigit || ('a' ≤ c && c ≤ 'f') || ('A' ≤ c && c ≤ 'F')

def isAlphanumeric (c : Char) : Bool := isAlphabetic c || isDigit c

def isBlank (c : Char) : Bool := c == '\t' || category c == .spaceSeparator

def isControl (c : Char) : Bool := category c == .control

def isPunctuation (c : Char) : Bool :=
  hasCategory punctuationCategories c || (isAscii c && hasCategory symbolCategories c)

def isGraph (c : Char) : Bool :=
  !isSpace c && !hasCategory [.control, .surrogate, .unassigned] c

def isPrint (c : Char) : Bool := isGraph c || category c == .spaceSeparator

def isGraphemeExtend (c : Char) : Bool :=
  hasCategory [.nonspacingMark, .enclosingMark] c || inSet Sets.otherGraphemeExtend c

def isVisible (c : Char) : Bool :=
  c == ' ' || !(hasCategory otherCategories c || hasCategory separatorCategories c)

end Highlight.Unicode
