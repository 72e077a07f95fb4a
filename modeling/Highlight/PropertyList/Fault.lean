import Highlight.Misfit

/-! What can be wrong with a property list, where, and how it is said. -/

namespace Highlight.PropertyList

inductive EventKind
  | startArray
  | startDictionary
  | endCollection
  | boolean
  | data
  | date
  | integer
  | real
  | text
  | uid
  | valueOrStartCollection

def EventKind.name : EventKind → String
  | .startArray => "StartArray"
  | .startDictionary => "StartDictionary"
  | .endCollection => "EndCollection"
  | .boolean => "Boolean"
  | .data => "Data"
  | .date => "Date"
  | .integer => "Integer"
  | .real => "Real"
  | .text => "String"
  | .uid => "Uid"
  | .valueOrStartCollection => "ValueOrStartCollection"

inductive Cause
  | unexpectedEof
  | unexpectedEndOfEventStream
  | unexpectedEventType (expected found : EventKind)
  | misfit (m : Misfit)
  | tooShort
  | seekBeforeStart
  | unclosedXmlElement
  | unexpectedXmlCharacters
  | unexpectedXmlOpeningTag
  | unknownXmlElement
  | invalidXmlSyntax
  | invalidXmlUtf8
  | invalidDataString
  | invalidDateString
  | invalidIntegerString
  | invalidRealString
  | incompleteComment
  | invalidUtf8AsciiStream
  | invalidOctalString
  | unclosedString
  | invalidUtf8String
  | invalidUtf16String
  | invalidTrailerOffsetSize
  | invalidTrailerReferenceSize
  | objectOffsetTooLarge
  | objectReferenceTooLarge
  | recursiveObject
  | nullObject
  | fillObject
  | unknownObjectType (marker : Nat)
  | integerOutOfRange
  | overflowOrNanDate

def endOfFile : String := "failed to fill whole buffer"

def negativeSeek : String := "invalid seek to a negative or overflowing position"

def inputFailure (kind message : String) : String :=
  "Io(Error \x7b kind: " ++ kind ++ ", message: " ++ Shown.text message ++ " \x7d)"

def Cause.name : Cause → String
  | .unexpectedEof => "UnexpectedEof"
  | .unexpectedEndOfEventStream => "UnexpectedEndOfEventStream"
  | .unexpectedEventType expected found =>
    "UnexpectedEventType \x7b expected: " ++ expected.name ++ ", found: " ++ found.name ++ " \x7d"
  | .misfit m => "Serde(" ++ Shown.text (m.message .full) ++ ")"
  | .tooShort => inputFailure "UnexpectedEof" endOfFile
  | .seekBeforeStart => inputFailure "InvalidInput" negativeSeek
  | .unclosedXmlElement => "UnclosedXmlElement"
  | .unexpectedXmlCharacters => "UnexpectedXmlCharactersExpectedElement"
  | .unexpectedXmlOpeningTag => "UnexpectedXmlOpeningTag"
  | .unknownXmlElement => "UnknownXmlElement"
  | .invalidXmlSyntax => "InvalidXmlSyntax"
  | .invalidXmlUtf8 => "InvalidXmlUtf8"
  | .invalidDataString => "InvalidDataString"
  | .invalidDateString => "InvalidDateString"
  | .invalidIntegerString => "InvalidIntegerString"
  | .invalidRealString => "InvalidRealString"
  | .incompleteComment => "IncompleteComment"
  | .invalidUtf8AsciiStream => "InvalidUtf8AsciiStream"
  | .invalidOctalString => "InvalidOctalString"
  | .unclosedString => "UnclosedString"
  | .invalidUtf8String => "InvalidUtf8String"
  | .invalidUtf16String => "InvalidUtf16String"
  | .invalidTrailerOffsetSize => "InvalidTrailerObjectOffsetSize"
  | .invalidTrailerReferenceSize => "InvalidTrailerObjectReferenceSize"
  | .objectOffsetTooLarge => "ObjectOffsetTooLarge"
  | .objectReferenceTooLarge => "ObjectReferenceTooLarge"
  | .recursiveObject => "RecursiveObject"
  | .nullObject => "NullObjectUnimplemented"
  | .fillObject => "FillObjectUnimplemented"
  | .unknownObjectType marker => s!"UnknownObjectType({marker})"
  | .integerOutOfRange => "IntegerOutOfRange"
  | .overflowOrNanDate => "OverflowOrNanDate"

structure Fault where
  cause : Cause
  offset : Option Nat := none

namespace Fault

def before (size : Nat) (cause : Cause) (rest : List UInt8) : Fault :=
  ⟨cause, some (size - rest.length)⟩

def messages (f : Fault) : List String :=
  let place := match f.offset with
    | some n => s!" (offset {n})"
    | none => ""
  let under := match f.cause with
    | .tooShort => [endOfFile]
    | .seekBeforeStart => [negativeSeek]
    | _ => []
  (f.cause.name ++ place) :: under

end Fault

end Highlight.PropertyList
