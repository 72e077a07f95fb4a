import Highlight.Misfit
import Highlight.Text.Bytes

/-! What can be wrong with a JSON document, where, and how it is said. -/

namespace Highlight.Json

inductive Cause
  | endInList
  | endInObject
  | endInString
  | endInValue
  | expectedColon
  | expectedListCommaOrEnd
  | expectedObjectCommaOrEnd
  | expectedIdent
  | expectedValue
  | invalidEscape
  | invalidNumber
  | numberOutOfRange
  | invalidCodePoint
  | controlCharacter
  | keyNotString
  | loneSurrogate
  | trailingComma
  | trailingCharacters
  | endOfHexEscape
  | nestedTooDeeply
  | misfit (m : Misfit)

def Cause.message : Cause → String
  | .endInList => "EOF while parsing a list"
  | .endInObject => "EOF while parsing an object"
  | .endInString => "EOF while parsing a string"
  | .endInValue => "EOF while parsing a value"
  | .expectedColon => "expected `:`"
  | .expectedListCommaOrEnd => "expected `,` or `]`"
  | .expectedObjectCommaOrEnd => "expected `,` or `\x7d`"
  | .expectedIdent => "expected ident"
  | .expectedValue => "expected value"
  | .invalidEscape => "invalid escape"
  | .invalidNumber => "invalid number"
  | .numberOutOfRange => "number out of range"
  | .invalidCodePoint => "invalid unicode code point"
  | .controlCharacter => "control character (\\u0000-\\u001F) found while parsing a string"
  | .keyNotString => "key must be a string"
  | .loneSurrogate => "lone leading surrogate in hex escape"
  | .trailingComma => "trailing comma"
  | .trailingCharacters => "trailing characters"
  | .endOfHexEscape => "unexpected end of hex escape"
  | .nestedTooDeeply => "recursion limit exceeded"
  | .misfit m => m.message .compact

inductive Step
  | key (name : String)
  | index (i : Nat)
  | unknown

def Step.write (first : Bool) : Step → String
  | .key name => (if first then "" else ".") ++ name
  | .index i => s!"[{i}]"
  | .unknown => (if first then "" else ".") ++ "?"

def pathText : List Step → String
  | [] => "."
  | s :: ss => s.write true ++ String.join (ss.map (Step.write false))

structure Fault where
  cause : Cause
  unread : Nat
  path : List Step := []

namespace Fault

def before (cause : Cause) (rest : Bytes) : Fault := { cause, unread := rest.length }

def inFirst (cause : Cause) (rest : Bytes) : Fault := { cause, unread := rest.length - 1 }

def within (s : Step) (f : Fault) : Fault := { f with path := s :: f.path }

def lineAndColumn (read : Bytes) : Nat × Nat :=
  (read.count 10 + 1, (read.reverse.takeWhile (· != 10)).length)

def message (f : Fault) (document : Bytes) : String :=
  let (line, column) := lineAndColumn (document.take (document.length - f.unread))
  f.cause.message ++ s!" at line {line} column {column}"

end Fault

end Highlight.Json
