import Highlight.Pattern.CharSet
import Highlight.Pattern.Source
import Highlight.Unicode.Property

/-! Sets of characters that patterns know by a letter or by a name. -/

namespace Highlight.Pattern.Property

open Reader

def isAscii (o : Options) (name : String) : Bool :=
  (o.asciiPosix && (Unicode.Property.posix? name).isSome) || (name == "word" && o.asciiWord) ||
    (name == "digit" && o.asciiDigit) || (name == "space" && o.asciiSpace)

def posixSet (o : Options) (name : String) (p : Unicode.Property) : CharSet :=
  CharSet.asciiIf (isAscii o name) (.property p)

def wordSet (o : Options) : CharSet := posixSet o "word" .word

def digitSet (o : Options) : CharSet := posixSet o "digit" .digit

def spaceSet (o : Options) : CharSet := posixSet o "space" .space

def hexDigitSet : CharSet := .property .hexDigit

def letterSet? (o : Options) : Char → Option CharSet
  | 'w' => some (wordSet o)
  | 'W' => some (.compl (wordSet o))
  | 'd' => some (digitSet o)
  | 'D' => some (.compl (digitSet o))
  | 's' => some (spaceSet o)
  | 'S' => some (.compl (spaceSet o))
  | 'h' => some hexDigitSet
  | 'H' => some (.compl hexDigitSet)
  | _ => none

def namedSet? (o : Options) (name : String) : Option CharSet :=
  (Unicode.Property.named? name).map (posixSet o (Unicode.Property.normalName name))

def endsName (c : Char) : Bool :=
  c == '\x7d' || c == '(' || c == ')' || c == '\x7b' || c == '|'

def name (o : Options) (negated : Bool) : Reader CharSet := do
  let cs ← rest
  let inside := cs.takeWhile (!endsName ·)
  match cs.dropWhile (!endsName ·) with
  | '\x7d' :: r =>
    match namedSet? o (String.ofList inside) with
    | some s =>
      setRest r
      return CharSet.negatedIf negated s
    | none => refuse (.unknownProperty (String.ofList inside))
  | _ :: _ => refuse (.unknownProperty (String.ofList inside))
  | [] => refuse (.unknownProperty (String.ofList inside.dropLast))

end Highlight.Pattern.Property
