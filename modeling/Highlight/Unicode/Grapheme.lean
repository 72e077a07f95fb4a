import Highlight.Unicode.Class

/-! Where a text may be cut without tearing apart what a reader takes for one character. -/

namespace Highlight.Unicode.Grapheme

inductive Joining
  | carriageReturn
  | lineFeed
  | control
  | extender
  | joiner
  | spacing
  | prepended
  | indicator
  | pictograph
  | leadingJamo
  | vowelJamo
  | trailingJamo
  | openSyllable
  | closedSyllable
  | other
  deriving DecidableEq

def isControl (c : Char) : Bool :=
  hasCategory [.lineSeparator, .paragraphSeparator, .control] c ||
    (category c == .format && !inSet Sets.prependedConcatenationMark c) ||
    (category c == .unassigned && inSet Sets.defaultIgnorable c)

def isSpacing (c : Char) : Bool := (category c == .spacingMark) != inSet Sets.otherSpacing c

def syllable? (n : Nat) : Option Joining :=
  if 0xAC00 ≤ n ∧ n ≤ 0xD7A3 then
    some (if (n - 0xAC00) % 28 = 0 then .openSyllable else .closedSyllable)
  else none

def jamo? (n : Nat) : Option Joining :=
  if (0x1100 ≤ n ∧ n ≤ 0x115F) ∨ (0xA960 ≤ n ∧ n ≤ 0xA97C) then some .leadingJamo
  else if (0x1160 ≤ n ∧ n ≤ 0x11A7) ∨ (0xD7B0 ≤ n ∧ n ≤ 0xD7C6) then some .vowelJamo
  else if (0x11A8 ≤ n ∧ n ≤ 0x11FF) ∨ (0xD7CB ≤ n ∧ n ≤ 0xD7FB) then some .trailingJamo
  else none

def joining (c : Char) : Joining :=
  if c = '\r' then .carriageReturn
  else if c = '\n' then .lineFeed
  else if c.toNat = 0x200D then .joiner
  else if isGraphemeExtend c || inSet Sets.emojiModifier c then .extender
  else if isControl c then .control
  else if inSet Sets.regionalIndicator c then .indicator
  else if inSet Sets.prependedConcatenationMark c || inSet Sets.otherGraphemePrepend c then .prepended
  else if isSpacing c then .spacing
  else if inSet Sets.extendedPictographic c then .pictograph
  else (syllable? c.toNat <|> jamo? c.toNat).getD .other

def isControlling : Joining → Bool
  | .carriageReturn | .lineFeed | .control => true
  | _ => false

def joinsSyllable : Joining → Joining → Bool
  | .leadingJamo, .leadingJamo | .leadingJamo, .vowelJamo | .leadingJamo, .openSyllable
  | .leadingJamo, .closedSyllable => true
  | .openSyllable, .vowelJamo | .openSyllable, .trailingJamo | .vowelJamo, .vowelJamo
  | .vowelJamo, .trailingJamo => true
  | .closedSyllable, .trailingJamo | .trailingJamo, .trailingJamo => true
  | _, _ => false

def endsJoinedPictograph : List Char → Bool
  | z :: rest =>
    joining z == .joiner &&
      ((rest.dropWhile (joining · == .extender)).head?.any (joining · == .pictograph))
  | [] => false

def isBoundary (before after : List Char) : Bool :=
  match before, after with
  | [], _ | _, [] => true
  | p :: earlier, c :: _ =>
    let a := joining p
    let b := joining c
    if a = .carriageReturn ∧ b = .lineFeed then false
    else if isControlling a || isControlling b then true
    else if joinsSyllable a b then false
    else if b = .extender ∨ b = .joiner ∨ b = .spacing ∨ a = .prepended then false
    else if b = .pictograph ∧ endsJoinedPictograph (p :: earlier) then false
    else if a = .indicator ∧ b = .indicator then
      ((p :: earlier).takeWhile (joining · == .indicator)).length % 2 == 0
    else true

end Highlight.Unicode.Grapheme
