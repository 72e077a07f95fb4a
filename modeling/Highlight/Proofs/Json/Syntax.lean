import Highlight.Json.Collection
import Highlight.Proofs.Text.Encoding

/-! The grammar of JSON: which bytes spell which value. White space may stand around every value, a
string may spell a character in several ways, and a number may not be beyond the range of numbers. -/

namespace Highlight.Json

inductive Value
  | null
  | boolean (b : Bool)
  | number (n : Number)
  | text (s : String)
  | array (items : List Value)
  | object (members : List (String × Value))

def Blank (w : Bytes) : Prop := ∀ b ∈ w, isSpace b = true

lemma Blank.nil : Blank [] := by simp [Blank]

lemma Blank.append {w w' : Bytes} (h : Blank w) (h' : Blank w') : Blank (w ++ w') :=
  List.forall_mem_append.mpr ⟨h, h'⟩

def HexQuad (q : Bytes) (n : ℕ) : Prop :=
  ∃ a b c d a' b' c' d', q = [a, b, c, d] ∧ hexByte? a = some a' ∧ hexByte? b = some b' ∧
    hexByte? c = some c' ∧ hexByte? d = some d' ∧ n = ((a' * 16 + b') * 16 + c') * 16 + d'

inductive SpellsChar : Char → Bytes → Prop
  | plain {c : Char} (hq : c ≠ '"') (hb : c ≠ '\\') (hc : 0x20 ≤ c.toNat) :
      SpellsChar c (String.utf8EncodeChar c)
  | short {b x : UInt8} (h : simpleEscape? b = some x) :
      SpellsChar (Char.ofNat x.toNat) [backslash, b]
  | unit {c : Char} {q : Bytes} (h : HexQuad q c.toNat) : SpellsChar c (backslash :: 0x75 :: q)
  | pair {high low : ℕ} {q r : Bytes} (hq : HexQuad q high) (hr : HexQuad r low)
      (hh : isLeadingSurrogate high) (hl : isTrailingSurrogate low) :
      SpellsChar (Char.ofNat (surrogatePair high low))
        (backslash :: 0x75 :: (q ++ backslash :: 0x75 :: r))

inductive SpellsChars : List Char → Bytes → Prop
  | nil : SpellsChars [] []
  | cons {c : Char} {cs : List Char} {b bs : Bytes} : SpellsChar c b → SpellsChars cs bs →
      SpellsChars (c :: cs) (b ++ bs)

def SpellsText (s : String) (b : Bytes) : Prop :=
  ∃ t, SpellsChars s.toList t ∧ b = quote :: (t ++ [quote])

structure Exponent where
  mark : UInt8
  sign : Option UInt8
  first : UInt8
  more : Bytes
  mark_eq : Number.isExponentMark mark = true
  sign_eq : ∀ b ∈ sign, b = 0x2b ∨ b = minus
  first_digit : Number.isDigit first = true
  more_digits : ∀ b ∈ more, Number.isDigit b = true

/-- A number as it is written. A zero in front stands alone before the point. -/
structure Numeral where
  negative : Bool
  first : UInt8
  whole : Bytes
  fraction : Option (UInt8 × Bytes)
  exponent : Option Exponent
  first_digit : Number.isDigit first = true
  whole_digits : ∀ b ∈ whole, Number.isDigit b = true
  no_leading_zero : first = 0x30 → whole = []
  fraction_digits : ∀ f ∈ fraction, ∀ b ∈ f.1 :: f.2, Number.isDigit b = true

def Exponent.text (e : Exponent) : Bytes := e.mark :: (e.sign.toList ++ e.first :: e.more)

namespace Numeral

open Number

def fractionText (n : Numeral) : Bytes := n.fraction.elim [] fun f => 0x2e :: f.1 :: f.2

def exponentText (n : Numeral) : Bytes := n.exponent.elim [] Exponent.text

def text (n : Numeral) : Bytes :=
  (if n.negative then [minus] else []) ++
    n.first :: (n.whole ++ (n.fractionText ++ n.exponentText))

def wholePart (n : Numeral) : Scaled := (n.first :: n.whole).foldl Scaled.pushWhole ⟨0, 0, false⟩

def significand (n : Numeral) : Scaled :=
  match n.fraction with
  | none => n.wholePart
  | some f => (f.1 :: f.2).foldl Scaled.pushFraction { n.wholePart with full := false }

def scaled (m : Scaled) (negative : Bool) (e : Exponent) : Option Number :=
  let down := e.sign = some minus
  match exponentDigits (digitValue e.first) e.more with
  | .ok p => ({ m with power := if down then m.power - p else m.power + p }.real negative []).toOption
  | .error _ =>
    if m.significand ≠ 0 ∧ ¬ down then none else some (.real (if negative then -0.0 else 0.0))

def value? (n : Numeral) : Option Number :=
  match n.exponent, n.fraction with
  | some e, _ => scaled n.significand n.negative e
  | none, some _ => (n.significand.real n.negative []).toOption
  | none, none => (n.wholePart.integer n.negative []).toOption

end Numeral

mutual

inductive Spells : Value → Bytes → Prop
  | null : Spells .null [0x6e, 0x75, 0x6c, 0x6c]
  | yes : Spells (.boolean true) [0x74, 0x72, 0x75, 0x65]
  | no : Spells (.boolean false) [0x66, 0x61, 0x6c, 0x73, 0x65]
  | number {n : Numeral} {x : Number} : n.value? = some x → Spells (.number x) n.text
  | text {s : String} {b : Bytes} : SpellsText s b → Spells (.text s) b
  | emptyArray {w : Bytes} : Blank w → Spells (.array []) (openBracket :: (w ++ [closeBracket]))
  | array {v : Value} {vs : List Value} {w b w' c : Bytes} : Blank w → Spells v b → Blank w' →
      SpellsItems vs c →
      Spells (.array (v :: vs)) (openBracket :: (w ++ (b ++ (w' ++ (c ++ [closeBracket])))))
  | emptyObject {w : Bytes} : Blank w → Spells (.object []) (openBrace :: (w ++ [closeBrace]))
  | object {k : String} {v : Value} {ms : List (String × Value)} {w b w' c : Bytes} : Blank w →
      SpellsMember (k, v) b → Blank w' → SpellsMembers ms c →
      Spells (.object ((k, v) :: ms)) (openBrace :: (w ++ (b ++ (w' ++ (c ++ [closeBrace])))))

inductive SpellsItems : List Value → Bytes → Prop
  | nil : SpellsItems [] []
  | cons {v : Value} {vs : List Value} {w b w' c : Bytes} : Blank w → Spells v b → Blank w' →
      SpellsItems vs c → SpellsItems (v :: vs) (comma :: (w ++ (b ++ (w' ++ c))))

inductive SpellsMember : String × Value → Bytes → Prop
  | intro {k : String} {v : Value} {kb w w' b : Bytes} : SpellsText k kb → Blank w → Blank w' →
      Spells v b → SpellsMember (k, v) (kb ++ (w ++ colon :: (w' ++ b)))

inductive SpellsMembers : List (String × Value) → Bytes → Prop
  | nil : SpellsMembers [] []
  | cons {k : String} {v : Value} {ms : List (String × Value)} {w b w' c : Bytes} : Blank w →
      SpellsMember (k, v) b → Blank w' → SpellsMembers ms c →
      SpellsMembers ((k, v) :: ms) (comma :: (w ++ (b ++ (w' ++ c))))

end

end Highlight.Json
