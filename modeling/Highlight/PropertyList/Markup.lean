import Highlight.PropertyList.Event
import Highlight.Text.Numeral

/-! The pieces of an XML text: runs of characters, references and markup. -/

namespace Highlight.PropertyList.Markup

def ascii (s : String) : Bytes := Bytes.ofString s

def isSpace (b : UInt8) : Bool := b == 0x20 || b == 0x09 || b == 0x0a || b == 0x0d

inductive Piece
  | text (raw : Bytes)
  | reference (raw : Bytes)
  | opening (name : Bytes) (empty : Bool)
  | closing (name : Bytes)
  | declaration
  | other

structure Found (s : Bytes) where
  piece : Piece
  rest : Bytes
  shorter : rest.length < s.length

abbrev Refusal := Cause × Bytes

def after? (target : Bytes) : Bytes → Option Bytes
  | [] => none
  | b :: s =>
    if target.isPrefixOf (b :: s) then some (s.drop (target.length - 1)) else after? target s

theorem length_after? {target s r : Bytes} (h : after? target s = some r) : r.length < s.length := by
  induction s with
  | nil => simp [after?] at h
  | cons b s ih =>
    rw [after?] at h
    split at h
    · simp only [Option.some.injEq] at h; subst h; rw [List.length_drop, List.length_cons]; omega
    · have := ih h; simp; omega

def tag? (mark : Option UInt8) : Bytes → Option (Bytes × Bytes)
  | [] => none
  | b :: s =>
    if mark = none ∧ b = 0x3e then some ([], s)
    else
      let mark' := match mark with
        | some m => if b = m then none else mark
        | none => if b = 0x22 ∨ b = 0x27 then some b else none
      (tag? mark' s).map fun (inside, rest) => (b :: inside, rest)

theorem length_tag? {mark : Option UInt8} {s inside rest : Bytes}
    (h : tag? mark s = some (inside, rest)) : rest.length < s.length := by
  induction s generalizing mark inside with
  | nil => simp [tag?] at h
  | cons b s ih =>
    simp only [tag?] at h
    split at h
    · simp only [Option.some.injEq, Prod.mk.injEq] at h; simp [h.2]
    · simp only [Option.map_eq_some_iff, Prod.mk.injEq, Prod.exists] at h
      obtain ⟨x, y, hxy, _, rfl⟩ := h
      have := ih hxy; simp; omega

def tagName (inside : Bytes) : Bytes := inside.takeWhile (!isSpace ·)

def openingOf (inside : Bytes) : Piece :=
  if inside.getLast? = some 0x2f then .opening (tagName inside.dropLast) true
  else .opening (tagName inside) false

def closingName (inside : Bytes) : Bytes :=
  let trimmed := (inside.reverse.dropWhile isSpace).reverse
  if trimmed.isEmpty then inside else trimmed

def isDeclaration (s : Bytes) : Bool :=
  (ascii "xml").isPrefixOf s && ((s[3]?).any isSpace || (ascii "xml?>").isPrefixOf s)

def instruction (s : Bytes) : Except Refusal (Found s) :=
  match s with
  | [] => .error (.unexpectedEof, [])
  | b :: rest =>
    if b = 0x3e then .error (.unexpectedEof, rest)
    else
      match h : after? (ascii "?>") (b :: rest) with
      | some r =>
        .ok ⟨if isDeclaration (b :: rest) then .declaration else .other, r, length_after? h⟩
      | none => .error (.unexpectedEof, [])

inductive TypePart
  | head
  | subset
  | subsetMarkup (mark : Option UInt8)
  | tail

def afterType? : TypePart → Bytes → Option Bytes
  | _, [] => none
  | .head, b :: s =>
    if b = 0x3e then some s else if b = 0x5b then afterType? .subset s else afterType? .head s
  | .subset, b :: s =>
    if b = 0x5d then afterType? .tail s
    else if b = 0x3c then afterType? (.subsetMarkup none) s
    else afterType? .subset s
  | .subsetMarkup (some m), b :: s =>
    afterType? (.subsetMarkup (if b = m then none else some m)) s
  | .subsetMarkup none, b :: s =>
    if b = 0x3e then afterType? .subset s
    else if b = 0x22 ∨ b = 0x27 then afterType? (.subsetMarkup (some b)) s
    else afterType? (.subsetMarkup none) s
  | .tail, b :: s => if b = 0x3e then some s else afterType? .tail s

theorem length_afterType? {part : TypePart} {s r : Bytes} (h : afterType? part s = some r) :
    r.length < s.length := by
  induction s generalizing part with
  | nil => cases part <;> simp [afterType?] at h
  | cons b s ih =>
    unfold afterType? at h
    split at h <;> (try split at h) <;> (try split at h) <;> grind

def startsWith (word s : Bytes) : Bool :=
  (s.take word.length).map (fun b => if 0x41 ≤ b && b ≤ 0x5a then b + 0x20 else b) == word

def declaration (s : Bytes) : Except Refusal (Found s) :=
  if s.head? = some 0x2d then
    match h : after? (ascii "-->") (s.drop 2) with
    | some r =>
      if (ascii "--").isPrefixOf s then
        .ok ⟨.other, r, Nat.lt_of_lt_of_le (length_after? h) (by simp)⟩
      else .error (.unexpectedEof, r)
    | none => .error (.unexpectedEof, [])
  else if s.head? = some 0x5b then
    match h : after? (ascii "]]>") s with
    | some r =>
      if startsWith (ascii "[cdata[") s then .ok ⟨.other, r, length_after? h⟩
      else .error (.unexpectedEof, r)
    | none => .error (.unexpectedEof, [])
  else if s.head? = some 0x44 ∨ s.head? = some 0x64 then
    match h : afterType? .head s with
    | some r =>
      if !startsWith (ascii "doctype") s then .error (.unexpectedEof, r)
      else if ((s.drop 7).dropWhile isSpace).head? = some 0x3e then .error (.invalidXmlSyntax, r)
      else .ok ⟨.other, r, length_afterType? h⟩
    | none => .error (.unexpectedEof, [])
  else .error (.unexpectedEof, 0x3c :: 0x21 :: s)

def markup (s : Bytes) : Except Refusal (Found s) :=
  match s with
  | [] => .error (.unexpectedEof, [0x3c])
  | b :: rest =>
    if b = 0x21 then (declaration rest).map fun f => ⟨f.piece, f.rest, Nat.lt_succ_of_lt f.shorter⟩
    else if b = 0x3f then (instruction rest).map fun f => ⟨f.piece, f.rest, Nat.lt_succ_of_lt f.shorter⟩
    else if b = 0x2f then
      match h : tag? none rest with
      | some (inside, r) => .ok ⟨.closing (closingName inside), r, Nat.lt_succ_of_lt (length_tag? h)⟩
      | none => .error (.unexpectedEof, [])
    else
      match h : tag? none (b :: rest) with
      | some (inside, r) => .ok ⟨openingOf inside, r, length_tag? h⟩
      | none => .error (.unexpectedEof, [])

def endsText (b : UInt8) : Bool := b == 0x3c || b == 0x26

def piece (b : UInt8) (s : Bytes) : Except Refusal (Found (b :: s)) :=
  if b = 0x3c then (markup s).map fun f => ⟨f.piece, f.rest, Nat.lt_succ_of_lt f.shorter⟩
  else
    have hle (p : UInt8 → Bool) : (s.dropWhile p).length ≤ s.length :=
      (List.dropWhile_sublist p).length_le
    if b = 0x26 then
      let ends (b : UInt8) : Bool := endsText b || b == 0x3b
      match h : s.dropWhile (!ends ·) with
      | c :: r =>
        if c = 0x3b then
          .ok ⟨.reference (s.takeWhile (!ends ·)), r, by
            have := hle (!ends ·); rw [h] at this; simp at this ⊢; omega⟩
        else .error (.invalidXmlSyntax, c :: r)
      | [] => .error (.invalidXmlSyntax, [])
    else
      .ok ⟨.text (b :: s.takeWhile (!endsText ·)), s.dropWhile (!endsText ·),
        Nat.lt_succ_of_le (hle _)⟩

def localName (name : Bytes) : Bytes :=
  match name.dropWhile (· != 0x3a) with
  | _ :: rest => rest
  | [] => name

def characterOf? (digits : List Char) : Option Char :=
  let number := match digits with
    | 'x' :: ds => Numeral.natural? 16 ds
    | ds => Numeral.natural? 10 ds
  (number.filter fun n => n != 0 && n.isValidChar).map Char.ofNat

inductive Referent
  | character (c : Char)
  | entity (name : Bytes)

def referent? (raw : Bytes) : Option Referent :=
  match raw with
  | 0x23 :: digits => (characterOf? (digits.map fun b => Char.ofNat b.toNat)).map .character
  | _ => some (.entity raw)

def entity? (name : Bytes) : Option Char :=
  [(ascii "lt", '<'), (ascii "gt", '>'), (ascii "amp", '&'), (ascii "apos", '\''),
    (ascii "quot", '"')].lookup name

end Highlight.PropertyList.Markup
