import Highlight.PropertyList.Event
import Highlight.Text.Numeral

/-! Property lists of the old style, with parentheses, braces, and strings that need no quotation
marks. -/

namespace Highlight.PropertyList.OldStyle

abbrev Refusal := Cause × Bytes

def space : UInt8 := 0x20

def slash : UInt8 := 0x2f

def star : UInt8 := 0x2a

def backslash : UInt8 := 0x5c

def endsWord (b : UInt8) : Bool := b == space || b == 0x29 || b == 0x3b || b == 0x2c

def wordEvent (raw : Bytes) : Option Event :=
  (Bytes.text? raw).map fun s =>
    match Numeral.integer? s.toList with
    | some n => .integer n
    | none => .text s

def afterComment? (afterStar : Bool) : Bytes → Option Bytes
  | [] => if afterStar then some [] else none
  | b :: s =>
    -- The byte after a star is never taken for a star itself.
    if afterStar then if b = slash then some s else afterComment? false s
    else afterComment? (b == star) s

theorem length_afterComment? {afterStar : Bool} {s r : Bytes} (h : afterComment? afterStar s = some r) :
    r.length ≤ s.length := by
  induction s generalizing afterStar with
  | nil => grind [afterComment?]
  | cons b s ih =>
    rw [afterComment?] at h
    split at h
    · split at h
      · simp only [Option.some.injEq] at h; simp [← h]
      · exact Nat.le_succ_of_le (ih h)
    · exact Nat.le_succ_of_le (ih h)

def upperHalf : List Nat :=
  [0xa0, 0xc0, 0xc1, 0xc2, 0xc3, 0xc4, 0xc5, 0xc7, 0xc8, 0xc9, 0xca, 0xcb, 0xcc, 0xcd, 0xce, 0xcf,
    0xd0, 0xd1, 0xd2, 0xd3, 0xd4, 0xd5, 0xd6, 0xd9, 0xda, 0xdb, 0xdc, 0xdd, 0xde, 0xb5, 0xd7, 0xf7,
    0xa9, 0xa1, 0xa2, 0xa3, 0x2044, 0xa5, 0x192, 0xa7, 0xa4, 0x2019, 0x201c, 0xab, 0x2039, 0x203a,
    0xfb01, 0xfb02,
    0xae, 0x2013, 0x2020, 0x2021, 0xb7, 0xa6, 0xb6, 0x2022, 0x201a, 0x201e, 0x201d, 0xbb, 0x2026,
    0x2030, 0xac, 0xbf,
    0xb9, 0x2cb, 0xb4, 0x2c6, 0x2dc, 0xaf, 0x2d8, 0x2d9, 0xa8, 0xb2, 0x2da, 0xb8, 0xb3, 0x2dd, 0x2db,
    0x2c7,
    0x2014, 0xb1, 0xbc, 0xbd, 0xbe, 0xe0, 0xe1, 0xe2, 0xe3, 0xe4, 0xe5, 0xe7, 0xe8, 0xe9, 0xea, 0xeb,
    0xec, 0xc6, 0xed, 0xaa, 0xee, 0xef, 0xf0, 0xf1, 0x141, 0xd8, 0x152, 0xba, 0xf2, 0xf3, 0xf4, 0xf5,
    0xf6, 0xe6, 0xf9, 0xfa, 0xfb, 0x131, 0xfc, 0xfd, 0x142, 0xf8, 0x153, 0xdf, 0xfe, 0xff, 0xfffd,
    0xfffd]

def ofOctal (n : Nat) : Char :=
  Char.ofNat (if 0x80 ≤ n ∧ n < 0x100 then upperHalf.getD (n - 0x80) 0xfffd else n)

def simpleEscape (b : UInt8) : UInt8 :=
  match b with
  | 0x61 => 0x07
  | 0x62 => 0x08
  | 0x66 => 0x0c
  | 0x6e => 0x0a
  | 0x72 => 0x0d
  | 0x74 => 0x09
  | 0x76 => 0x0b
  | _ => b

def digits (count base : Nat) (cause : Cause) (s : Bytes) : Except Refusal (Nat × Bytes) :=
  if s.length < count then .error (.unclosedString, [])
  else
    match Numeral.unsigned? base ((s.take count).map fun b => Char.ofNat b.toNat) with
    | some n => .ok (n.toNat, s.drop count)
    | none => .error (cause, s.drop count)

def trailingUnit (high : Nat) : Bytes → Except Refusal (Char × Bytes)
  | [] => .error (.unclosedString, [])
  | [b] => .error (if b = backslash then .unclosedString else .invalidUtf16String, [])
  | b :: u :: s =>
    if b ≠ backslash then .error (.invalidUtf16String, u :: s)
    else if u ≠ 0x55 then .error (.invalidUtf16String, s)
    else
      match digits 4 16 .invalidUtf16String s with
      | .error e => .error e
      | .ok (low, s) =>
        if high ≤ 0xDBFF ∧ 0xDC00 ≤ low ∧ low ≤ 0xDFFF then
          .ok (Char.ofNat (0x10000 + (high - 0xD800) * 0x400 + (low - 0xDC00)), s)
        else .error (.invalidUtf16String, s)

def unicodeEscape (s : Bytes) : Except Refusal (Char × Bytes) :=
  match digits 4 16 .invalidUtf16String s with
  | .error e => .error e
  | .ok (high, s) =>
    if high < 0xD800 ∨ 0xDFFF < high then .ok (Char.ofNat high, s) else trailingUnit high s

def utf8 (c : Char) : Bytes := String.utf8EncodeChar c

def escapeSequence (s : Bytes) : Except Refusal (Bytes × Bytes) :=
  match s with
  | [] => .error (.unclosedString, [])
  | b :: rest =>
    if 0x30 ≤ b ∧ b ≤ 0x37 then
      (digits 3 8 .invalidOctalString (b :: rest)).map fun (n, r) => (utf8 (ofOctal n), r)
    else if b = 0x55 then (unicodeEscape rest).map fun (c, r) => (utf8 c, r)
    else .ok ([simpleEscape b], rest)

theorem length_digits {count base : Nat} {cause : Cause} {s r : Bytes} {n : Nat}
    (h : digits count base cause s = .ok (n, r)) : r.length ≤ s.length := by
  grind [digits]

theorem length_trailingUnit {high : Nat} {s r : Bytes} {c : Char}
    (h : trailingUnit high s = .ok (c, r)) : r.length ≤ s.length := by
  match s with
  | [] | [_] => simp [trailingUnit] at h
  | _ :: _ :: _ => grind [trailingUnit, → length_digits]

theorem length_unicodeEscape {s r : Bytes} {c : Char} (h : unicodeEscape s = .ok (c, r)) :
    r.length ≤ s.length := by
  grind [unicodeEscape, → length_digits, → length_trailingUnit]

theorem length_escapeSequence {s r bytes : Bytes} (h : escapeSequence s = .ok (bytes, r)) :
    r.length ≤ s.length := by
  unfold escapeSequence at h
  split at h
  · cases h
  · split at h
    · cases hd : digits 3 8 .invalidOctalString (_ :: _) with
      | error e => rw [hd] at h; cases h
      | ok p => rw [hd] at h; cases h; exact length_digits hd
    · split at h
      · cases hd : unicodeEscape _ with
        | error e => rw [hd] at h; cases h
        | ok p => rw [hd] at h; cases h; exact Nat.le_succ_of_le (length_unicodeEscape hd)
      · cases h; simp

def quoted (mark : UInt8) (done s : Bytes) :
    Except Refusal (String × { r : Bytes // r.length < s.length }) :=
  match s with
  | [] => .error (.unclosedString, [])
  | b :: s =>
    if b = mark then
      match Bytes.text? done.reverse with
      | some t => .ok (t, ⟨s, by simp⟩)
      | none => .error (.invalidUtf8AsciiStream, s)
    else if b = backslash then
      match h : escapeSequence s with
      | .error e => .error e
      | .ok (bytes, r) =>
        have := length_escapeSequence h
        (quoted mark (bytes.reverse ++ done) r).map fun (t, p) =>
          (t, ⟨p.1, by have := p.2; simp; omega⟩)
    else
      (quoted mark (b :: done) s).map fun (t, p) => (t, ⟨p.1, Nat.lt_succ_of_lt p.2⟩)
termination_by s.length

def word (first : UInt8) (s : Bytes) : Except Refusal (Event × { r : Bytes // r.length ≤ s.length }) :=
  let r := s.dropWhile (!endsWord ·)
  match wordEvent (first :: s.takeWhile (!endsWord ·)) with
  | some e => .ok (e, ⟨r, (List.dropWhile_sublist _).length_le⟩)
  | none => .error (.invalidUtf8AsciiStream, r)

def isSkipped (b : UInt8) : Bool :=
  b == 0x2c || b == 0x3b || b == 0x3d || b == space || b == 0x0d || b == 0x09 || b == 0x0a

def bracketEvent? (b : UInt8) : Option Event :=
  match b with
  | 0x28 => some .startArray
  | 0x29 => some .endCollection
  | 0x7b => some .startDictionary
  | 0x7d => some .endCollection
  | _ => none

def events (size : Nat) (s : Bytes) : Trace :=
  match s with
  | [] => .complete
  | b :: s =>
    match bracketEvent? b with
    | some e => (events size s).cons e
    | none =>
      if b = 0x27 ∨ b = 0x22 then
        match quoted b [] s with
        | .error (c, r) => .fail (.before size c r)
        | .ok (t, ⟨r, _⟩) => (events size r).cons (.text t)
      else if isSkipped b then events size s
      else if b = slash then
        match s with
        | [] => .fail (.before size .incompleteComment [])
        | c :: s =>
          if c = slash then
            have := (List.dropWhile_sublist (· != 0x0a) (l := s)).length_le
            events size (s.dropWhile (· != 0x0a))
          else if c = star then
            match h : afterComment? false s with
            | some r => have := length_afterComment? h; events size r
            | none => .fail (.before size .incompleteComment [])
          else
            match word c (c :: s) with
            | .error (c, r) => .fail (.before size c r)
            | .ok (e, ⟨r, h⟩) => have : r.length ≤ s.length + 1 := h; (events size r).cons e
      else
        match word b s with
        | .error (c, r) => .fail (.before size c r)
        | .ok (e, ⟨r, _⟩) => (events size r).cons e
termination_by s.length
decreasing_by all_goals simp_wf <;> omega

def read (document : Bytes) : Trace := events document.length document

end Highlight.PropertyList.OldStyle
