import Highlight.PropertyList.Markup
import Highlight.Text.Base64
import Highlight.Text.Timestamp
import Highlight.Unicode.Class

/-! Property lists in XML. -/

namespace Highlight.PropertyList.Xml

open Markup

def content (name : Bytes) (done : List Char) (s : Bytes) :
    Except Refusal (String × { r : Bytes // r.length < s.length }) :=
  match s with
  | [] => .error (.unclosedXmlElement, [])
  | b :: rest =>
    match piece b rest with
    | .error e => .error e
    | .ok ⟨.closing n, r, h⟩ =>
      if n = name then .ok (String.ofList done.reverse, ⟨r, h⟩) else .error (.invalidXmlSyntax, r)
    | .ok ⟨.opening _ _, r, _⟩ => .error (.unexpectedXmlOpeningTag, r)
    | .ok ⟨.text raw, r, h⟩ =>
      match Bytes.text? raw with
      | none => .error (.invalidXmlUtf8, r)
      | some t => (content name (t.toList.reverse ++ done) r).map fun (t, p) =>
          (t, ⟨p.1, Nat.lt_trans p.2 h⟩)
    | .ok ⟨.reference raw, r, h⟩ =>
      if (Bytes.text? raw).isNone then .error (.invalidXmlUtf8, r)
      else
        match referent? raw with
        | none => .error (.invalidXmlSyntax, r)
        | some (.character c) => (content name (c :: done) r).map fun (t, p) =>
            (t, ⟨p.1, Nat.lt_trans p.2 h⟩)
        | some (.entity e) => (content name ((entity? e).toList ++ done) r).map fun (t, p) =>
            (t, ⟨p.1, Nat.lt_trans p.2 h⟩)
    | .ok ⟨.declaration, r, h⟩ | .ok ⟨.other, r, h⟩ =>
      (content name done r).map fun (t, p) => (t, ⟨p.1, Nat.lt_trans p.2 h⟩)
termination_by s.length
decreasing_by all_goals (simp only [List.length_cons] at *; omega)

inductive Leaf
  | text
  | data
  | date
  | integer
  | real

def leafs : List (Bytes × Leaf) :=
  [(ascii "key", .text), (ascii "string", .text), (ascii "data", .data), (ascii "date", .date),
    (ascii "integer", .integer), (ascii "real", .real)]

def isAsciiSpace (c : Char) : Bool := c == ' ' || c == '\t' || c == '\n' || c == '\x0c' || c == '\r'

def Leaf.event (l : Leaf) (s : String) : Except Cause Event :=
  match l with
  | .text => .ok (.text s)
  | .data =>
    match Base64.decode? (s.toList.filter (!isAsciiSpace ·)) with
    | some b => .ok (.data b)
    | none => .error .invalidDataString
  | .date =>
    match Timestamp.ofText? s.toList with
    | some t => .ok (.date t.text)
    | none => .error .invalidDateString
  | .integer =>
    match Numeral.integer? s.toList with
    | some n => .ok (.integer n)
    | none => .error .invalidIntegerString
  | .real =>
    match Numeral.real? s.toList with
    | some x => .ok (.real x)
    | none => .error .invalidRealString

def tagEvents : List (Bytes × List Event × List Event) :=
  [(ascii "plist", [], []), (ascii "array", [.startArray], [.endCollection]),
    (ascii "dict", [.startDictionary], [.endCollection]), (ascii "true", [.boolean true], []),
    (ascii "false", [.boolean false], [])]

def events (size : Nat) (opened : List Bytes) (s : Bytes) : Trace × Bool :=
  match s with
  | [] => (.complete, false)
  | b :: rest =>
    let refuse (c : Cause) (r : Bytes) : Trace × Bool := (.fail (.before size c r), false)
    match piece b rest with
    | .error (c, r) => refuse c r
    | .ok ⟨.closing n, r, _⟩ =>
      match opened with
      | [] => refuse .invalidXmlSyntax r
      | m :: opened =>
        if m ≠ n then refuse .invalidXmlSyntax r
        else
          let (t, d) := events size opened r
          let after := ((tagEvents.lookup (localName n)).map (·.2)).getD []
          (after.foldr .cons t, d)
    | .ok ⟨.opening n empty, r, h⟩ =>
      match leafs.lookup (localName n) with
      | some leaf =>
        let inside : Except Refusal (String × { u : Bytes // u.length < (b :: rest).length }) :=
          if empty then .ok ("", ⟨r, h⟩)
          else (content n [] r).map fun (t, p) => (t, ⟨p.1, Nat.lt_trans p.2 h⟩)
        match inside with
        | .error (c, r) => refuse c r
        | .ok (t, ⟨u, _⟩) =>
          match leaf.event t with
          | .error c => refuse c u
          | .ok e =>
            let (t, d) := events size opened u
            (t.cons e, d)
      | none =>
        match tagEvents.lookup (localName n) with
        | none => refuse .unknownXmlElement r
        | some (before, after) =>
          let (t, d) := events size (if empty then opened else n :: opened) r
          ((before ++ if empty then after else []).foldr .cons t, d)
    | .ok ⟨.text raw, r, _⟩ =>
      match Bytes.text? raw with
      | none => refuse .invalidXmlUtf8 r
      | some t =>
        if t.toList.all Unicode.isSpace then events size opened r
        else refuse .unexpectedXmlCharacters r
    | .ok ⟨.reference raw, r, _⟩ =>
      if (Bytes.text? raw).isNone then refuse .invalidXmlUtf8 r
      else
        match referent? raw with
        | none => refuse .invalidXmlSyntax r
        | some (.character c) =>
          if Unicode.isSpace c then events size opened r else refuse .unexpectedXmlCharacters r
        | some (.entity _) => refuse .unexpectedXmlCharacters r
    | .ok ⟨.declaration, r, _⟩ => ((events size opened r).1, true)
    | .ok ⟨.other, r, _⟩ => events size opened r
termination_by s.length
decreasing_by all_goals (simp only [List.length_cons] at *; omega)

def withoutMark : Bytes → Bytes
  | 0xef :: 0xbb :: 0xbf :: s => s
  | s => s

def read? (document : Bytes) : Option Trace :=
  let s := withoutMark document
  let (t, declared) := events s.length [] s
  -- What is refused before anything of XML is seen in it is no XML text.
  if declared || !t.events.isEmpty || t.fault.isNone then some t else none

end Highlight.PropertyList.Xml
