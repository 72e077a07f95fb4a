import Highlight.Proofs.PropertyList.Continued.Grammar
import Highlight.Proofs.PropertyList.Continued.Xml

/-! Property lists that are cut short, and printed records with and without their end tag. -/

namespace Highlight.PropertyList

open Bytes

lemma OldStyle.not_dictionary (size : ℕ) (s : Bytes) (es : List Event) :
    (OldStyle.events size (0x3c :: s)).events ≠ .startDictionary :: es := by
  have hb : bracketEvent? 0x3c = none := rfl
  have hs : isSkipped 0x3c = false := rfl
  have hq : ¬ ((0x3c : UInt8) = 0x27 ∨ (0x3c : UInt8) = 0x22) := by decide
  have hc : (0x3c : UInt8) ≠ slash := by decide
  rw [OldStyle.events.eq_def]
  simp only [hb, hs, hq, hc, if_false, Bool.false_eq_true]
  cases hw : word 0x3c s with
  | error x => simp [Trace.fail]
  | ok x =>
    obtain ⟨e, r, hr⟩ := x
    rw [word] at hw
    split at hw
    · next e' he =>
      cases hw
      obtain ⟨u, -, hu⟩ := Option.map_eq_some_iff.mp he
      intro h
      rw [(List.cons.inj h).1] at hu
      split at hu <;> cases hu
    · cases hw

lemma Xml.eq_trace_of_read? {s : Bytes} {t : Trace} (h : read? s = some t) :
    t = trace (withoutMark s).length [] (withoutMark s) := by
  rw [read?] at h
  simp only at h
  split at h
  · exact (Option.some.inj h).symm
  · cases h

lemma take_ne_magic (s : Bytes) : (0x3c :: s).take Binary.magic.length ≠ Binary.magic := by
  have hm : Binary.magic = [0x62, 0x70, 0x6c, 0x69, 0x73, 0x74, 0x30, 0x30] := rfl
  rw [hm]
  simp

/-- The events of a text that is cut short are the first ones of the whole of it, unless what is left does
not pass for XML. -/
lemma Trace.ofBytes_cut {p s : Bytes} (hp : p <+: 0x3c :: s) (size : ℕ) :
    (ofBytes p).events <+: (Xml.trace size [] (0x3c :: s)).events ∨
      ∀ es, (ofBytes p).events ≠ .startDictionary :: es := by
  obtain ⟨q, hq⟩ := hp
  cases p with
  | nil => exact .inl List.nil_prefix
  | cons b p =>
    obtain rfl : b = 0x3c := (List.cons.inj hq).1
    rw [ofBytes, if_neg (take_ne_magic p)]
    split
    · exact .inl List.nil_prefix
    cases hr : Xml.read? (0x3c :: p) with
    | none => exact .inr (OldStyle.not_dictionary _ p)
    | some t =>
      left
      rw [Option.getD_some, Xml.eq_trace_of_read? hr, ← hq]
      exact Xml.events_longer _ size [] (0x3c :: p) q

lemma Trace.grammar_of_not_dictionary {t : Trace} (h : ∀ es, t.events ≠ .startDictionary :: es) :
    ∃ fault, t.grammar = .error fault := by
  obtain ⟨es, fault⟩ := t
  cases es with
  | nil => exact ⟨_, rfl⟩
  | cons e es =>
    cases e with
    | startDictionary => exact (h es rfl).elim
    | _ => exact ⟨_, rfl⟩

/-! ### Printed records -/

def unclosed (ms : List (String × Document)) : List Char :=
  header ++ ('<' :: ("dict".toList ++ ['>', '\n']) ++ memberLines 1 ms)

lemma ofChars_printed_record (m : String × Document) (ms : List (String × Document)) :
    ofChars (printed (.record (m :: ms))) =
      ofChars (unclosed (m :: ms)) ++ (ofChars "</dict>".toList ++ ofChars ('\n' :: footer)) := by
  rw [printed, Xml.lines_record, unclosed, ← ofChars_append, ← ofChars_append]
  simp [indent]

lemma memberEvents_append (ms ns : List (String × Document)) :
    memberEvents (ms ++ ns) = memberEvents ms ++ memberEvents ns := by
  induction ms with
  | nil => rfl
  | cons m ms ih =>
    obtain ⟨k, d⟩ := m
    simp only [List.cons_append, memberEvents, ih, List.append_assoc]

lemma Xml.tagged_tag (t : Bytes) : Tagged (0x3c :: t) := ⟨[], t, by simp [IsBlank], rfl⟩

lemma exists_cons_unclosed (ms : List (String × Document)) :
    ∃ s, ofChars (unclosed ms) = 0x3c :: s := by
  obtain ⟨cs, hcs⟩ : ∃ cs, header = '<' :: cs := ⟨_, rfl⟩
  rw [unclosed, hcs, List.cons_append, ofChars_cons]
  exact ⟨_, rfl⟩

lemma events_unclosed (size : ℕ) (ms : List (String × Document)) {u : Bytes} (hu : Xml.Tagged u) :
    Xml.events size [] (ofChars (unclosed ms) ++ u) =
      ((Event.startDictionary :: memberEvents ms).foldr .cons
        (Xml.trace size [ofChars "dict".toList, ofChars "plist".toList] u), true) := by
  have hs : ofChars (unclosed ms) ++ u = ofChars header ++ 0x3c :: (ofChars "dict".toList ++ 0x3e ::
      (ofChars ['\n'] ++ (ofChars (memberLines 1 ms) ++ u))) := by
    simp only [unclosed, ofChars_cons, ofChars_append, List.append_assoc]
    rfl
  rw [hs, Xml.events_header (Xml.tagged_tag _),
    Xml.trace_start Xml.encloses_dict.isName Xml.encloses_dict.noLeaf Xml.encloses_dict.events,
    Xml.trace_tagged Xml.isBlank_newline (Xml.tagged_memberLines ms 1 hu),
    Xml.trace_memberLines ms 1 _ hu]
  rfl

lemma Trace.ofBytes_unclosed (ms : List (String × Document)) {u : Bytes} (hu : Xml.Tagged u) :
    ∃ size, (ofBytes (ofChars (unclosed ms) ++ u)).events = .startDictionary :: (memberEvents ms ++
      (Xml.trace size [ofChars "dict".toList, ofChars "plist".toList] u).events) := by
  obtain ⟨s, hs⟩ := exists_cons_unclosed ms
  have hlength : ¬ (ofChars (unclosed ms) ++ u).length < Binary.magic.length := by
    have hl : Binary.magic.length ≤ (ofChars header).length := by decide +kernel
    rw [unclosed, ofChars_append, List.append_assoc, List.length_append]
    omega
  have hmagic : (ofChars (unclosed ms) ++ u).take Binary.magic.length ≠ Binary.magic := by
    rw [hs]
    exact take_ne_magic _
  have hmark : Xml.withoutMark (ofChars (unclosed ms) ++ u) = ofChars (unclosed ms) ++ u := by
    rw [hs]
    rfl
  refine ⟨(ofChars (unclosed ms) ++ u).length, ?_⟩
  rw [ofBytes, if_neg hlength, if_neg hmagic, Xml.read?, hmark]
  simp only [events_unclosed _ ms hu, Bool.true_or, if_true, Option.getD_some]
  rw [Xml.events_foldr]
  rfl

lemma Xml.trace_closing (size : ℕ) (t : Bytes) :
    trace size [ofChars "dict".toList, ofChars "plist".toList] (ofChars "</dict>".toList ++ t) =
      (trace size [ofChars "plist".toList] t).cons .endCollection :=
  trace_end encloses_dict.isName encloses_dict.events t

lemma Xml.events_halfClosed (size : ℕ) (opened : List Bytes) :
    (trace size opened (ofChars "</dict".toList)).events = [] := by
  have hpiece : Markup.seen (Markup.piece 0x3c (0x2f :: ofChars "dict".toList)) = none := rfl
  have hevents := events_cons size opened 0x3c (0x2f :: ofChars "dict".toList)
  rw [hpiece] at hevents
  exact hevents

end Highlight.PropertyList
