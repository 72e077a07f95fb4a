import Highlight.Proofs.Grammar.Delimited
import Highlight.Proofs.PropertyList.Continued.Document

/-! Documents that are cut short, as a file is that was not written to its end. No grammar is read from
one but the one that was printed. -/

namespace Highlight.Grammar

open Bytes PropertyList

variable {g : Grammar} {m : String × Document} {ms : List (String × Document)}

lemma exists_members (g : Grammar) : ∃ m ms, g.toDocument = .record (m :: ms) := ⟨_, _, rfl⟩

lemma ofPropertyList_closed (h : g.toDocument = .record (m :: ms)) (t : Bytes) :
    ofPropertyList (ofChars (unclosed (m :: ms)) ++ (ofChars "</dict>".toList ++ t)) = .ok g := by
  have hu : Xml.Tagged (ofChars "</dict>".toList ++ t) := Xml.tagged_tag _
  obtain ⟨size, hes⟩ := Trace.ofBytes_unclosed (m :: ms) hu
  have hp : eventsOf g.toDocument <+:
      (Trace.ofBytes (ofChars (unclosed (m :: ms)) ++ (ofChars "</dict>".toList ++ t))).events := by
    refine ⟨(Xml.trace size [ofChars "plist".toList] t).events, ?_⟩
    rw [h, eventsOf_record_append, hes, Xml.trace_closing]
    rfl
  exact grammar_lasts hp (grammar_eventsOf g) _

lemma grammar?_again (h : g.toDocument = .record ms) :
    (Document.record (ms ++ [("name", .text "")])).grammar? = none := by
  obtain rfl := Document.record.inj h
  rw [Document.grammar?, Fields.after]
  simp [Document.memberTrees, slot, Rule.SingleFields.fill, Document.tree, Tree.text?]

lemma ofPropertyList_unclosed (h : g.toDocument = .record (m :: ms)) {p : Bytes}
    (hp : p <+: ofChars (unclosed (m :: ms)) ++ ofChars "</dict".toList) :
    ∃ fault, ofPropertyList p = .error fault := by
  cases ho : ofPropertyList p with
  | error fault => exact ⟨fault, rfl⟩
  | ok g' =>
    exfalso
    rw [ofPropertyList] at ho
    obtain ⟨s, hs⟩ := exists_cons_unclosed (m :: ms)
    have hu : Xml.Tagged (ofChars "</dict".toList) := Xml.tagged_tag _
    have hall : (Xml.trace 0 [] (ofChars (unclosed (m :: ms)) ++ ofChars "</dict".toList)).events =
        .startDictionary :: memberEvents (m :: ms) := by
      rw [Xml.trace, events_unclosed 0 (m :: ms) hu, Xml.events_foldr, Xml.events_halfClosed,
        List.append_nil]
    have hcons := hp
    rw [hs, List.cons_append] at hcons
    rcases Trace.ofBytes_cut hcons 0 with he | hn
    · rw [← List.cons_append, ← hs, hall] at he
      -- With a second name after them these members are no grammar, though they are read first.
      have hmore : .startDictionary :: memberEvents (m :: ms) <+:
          eventsOf (.record (m :: ms ++ [("name", .text "")])) := by
        refine ⟨memberEvents [("name", .text "")] ++ [.endCollection], ?_⟩
        rw [eventsOf, memberEvents_append]
        simp
      have hagain := grammar_decodes (.record (m :: ms ++ [("name", .text "")]))
      rw [grammar_lasts (he.trans hmore) ho none, grammar?_again h] at hagain
      cases hagain
    · obtain ⟨fault, hf⟩ := Trace.grammar_of_not_dictionary hn
      rw [hf] at ho
      cases ho

lemma eq_of_ofBytes_json_cut {g h : Grammar} {p : Bytes} (hp : p <+: g.toBytes .json)
    (hh : ofBytes .json p = .ok h) : p = g.toBytes .json := by
  refine eq_of_cut (fun h rest ho => ?_) hp hh
  have hends : Json.Ends [] := by simp [Json.Ends]
  have hprinted := Json.grammar_outcome (v := g.toDocument.value)
    (by simp [toDocument, Document.value]) .nil (Json.spells_indented g.toDocument 0) hends
  rw [List.nil_append, List.append_nil, ← toBytes_json, ho] at hprinted
  obtain ⟨h', -, hnil⟩ := exists_of_map_ok hprinted.symm
  exact (Prod.mk.inj hnil).2.symm

/-- No grammar is read from JSON that is cut short. A property list that is cut short holds what the whole
of it holds if no more than its last tag and the line feed before that are lost, and nothing otherwise. -/
theorem cut_short (g : Grammar) (p : Bytes) :
    (p <+: g.toBytes .json → p ≠ g.toBytes .json → ∃ fault, ofBytes .json p = .error fault) ∧
      (p <+: g.toBytes .propertyList →
        ((g.toBytes .propertyList).length ≤ p.length + 9 →
          ofBytes .propertyList p = ofBytes .propertyList (g.toBytes .propertyList)) ∧
        (p.length + 9 < (g.toBytes .propertyList).length →
          ∃ fault, ofBytes .propertyList p = .error fault)) := by
  refine ⟨fun hp hne => ?_, fun hp => ?_⟩
  · cases ho : ofBytes .json p with
    | error fault => exact ⟨fault, rfl⟩
    | ok h => exact (hne (eq_of_ofBytes_json_cut hp ho)).elim
  obtain ⟨m, ms, h⟩ := exists_members g
  have htail : (ofChars ('\n' :: footer)).length = 9 := rfl
  have htag : ofChars "</dict>".toList = ofChars "</dict".toList ++ [0x3e] := rfl
  rw [toBytes_propertyList, h, ofChars_printed_record] at hp ⊢
  refine ⟨fun hlong => ?_, fun hshort => ?_⟩
  · have hclosed : ofChars (unclosed (m :: ms)) ++ ofChars "</dict>".toList <+: p := by
      rw [← List.append_assoc] at hp hlong
      refine List.prefix_of_prefix_length_le (List.prefix_append _ _) hp ?_
      rw [List.length_append, htail] at hlong
      omega
    obtain ⟨t, rfl⟩ := hclosed
    rw [List.append_assoc, ofBytes, ofBytes, ofPropertyList_closed h, ofPropertyList_closed h]
  · have hopen : p <+: ofChars (unclosed (m :: ms)) ++ ofChars "</dict".toList := by
      rw [htag, List.append_assoc, ← List.append_assoc] at hp hshort
      refine List.prefix_of_prefix_length_le hp (List.prefix_append _ _) ?_
      simp only [List.length_append, List.length_singleton, htail] at hshort ⊢
      omega
    obtain ⟨fault, hf⟩ := ofPropertyList_unclosed h hopen
    rw [ofBytes, hf]
    exact ⟨_, rfl⟩

theorem cut_short_regular :
    (regular.toBytes .json).take 103 ≠ regular.toBytes .json ∧
      (∃ fault, ofBytes .json ((regular.toBytes .json).take 103) = .error fault) ∧
      ofBytes .propertyList ((regular.toBytes .propertyList).take 710) =
        ofBytes .propertyList (regular.toBytes .propertyList) ∧
      ∃ fault, ofBytes .propertyList ((regular.toBytes .propertyList).take 706) = .error fault := by
  have hjson : (regular.toBytes .json).length = 227 := by
    rw [toBytes_json]
    decide +kernel
  have hlist : (regular.toBytes .propertyList).length = 716 := by
    rw [toBytes_propertyList]
    decide +kernel
  have hne : (regular.toBytes .json).take 103 ≠ regular.toBytes .json := fun h => by
    have hlength := congrArg List.length h
    rw [List.length_take, hjson] at hlength
    cases hlength
  have hlast : (regular.toBytes .propertyList).length ≤
      ((regular.toBytes .propertyList).take 710).length + 9 := by
    rw [List.length_take, hlist]
    decide
  have hend : ((regular.toBytes .propertyList).take 706).length + 9 <
      (regular.toBytes .propertyList).length := by
    rw [List.length_take, hlist]
    decide
  refine ⟨hne, (cut_short regular _).1 (List.take_prefix _ _) hne, ?_, ?_⟩
  · exact ((cut_short regular _).2 (List.take_prefix _ _)).1 hlast
  · exact ((cut_short regular _).2 (List.take_prefix _ _)).2 hend

end Highlight.Grammar
