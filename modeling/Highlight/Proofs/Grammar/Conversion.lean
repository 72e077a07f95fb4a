import Highlight.Proofs.Grammar.Injective
import Highlight.Proofs.Json.Extent.Grammar

/-! Reading a grammar and writing it again, in the format it was in or in the other one. Whatever is read
can be written and read again; only a property list may nest too deeply for JSON. -/

namespace Highlight.Grammar

open Json

lemma ofBytes_json_iff {b : Bytes} {g : Grammar} :
    ofBytes .json b = .ok g ↔ ∃ rest, (Json.grammar b).outcome = .ok (g, rest) := by
  rw [ofBytes, ofJson]
  cases Json.grammar b with
  | error e => simp [Except.mapError]
  | ok p => simp [Except.mapError, Result.outcome]

lemma ofBytes_json_of_depth_le {g : Grammar} (h : g.toDocument.value.depth ≤ depthLimit) :
    ofBytes .json (g.toBytes .json) = .ok g := by
  rw [ofBytes, ofJson_of_depth_le h]
  rfl

/-- What is read of a JSON document ends with the grammar, and the grammar as it is printed nests no
deeper than that, so it can always be read again. -/
theorem json_reread {b : Bytes} {g : Grammar} (h : ofBytes .json b = .ok g) :
    ofBytes .json (g.toBytes .json) = .ok g ∧
      ∃ read rest, b = read ++ rest ∧ (∀ rest', ofBytes .json (read ++ rest') = .ok g) ∧
        deepest (g.text .json) ≤ deepest (characters read) := by
  obtain ⟨rest, ho⟩ := ofBytes_json_iff.mp h
  obtain ⟨c, rfl, ⟨hdepth, hc⟩, hrc⟩ := grammar_ends b g rest ho
  refine ⟨ofBytes_json_of_depth_le hdepth, c, rest, rfl, fun rest' => ?_, ?_⟩
  · exact ofBytes_json_iff.mpr ⟨rest', hrc rest' trivial⟩
  · have hd : deepest (g.text .json) = g.toDocument.value.depth := deepest_indented _ 0
    rw [hd]
    exact hc.le_deepest

def irregular : Bytes := Bytes.ofString
  ("[\"g\", \"s\", [], [[\"m\", \"\\u0061\\r\", \x7b\"1\": [\"c\"]\x7d], " ++
    "\x7b\"begin\": \"b\", \"z\": [[[0]]], \"patterns\": null, \"end\": \"e\", \"name\": \"r\"\x7d]] [")

def regular : Grammar :=
  ⟨"g", "s", [], [.single "m" "a\r" (some (.ofList [("1", "c")])), .region "r" "b" "e" none none none]⟩

lemma ofBytes_irregular : ofBytes .json irregular = .ok regular := by
  apply toOption_eq_some_iff.mp
  decide +kernel

theorem json_reread_irregular : ofBytes .json irregular = .ok regular ∧
    ofBytes .json (regular.toBytes .json) = .ok regular ∧
      ∃ read rest, irregular = read ++ rest ∧ (∀ rest', ofBytes .json (read ++ rest') = .ok regular) ∧
        deepest (regular.text .json) ≤ deepest (characters read) :=
  ⟨ofBytes_irregular, json_reread ofBytes_irregular⟩

/-! ### From one format to the other -/

def converted (f f' : Format) (document : Bytes) : Except Failure Bytes :=
  (ofBytes f document).map (·.toBytes f')

/-- Every grammar read from JSON survives as a property list, so back in JSON it is what it would have been
at once. A grammar read from a property list, of whatever kind, survives as JSON unless it nests too
deeply. -/
theorem conversion_lossless :
    (∀ b g, ofBytes .json b = .ok g → ofBytes .propertyList (g.toBytes .propertyList) = .ok g ∧
      (converted .json .propertyList b).bind (converted .propertyList .json) =
        .ok (g.toBytes .json)) ∧
    ∀ b g, ofBytes .propertyList b = .ok g → deepest (g.text .json) ≤ 127 →
      ofBytes .json (g.toBytes .json) = .ok g := by
  have hlist (g : Grammar) := ofBytes_propertyList_iff.mpr (ofPropertyList_toBytes g)
  refine ⟨fun b g h => ⟨hlist g, ?_⟩, fun b g _ hd => ?_⟩
  · simp only [converted, h, Except.map, Except.bind, hlist]
  · rw [show deepest (g.text .json) = g.toDocument.value.depth from deepest_indented _ 0] at hd
    exact ofBytes_json_of_depth_le hd

def unordered : Document :=
  .record [("patterns", .list []), ("name", .text "\r\n<"), ("uuid", .list [.record []]),
    ("scopeName", .text "s"), ("fileTypes", .list [.text "t"])]

lemma ofBytes_unordered : ofBytes .propertyList (Bytes.ofChars (PropertyList.printed unordered)) =
    .ok ⟨"\r\n<", "s", ["t"], []⟩ := by
  have h := toOption_eq_some_iff.mp (PropertyList.ofPropertyList_printed unordered)
  rw [ofBytes, h]
  rfl

theorem conversion_lossless_irregular : ofBytes .json irregular = .ok regular ∧
    (converted .json .propertyList irregular).bind (converted .propertyList .json) =
      .ok (regular.toBytes .json) ∧
    ofBytes .propertyList (Bytes.ofChars (PropertyList.printed unordered)) =
      .ok ⟨"\r\n<", "s", ["t"], []⟩ ∧
    ofBytes .json (toBytes ⟨"\r\n<", "s", ["t"], []⟩ .json) = .ok ⟨"\r\n<", "s", ["t"], []⟩ := by
  obtain ⟨hjson, hlist⟩ := conversion_lossless
  refine ⟨ofBytes_irregular, (hjson _ _ ofBytes_irregular).2, ofBytes_unordered, ?_⟩
  exact hlist _ _ ofBytes_unordered (by decide +kernel)

end Highlight.Grammar
