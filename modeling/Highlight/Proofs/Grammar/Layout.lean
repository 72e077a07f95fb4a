import Highlight.Format
import Highlight.Proofs.Json.Layout

/-! The layout of a grammar that is written as JSON. -/

namespace Highlight

namespace Grammar

open Json

/-- Without the white space between its strings the text that a grammar is written as is its compact text. Each line
begins with a tab for each bracket that is open there, less one before a closing bracket, and has no other white space at
either end. There are as many line breaks and tabs as if all strings were empty. -/
theorem json_layout (g : Grammar) :
    Bytes.text? (g.toBytes .json) = some (String.ofList (g.text .json)) ∧
    squeezed .outside (g.text .json) = compact g.toDocument ∧
    (∀ before line, IsLine (g.text .json) before line →
      (before.foldl Nesting.next {}).place = .outside ∧
      Aligned (before.foldl Nesting.next {}).opened line ∧
      ∀ c ∈ line.getLast?, c.isWhitespace = false) ∧
    (g.text .json).count '\n' = (indented 0 g.toDocument.emptied).count '\n' ∧
    (g.text .json).count '\t' = (indented 0 g.toDocument.emptied).count '\t' := by
  have hsqueezed : squeezed .outside (g.text .json) = compact g.toDocument := by
    have hs := squeezed_indented g.toDocument 0 []
    rwa [List.append_nil, squeezed, List.append_nil] at hs
  have hcount {c : Char} (hc : c.toNat < 0x20) :
      (g.text .json).count c = (indented 0 g.toDocument.emptied).count c :=
    (count_emptied hc g.toDocument 0).symm
  refine ⟨Bytes.text?_ofString _, hsqueezed, fun before line hl => ?_, hcount (by decide), hcount (by decide)⟩
  obtain ⟨hplace, haligned⟩ := (laidOut_document g.toDocument).line_starts hl
  exact ⟨hplace, haligned, (laidOut_document g.toDocument).line_ends hl⟩

def bracketed : Grammar := ⟨"[\n", "", [], [.single "" "a" none]⟩

def aboveBracket : String :=
  "\x7b\n\t\"name\": \"[\\n\",\n\t\"scopeName\": \"\",\n\t\"fileTypes\": [],\n\t\"patterns\": [" ++
    "\n\t\t\x7b\n\t\t\t\"name\": \"\",\n\t\t\t\"match\": \"a\""

theorem json_layout_bracketed :
    IsLine (bracketed.text .json) (aboveBracket.toList ++ ['\n']) ['\t', '\t', '\x7d'] ∧
    Aligned ((aboveBracket.toList ++ ['\n']).foldl Nesting.next {}).opened ['\t', '\t', '\x7d'] := by
  have htext : bracketed.text .json =
      (aboveBracket.toList ++ ['\n']) ++ (['\t', '\t', '\x7d'] ++ ['\n', '\t', ']', '\n', '\x7d']) := by
    decide +kernel
  have hline : IsLine (bracketed.text .json) (aboveBracket.toList ++ ['\n']) ['\t', '\t', '\x7d'] := by
    refine ⟨⟨_, htext, by simp⟩, ?_, by decide⟩
    rw [List.getLast?_concat]
    simp
  obtain ⟨-, -, hlines, -⟩ := json_layout bracketed
  exact ⟨hline, (hlines _ _ hline).2.1⟩

end Grammar

end Highlight
