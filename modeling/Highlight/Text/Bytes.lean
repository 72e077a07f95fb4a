/-! Bytes as lists, and the text that they spell in UTF-8. -/

namespace Highlight

abbrev Bytes := List UInt8

namespace Bytes

def ofString (s : String) : Bytes := s.toUTF8.data.toList

def text? (b : Bytes) : Option String := String.fromUTF8? ⟨b.toArray⟩

theorem text?_ofString (s : String) : text? (ofString s) = some s := by
  have h : (⟨(ofString s).toArray⟩ : ByteArray) = s.toUTF8 := by simp [ofString]
  have hv : s.toUTF8.IsValidUTF8 := s.isValidUTF8
  rw [text?, h, String.fromUTF8?, dif_pos hv]
  rfl

end Bytes

end Highlight
