import Highlight.Proofs.PropertyList.Content

/-! The events of a document printed in XML. -/

namespace Highlight.PropertyList

mutual

def eventsOf : Document → List Event
  | .text s => [.text s]
  | .list ds => .startArray :: (itemEvents ds ++ [.endCollection])
  | .record ms => .startDictionary :: (memberEvents ms ++ [.endCollection])

def itemEvents : List Document → List Event
  | [] => []
  | d :: ds => eventsOf d ++ itemEvents ds

def memberEvents : List (String × Document) → List Event
  | [] => []
  | (k, d) :: ms => .text k :: (eventsOf d ++ memberEvents ms)

end

namespace Xml

open Bytes Markup

def trace (size : ℕ) (opened : List Bytes) (s : Bytes) : Trace := (events size opened s).1

variable {size : ℕ} {opened : List Bytes}

def IsBlank (cs : List Char) : Prop := ∀ c ∈ cs, c = '\n' ∨ c = '\t'

lemma isBlank_indent (n : ℕ) : IsBlank (indent n) := fun _ hc => .inr (List.eq_of_mem_replicate hc)

lemma isBlank_newline : IsBlank ['\n'] := fun _ hc => .inl (List.mem_singleton.mp hc)

lemma trace_blank {cs : List Char} (h : IsBlank cs) (t : Bytes) :
    trace size opened (ofChars cs ++ 0x3c :: t) = trace size opened (0x3c :: t) := by
  have hp : ∀ b ∈ ofChars cs, endsText b = false := by
    intro b hb
    obtain ⟨c, hc, hb⟩ := List.mem_flatMap.mp hb
    rcases h c hc with rfl | rfl
    · exact endsText_of_mem (by decide) (by decide) hb
    · exact endsText_of_mem (by decide) (by decide) hb
  have hs : cs.all Unicode.isSpace = true := by
    rw [List.all_eq_true]
    intro c hc
    rcases h c hc with rfl | rfl <;> decide
  have hu := text?_ofChars cs
  cases hr : ofChars cs with
  | nil => rfl
  | cons b r =>
    rw [hr] at hp hu
    obtain ⟨hlt, hpiece⟩ := piece_text hp (show endsText 0x3c = true by rfl) t
    rw [List.cons_append, trace, events]
    simp only [hpiece, hu, String.toList_ofList, hs, if_true]
    rfl

lemma trace_leaf {n : Bytes} (hn : IsName n) (hl : leafs.lookup (localName n) = some .text) (s : String)
    (t : Bytes) :
    trace size opened (0x3c :: (n ++ 0x3e ::
      (ofChars (s.toList.flatMap escape) ++ 0x3c :: 0x2f :: (n ++ 0x3e :: t)))) =
      (trace size opened t).cons (.text s) := by
  have hc := content_escaped hn s.toList [] (by simp) [] t
  obtain ⟨hlt, hpiece⟩ := piece_opening hn
    (ofChars (s.toList.flatMap escape) ++ 0x3c :: 0x2f :: (n ++ 0x3e :: t))
  rw [trace, events]
  simp only [hpiece, hl]
  rw [ofChars_nil, List.nil_append, characters] at hc
  cases hx : content n [] (ofChars (s.toList.flatMap escape) ++ 0x3c :: 0x2f :: (n ++ 0x3e :: t)) with
  | error e => simp [hx, Except.map] at hc
  | ok p =>
    obtain ⟨u, r, hr⟩ := p
    obtain ⟨rfl, rfl⟩ : u = s ∧ r = t := by simpa [hx, Except.map] using hc
    simp [Except.map, Leaf.event, trace]

lemma trace_start {n : Bytes} (hn : IsName n) (hl : leafs.lookup (localName n) = none)
    {before after : List Event} (ht : tagEvents.lookup (localName n) = some (before, after)) (t : Bytes) :
    trace size opened (0x3c :: (n ++ 0x3e :: t)) = before.foldr .cons (trace size (n :: opened) t) := by
  obtain ⟨hlt, hpiece⟩ := piece_opening hn t
  rw [trace, events]
  simp only [hpiece, hl, ht]
  simp [trace]

lemma trace_empty {n : Bytes} (hn : IsName n) (hl : leafs.lookup (localName n) = none)
    {before after : List Event} (ht : tagEvents.lookup (localName n) = some (before, after)) (t : Bytes) :
    trace size opened (0x3c :: (n ++ 0x2f :: 0x3e :: t)) =
      (before ++ after).foldr .cons (trace size opened t) := by
  obtain ⟨hlt, hpiece⟩ := piece_empty hn t
  rw [trace, events]
  simp only [hpiece, hl, ht]
  simp [trace]

lemma trace_end {n : Bytes} (hn : IsName n) {before after : List Event}
    (ht : tagEvents.lookup (localName n) = some (before, after)) (t : Bytes) :
    trace size (n :: opened) (0x3c :: 0x2f :: (n ++ 0x3e :: t)) =
      after.foldr .cons (trace size opened t) := by
  obtain ⟨hlt, hpiece⟩ := piece_closing hn t
  rw [trace, events]
  simp only [hpiece, ht]
  simp [trace]

/-! ### Lines -/

def Tagged (t : Bytes) : Prop := ∃ cs u, IsBlank cs ∧ t = ofChars cs ++ 0x3c :: u

lemma Tagged.blank {cs : List Char} (h : IsBlank cs) (u : Bytes) : Tagged (ofChars cs ++ 0x3c :: u) :=
  ⟨cs, u, h, rfl⟩

lemma trace_tagged {cs : List Char} (h : IsBlank cs) {t : Bytes} (ht : Tagged t) :
    trace size opened (ofChars cs ++ t) = trace size opened t := by
  obtain ⟨ds, u, hd, rfl⟩ := ht
  have hcd : IsBlank (cs ++ ds) := fun c hc => (List.mem_append.mp hc).elim (h c) (hd c)
  have hs : ofChars cs ++ (ofChars ds ++ 0x3c :: u) = ofChars (cs ++ ds) ++ 0x3c :: u := by simp
  rw [hs, trace_blank hcd, trace_blank hd]

lemma ofChars_element (tag s : String) (t : Bytes) :
    ofChars (element tag s) ++ t = 0x3c :: (ofChars tag.toList ++ 0x3e ::
      (ofChars (s.toList.flatMap escape) ++ 0x3c :: 0x2f :: (ofChars tag.toList ++ 0x3e :: t))) := by
  simp only [element, ofChars_cons, ofChars_append, List.append_assoc]
  rfl

lemma trace_element {tag : String} (hn : IsName (ofChars tag.toList))
    (hl : leafs.lookup (localName (ofChars tag.toList)) = some .text) (n : ℕ) (s : String) {t : Bytes}
    (ht : Tagged t) :
    trace size opened (ofChars (indent n ++ (element tag s ++ ['\n'])) ++ t) =
      (trace size opened t).cons (.text s) := by
  rw [ofChars_append, ofChars_append, List.append_assoc, List.append_assoc, ofChars_element,
    trace_blank (isBlank_indent n), trace_leaf hn hl, trace_tagged isBlank_newline ht]

lemma ofChars_collection (tag : String) (n : ℕ) (cs : List Char) (t : Bytes) :
    ofChars (indent n ++ ('<' :: (tag.toList ++ ['>', '\n'])) ++ cs ++
      (indent n ++ ('<' :: '/' :: (tag.toList ++ ['>', '\n'])))) ++ t =
      ofChars (indent n) ++ 0x3c :: (ofChars tag.toList ++ 0x3e :: (ofChars ['\n'] ++ (ofChars cs ++
        (ofChars (indent n) ++ 0x3c :: 0x2f :: (ofChars tag.toList ++ 0x3e ::
          (ofChars ['\n'] ++ t)))))) := by
  simp only [ofChars_cons, ofChars_append, List.append_assoc]
  rfl

lemma ofChars_empty (tag : String) (n : ℕ) (t : Bytes) :
    ofChars (indent n ++ ('<' :: (tag.toList ++ ['/', '>', '\n']))) ++ t =
      ofChars (indent n) ++ 0x3c :: (ofChars tag.toList ++ 0x2f :: 0x3e :: (ofChars ['\n'] ++ t)) := by
  simp only [ofChars_cons, ofChars_append, List.append_assoc]
  rfl

structure Encloses (tag : String) (start : Event) : Prop where
  isName : IsName (ofChars tag.toList)
  noLeaf : leafs.lookup (localName (ofChars tag.toList)) = none
  events : tagEvents.lookup (localName (ofChars tag.toList)) = some ([start], [.endCollection])

lemma encloses_array : Encloses "array" .startArray := ⟨by decide +kernel, rfl, rfl⟩

lemma encloses_dict : Encloses "dict" .startDictionary := ⟨by decide +kernel, rfl, rfl⟩

lemma trace_emptyCollection {tag : String} {start : Event} (he : Encloses tag start) (n : ℕ) {t : Bytes}
    (ht : Tagged t) :
    trace size opened (ofChars (indent n ++ ('<' :: (tag.toList ++ ['/', '>', '\n']))) ++ t) =
      [start, .endCollection].foldr .cons (trace size opened t) := by
  rw [ofChars_empty, trace_blank (isBlank_indent n), trace_empty he.isName he.noLeaf he.events,
    trace_tagged isBlank_newline ht]
  rfl

lemma trace_collection {tag : String} {start : Event} (he : Encloses tag start) (n : ℕ) {cs : List Char}
    {es : List Event} {t : Bytes} (hc : ∀ opened u, Tagged u → Tagged (ofChars cs ++ u) ∧
      trace size opened (ofChars cs ++ u) = es.foldr .cons (trace size opened u)) (ht : Tagged t) :
    trace size opened (ofChars (indent n ++ ('<' :: (tag.toList ++ ['>', '\n'])) ++ cs ++
      (indent n ++ ('<' :: '/' :: (tag.toList ++ ['>', '\n'])))) ++ t) =
      (start :: (es ++ [.endCollection])).foldr .cons (trace size opened t) := by
  have hu := Tagged.blank (isBlank_indent n) (0x2f :: (ofChars tag.toList ++ 0x3e :: (ofChars ['\n'] ++ t)))
  obtain ⟨htag, hes⟩ := hc (ofChars tag.toList :: opened) _ hu
  rw [ofChars_collection, trace_blank (isBlank_indent n), trace_start he.isName he.noLeaf he.events,
    trace_tagged isBlank_newline htag, hes, trace_blank (isBlank_indent n),
    trace_end he.isName he.events, trace_tagged isBlank_newline ht]
  simp

lemma tagged_indent (n : ℕ) (cs : List Char) (t : Bytes) :
    Tagged (ofChars (indent n ++ '<' :: cs) ++ t) :=
  ⟨indent n, ofChars cs ++ t, isBlank_indent n, by simp; rfl⟩

lemma lines_list (n : ℕ) (d : Document) (ds : List Document) : lines n (.list (d :: ds)) =
    indent n ++ ('<' :: ("array".toList ++ ['>', '\n'])) ++ itemLines (n + 1) (d :: ds) ++
      (indent n ++ ('<' :: '/' :: ("array".toList ++ ['>', '\n']))) := rfl

lemma lines_record (n : ℕ) (m : String × Document) (ms : List (String × Document)) :
    lines n (.record (m :: ms)) =
      indent n ++ ('<' :: ("dict".toList ++ ['>', '\n'])) ++ memberLines (n + 1) (m :: ms) ++
        (indent n ++ ('<' :: '/' :: ("dict".toList ++ ['>', '\n']))) := rfl

lemma tagged_lines (d : Document) (n : ℕ) (t : Bytes) : Tagged (ofChars (lines n d) ++ t) := by
  have hd : ∃ cs, lines n d = indent n ++ '<' :: cs := by
    cases d with
    | text s => exact ⟨_, by simp [lines, element]; rfl⟩
    | list ds =>
      cases ds with
      | nil => exact ⟨_, rfl⟩
      | cons d ds => exact ⟨_, by rw [lines_list]; simp; rfl⟩
    | record ms =>
      cases ms with
      | nil => exact ⟨_, rfl⟩
      | cons m ms => exact ⟨_, by rw [lines_record]; simp; rfl⟩
  obtain ⟨cs, hcs⟩ := hd
  rw [hcs]
  exact tagged_indent n cs t

lemma tagged_itemLines (ds : List Document) (n : ℕ) {t : Bytes} (ht : Tagged t) :
    Tagged (ofChars (itemLines n ds) ++ t) := by
  cases ds with
  | nil => exact ht
  | cons d ds =>
    rw [itemLines, ofChars_append, List.append_assoc]
    exact tagged_lines d n _

lemma tagged_memberLines (ms : List (String × Document)) (n : ℕ) {t : Bytes} (ht : Tagged t) :
    Tagged (ofChars (memberLines n ms) ++ t) := by
  cases ms with
  | nil => exact ht
  | cons m ms => exact tagged_indent n _ t

mutual

theorem trace_lines (d : Document) (n : ℕ) (opened : List Bytes) {t : Bytes} (ht : Tagged t) :
    trace size opened (ofChars (lines n d) ++ t) =
      (eventsOf d).foldr .cons (trace size opened t) := by
  -- White space is passed over only before a tag, which is why a tag must follow the lines.
  cases d with
  | text s =>
    have hs : lines n (.text s) = indent n ++ (element "string" s ++ ['\n']) := by simp [lines]
    rw [hs]
    exact trace_element (by decide +kernel) rfl n s ht
  | list ds =>
    cases ds with
    | nil => exact trace_emptyCollection encloses_array n ht
    | cons d ds =>
      rw [lines_list]
      refine trace_collection encloses_array n (fun opened u hu => ⟨?_, ?_⟩) ht
      · exact tagged_itemLines (d :: ds) (n + 1) hu
      · exact trace_itemLines (d :: ds) (n + 1) opened hu
  | record ms =>
    cases ms with
    | nil => exact trace_emptyCollection encloses_dict n ht
    | cons m ms =>
      rw [lines_record]
      refine trace_collection encloses_dict n (fun opened u hu => ⟨?_, ?_⟩) ht
      · exact tagged_memberLines (m :: ms) (n + 1) hu
      · exact trace_memberLines (m :: ms) (n + 1) opened hu

theorem trace_itemLines (ds : List Document) (n : ℕ) (opened : List Bytes) {t : Bytes} (ht : Tagged t) :
    trace size opened (ofChars (itemLines n ds) ++ t) =
      (itemEvents ds).foldr .cons (trace size opened t) := by
  cases ds with
  | nil => rfl
  | cons d ds =>
    rw [itemLines, ofChars_append, List.append_assoc,
      trace_lines d n opened (tagged_itemLines ds n ht), trace_itemLines ds n opened ht, itemEvents,
      List.foldr_append]

theorem trace_memberLines (ms : List (String × Document)) (n : ℕ) (opened : List Bytes) {t : Bytes}
    (ht : Tagged t) :
    trace size opened (ofChars (memberLines n ms) ++ t) =
      (memberEvents ms).foldr .cons (trace size opened t) := by
  cases ms with
  | nil => rfl
  | cons m ms =>
    obtain ⟨k, d⟩ := m
    have hs : ofChars (memberLines n ((k, d) :: ms)) ++ t = ofChars (indent n ++
        (element "key" k ++ ['\n'])) ++ (ofChars (lines n d) ++ (ofChars (memberLines n ms) ++ t)) := by
      simp [memberLines]
    have hm := tagged_memberLines ms n ht
    rw [hs, trace_element (by decide +kernel) rfl n k (tagged_lines d n _), trace_lines d n opened hm,
      trace_memberLines ms n opened ht, memberEvents, List.foldr_cons, List.foldr_append]

end

/-! ### The whole text -/

lemma ofChars_markupLine (inside : String) (t : Bytes) : ofChars (markupLine inside) ++ t =
    0x3c :: (ofChars inside.toList ++ 0x3e :: (ofChars ['\n'] ++ t)) := by
  simp only [markupLine, ofChars_cons, ofChars_append, List.append_assoc]
  rfl

lemma piece_instruction (t : Bytes) :
    ∃ h, piece 0x3c (ofChars "?xml version=\"1.0\" encoding=\"UTF-8\"?".toList ++ 0x3e :: t) =
      .ok ⟨.declaration, t, h⟩ := ⟨_, rfl⟩

set_option maxRecDepth 4000 in
lemma piece_documentType (t : Bytes) :
    ∃ h, piece 0x3c (ofChars documentType.toList ++ 0x3e :: t) = .ok ⟨.other, t, h⟩ := ⟨_, rfl⟩

lemma piece_root (t : Bytes) :
    ∃ h, piece 0x3c (ofChars "plist version=\"1.0\"".toList ++ 0x3e :: t) =
      .ok ⟨.opening (ofChars "plist".toList) false, t, h⟩ := ⟨_, rfl⟩

lemma tagged_markupLine (inside : String) (t : Bytes) : Tagged (ofChars (markupLine inside) ++ t) :=
  ⟨[], _, by simp [IsBlank], by rw [ofChars_markupLine]; rfl⟩

lemma events_instruction (t : Bytes) :
    events size [] (0x3c :: (ofChars "?xml version=\"1.0\" encoding=\"UTF-8\"?".toList ++ 0x3e :: t)) =
      (trace size [] t, true) := by
  obtain ⟨hlt, hpiece⟩ := piece_instruction t
  rw [events]
  simp only [hpiece, trace]

lemma trace_documentType (t : Bytes) :
    trace size [] (0x3c :: (ofChars documentType.toList ++ 0x3e :: t)) = trace size [] t := by
  obtain ⟨hlt, hpiece⟩ := piece_documentType t
  rw [trace, events]
  simp only [hpiece, trace]

lemma trace_root (t : Bytes) :
    trace size [] (0x3c :: (ofChars "plist version=\"1.0\"".toList ++ 0x3e :: t)) =
      trace size [ofChars "plist".toList] t := by
  obtain ⟨hlt, hpiece⟩ := piece_root t
  have hl : leafs.lookup (localName (ofChars "plist".toList)) = none := rfl
  have ht : tagEvents.lookup (localName (ofChars "plist".toList)) = some ([], []) := rfl
  rw [trace, events]
  simp only [hpiece, hl, ht]
  rfl

lemma events_header {t : Bytes} (ht : Tagged t) :
    events size [] (ofChars header ++ t) = (trace size [ofChars "plist".toList] t, true) := by
  have hs : ofChars header ++ t =
      ofChars (markupLine "?xml version=\"1.0\" encoding=\"UTF-8\"?") ++
        (ofChars (markupLine documentType) ++ (ofChars (markupLine "plist version=\"1.0\"") ++ t)) := by
    simp [header]
  rw [hs, ofChars_markupLine, events_instruction,
    trace_tagged isBlank_newline (tagged_markupLine documentType _), ofChars_markupLine,
    trace_documentType, trace_tagged isBlank_newline (tagged_markupLine _ t), ofChars_markupLine,
    trace_root, trace_tagged isBlank_newline ht]

lemma trace_footer : trace size [ofChars "plist".toList] (ofChars footer) = .complete := by
  have hn : IsName (ofChars "plist".toList) := by decide +kernel
  have ht : tagEvents.lookup (localName (ofChars "plist".toList)) = some ([], []) := rfl
  have hf : ofChars footer = 0x3c :: 0x2f :: (ofChars "plist".toList ++ 0x3e :: []) := rfl
  rw [hf, trace_end hn ht, trace, events]
  rfl

lemma read?_printed (d : Document) : read? (ofChars (printed d)) = some ⟨eventsOf d, none⟩ := by
  have hmark : withoutMark (ofChars (printed d)) = ofChars (printed d) := rfl
  have hfooter : Tagged (ofChars footer) := ⟨[], _, by simp [IsBlank], rfl⟩
  have hs : ofChars (printed d) = ofChars header ++ (ofChars (lines 0 d) ++ ofChars footer) := by
    simp [printed]
  have hevents (es : List Event) (t : Trace) : es.foldr .cons t = ⟨es ++ t.events, t.fault⟩ := by
    induction es with
    | nil => rfl
    | cons e es ih => rw [List.foldr_cons, ih]; rfl
  simp only [read?, hmark]
  rw [hs, events_header (tagged_lines d 0 _), trace_lines d 0 _ hfooter, trace_footer, hevents]
  simp [Trace.complete]

end Xml

end Highlight.PropertyList
