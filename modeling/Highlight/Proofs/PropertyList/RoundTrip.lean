import Highlight.Failure
import Highlight.Proofs.Grammar.Document
import Highlight.Proofs.PropertyList.Xml

/-! A grammar printed as a property list is read back. -/

namespace Highlight

namespace PropertyList

variable {α : Type}

def outcome {es : List Event} (r : Except Fault (Taken α es)) : Except Fault (α × List Event) :=
  r.map fun t => (t.1, t.2.1)

lemma outcome_widen {es fs : List Event} (h : es.length ≤ fs.length) (r : Except Fault (Taken α es)) :
    outcome (r.map (Taken.widen h)) = outcome r := by
  cases r <;> rfl

lemma eq_ok_of_outcome {es fs : List Event} {r : Except Fault (Taken α es)} {a : α}
    (h : outcome r = .ok (a, fs)) : ∃ hfs, r = .ok ⟨a, fs, hfs⟩ := by
  cases r with
  | error f => cases h
  | ok p =>
    cases h
    exact ⟨p.2.2, rfl⟩

/-! ### Values of any kind -/

lemma eventsOf_list_append (ds : List Document) (es : List Event) :
    eventsOf (.list ds) ++ es = .startArray :: (itemEvents ds ++ .endCollection :: es) := by
  simp [eventsOf]

lemma eventsOf_record_append (ms : List (String × Document)) (es : List Event) :
    eventsOf (.record ms) ++ es = .startDictionary :: (memberEvents ms ++ .endCollection :: es) := by
  simp [eventsOf]

namespace Opened

variable {ending : Fault} {c : Opened} {around : List Opened}

def finished (ending : Fault) (c : Opened) (around : List Opened) (es : List Event) :
    Except Fault (Tree × List Event) :=
  outcome (c.finish ending around es)

lemma finished_text (s : String) (es : List Event) :
    c.finished ending around (.text s :: es) = (c.put (.text s)).finished ending around es := by
  rw [finished, finish, outcome_widen]
  · rfl
  all_goals simp

lemma finished_startArray (es : List Event) :
    c.finished ending around (.startArray :: es) =
      (items []).finished ending (c :: around) es := by
  rw [finished, finish, outcome_widen]
  rfl

lemma finished_startDictionary (es : List Event) :
    c.finished ending around (.startDictionary :: es) =
      (members [] none).finished ending (c :: around) es := by
  rw [finished, finish, outcome_widen]
  rfl

lemma finished_end {v : Tree} (h : c.close? = some v) (outer : Opened) (es : List Event) :
    c.finished ending (outer :: around) (.endCollection :: es) =
      (outer.put v).finished ending around es := by
  rw [finished, finish.eq_def]
  simp only [h]
  exact outcome_widen _ _

lemma finished_last {v : Tree} (h : c.close? = some v) (es : List Event) :
    c.finished ending [] (.endCollection :: es) = .ok (v, es) := by
  rw [finished, finish.eq_def]
  simp only [h]
  rfl

lemma close?_items (ds : List Document) :
    (items ((Document.trees ds).reverse ++ [])).close? = some (Document.tree (.list ds)) := by
  simp [close?, Document.tree]

lemma close?_members (ms : List (String × Document)) :
    (members ((textKeys (Document.memberTrees ms)).reverse ++ []) none).close? =
      some (Document.tree (.record ms)) := by
  simp [close?, Document.tree]

mutual

theorem finished_eventsOf (d : Document) (c : Opened) (around : List Opened) (es : List Event) :
    c.finished ending around (eventsOf d ++ es) = (c.put d.tree).finished ending around es := by
  cases d with
  | text s => exact finished_text s es
  | list ds =>
    rw [eventsOf_list_append, finished_startArray, finished_itemEvents ds]
    exact finished_end (close?_items ds) c es
  | record ms =>
    rw [eventsOf_record_append, finished_startDictionary, finished_memberEvents ms]
    exact finished_end (close?_members ms) c es

theorem finished_itemEvents (ds : List Document) (done : List Tree) (around : List Opened)
    (es : List Event) :
    (items done).finished ending around (itemEvents ds ++ es) =
      (items ((Document.trees ds).reverse ++ done)).finished ending around es := by
  cases ds with
  | nil => rfl
  | cons d ds =>
    rw [itemEvents, List.append_assoc, finished_eventsOf d, put, finished_itemEvents ds]
    simp [Document.trees]

theorem finished_memberEvents (ms : List (String × Document)) (done : List (Tree × Tree))
    (around : List Opened) (es : List Event) :
    (members done none).finished ending around (memberEvents ms ++ es) =
      (members ((textKeys (Document.memberTrees ms)).reverse ++ done) none).finished ending around
        es := by
  cases ms with
  | nil => rfl
  | cons m ms =>
    obtain ⟨k, d⟩ := m
    rw [memberEvents, List.cons_append, finished_text, List.append_assoc, put, finished_eventsOf d, put,
      finished_memberEvents ms]
    simp [Document.memberTrees, textKeys]

end

end Opened

lemma tree_eventsOf (d : Document) (ending : Fault) (es : List Event) :
    outcome (tree ending (eventsOf d ++ es)) = .ok (d.tree, es) := by
  have harray (fs : List Event) : outcome (tree ending (.startArray :: fs)) =
      (Opened.items []).finished ending [] fs := by
    rw [tree, outcome_widen]
    rfl
  have hrecord (fs : List Event) : outcome (tree ending (.startDictionary :: fs)) =
      (Opened.members [] none).finished ending [] fs := by
    rw [tree, outcome_widen]
    rfl
  cases d with
  | text s => rfl
  | list ds =>
    rw [eventsOf_list_append, harray, Opened.finished_itemEvents ds]
    exact Opened.finished_last (Opened.close?_items ds) es
  | record ms =>
    rw [eventsOf_record_append, hrecord, Opened.finished_memberEvents ms]
    exact Opened.finished_last (Opened.close?_members ms) es

/-! ### Grammars -/

lemma exists_cons_eventsOf (d : Document) : ∃ e es, eventsOf d = e :: es ∧ e ≠ .endCollection := by
  cases d <;> exact ⟨_, _, rfl, by simp⟩

lemma items_cons {item : Reader α} {ending : Fault} {e : Event} (he : e ≠ .endCollection)
    {es fs : List Event} {a : α} (h : outcome (item ending (e :: es)) = .ok (a, fs)) :
    outcome (items item ending (e :: es)) =
      (outcome (items item ending fs)).map fun p => (a :: p.1, p.2) := by
  obtain ⟨hfs, hi⟩ := eq_ok_of_outcome h
  rw [items]
  · simp only [hi]
    cases items item ending fs <;> rfl
  · exact he

lemma items_itemEvents {item : Reader α} {ending : Fault} {f : α → Document}
    (h : ∀ a es, outcome (item ending (eventsOf (f a) ++ es)) = .ok (a, es)) (as : List α)
    (es : List Event) :
    outcome (items item ending (itemEvents (as.map f) ++ .endCollection :: es)) = .ok (as, es) := by
  induction as with
  | nil =>
    rw [List.map_nil, itemEvents, List.nil_append, items]
    rfl
  | cons a as ih =>
    obtain ⟨e, gs, hd, he⟩ := exists_cons_eventsOf (f a)
    have ha := h a (itemEvents (as.map f) ++ .endCollection :: es)
    have hs : itemEvents ((a :: as).map f) ++ .endCollection :: es =
        e :: (gs ++ (itemEvents (as.map f) ++ .endCollection :: es)) := by
      simp [itemEvents, hd]
    rw [hd, List.cons_append] at ha
    rw [hs, items_cons he ha, ih]
    rfl

lemma array_eventsOf {item : Reader α} {ending : Fault} {f : α → Document}
    (h : ∀ a es, outcome (item ending (eventsOf (f a) ++ es)) = .ok (a, es)) (as : List α)
    (es : List Event) :
    outcome (array item ending (eventsOf (.list (as.map f)) ++ es)) = .ok (as, es) := by
  have ha (fs : List Event) : outcome (array item ending (.startArray :: fs)) =
      outcome (items item ending fs) := outcome_widen _ _
  rw [eventsOf_list_append, ha, items_itemEvents h]

lemma rule_eventsOf (ending : Fault) (r : Rule) (es : List Event) :
    outcome (rule ending (eventsOf r.toDocument ++ es)) = .ok (r, es) := by
  obtain ⟨hes, ht⟩ := eq_ok_of_outcome (tree_eventsOf r.toDocument ending es)
  simp only [rule, ht, Rule.ofTree?_toDocument]
  rfl

lemma toDocuments_eq_map (rs : List Rule) : Rule.toDocuments rs = rs.map Rule.toDocument := by
  induction rs with
  | nil => rfl
  | cons r rs ih => rw [Rule.toDocuments, ih, List.map_cons]

lemma members_cons {f f' : Grammar.Fields} {ending : Fault} {k : String} {i : Option ℕ}
    {es fs : List Event} (hk : field? (.text k) = .ok i)
    (h : outcome (Fields.member f i ending es) = .ok (f', fs)) :
    Fields.members f ending (.text k :: es) = Fields.members f' ending fs := by
  obtain ⟨hfs, hm⟩ := eq_ok_of_outcome h
  rw [Fields.members]
  · simp only [hk, hm]
  · simp

lemma fill_outcome (i : ℕ) (put : α → Grammar.Fields) {value : Reader α} {ending : Fault}
    {es fs : List Event} {a : α} (h : outcome (value ending es) = .ok (a, fs)) :
    outcome (Fields.fill i none value put ending es) = .ok (put a, fs) := by
  obtain ⟨hfs, hv⟩ := eq_ok_of_outcome h
  simp only [Fields.fill, hv]
  rfl

lemma members_toDocument (g : Grammar) (ending : Fault) :
    Fields.members {} ending (memberEvents [("name", .text g.name), ("scopeName", .text g.scopeName),
      ("fileTypes", .list (g.fileTypes.map .text)), ("patterns", .list (Rule.toDocuments g.patterns))] ++
      [.endCollection]) = .ok ⟨some g.name, some g.scopeName, some g.fileTypes, some g.patterns⟩ := by
  have htext (s : String) (es : List Event) :
      outcome (text ending (eventsOf (.text s) ++ es)) = .ok (s, es) := rfl
  have hname (es : List Event) :
      outcome (Fields.member {} (some 0) ending (eventsOf (.text g.name) ++ es)) =
        .ok (⟨some g.name, none, none, none⟩, es) :=
    fill_outcome 0 (⟨some ·, none, none, none⟩) (htext g.name es)
  have hscope (es : List Event) :
      outcome (Fields.member ⟨some g.name, none, none, none⟩ (some 1) ending
        (eventsOf (.text g.scopeName) ++ es)) =
        .ok (⟨some g.name, some g.scopeName, none, none⟩, es) :=
    fill_outcome 1 (⟨some g.name, some ·, none, none⟩) (htext g.scopeName es)
  have htypes (es : List Event) :
      outcome (Fields.member ⟨some g.name, some g.scopeName, none, none⟩ (some 2) ending
        (eventsOf (.list (g.fileTypes.map .text)) ++ es)) =
        .ok (⟨some g.name, some g.scopeName, some g.fileTypes, none⟩, es) :=
    fill_outcome 2 (⟨some g.name, some g.scopeName, some ·, none⟩) (array_eventsOf htext g.fileTypes es)
  have hpatterns (es : List Event) :
      outcome (Fields.member ⟨some g.name, some g.scopeName, some g.fileTypes, none⟩ (some 3) ending
        (eventsOf (.list (g.patterns.map Rule.toDocument)) ++ es)) =
        .ok (⟨some g.name, some g.scopeName, some g.fileTypes, some g.patterns⟩, es) :=
    fill_outcome 3 (⟨some g.name, some g.scopeName, some g.fileTypes, some ·⟩)
      (array_eventsOf (rule_eventsOf ending) g.patterns es)
  simp only [memberEvents, List.cons_append, List.append_assoc, List.nil_append]
  rw [members_cons rfl (hname _), members_cons rfl (hscope _), members_cons rfl (htypes _),
    toDocuments_eq_map, members_cons rfl (hpatterns _), Fields.members]

lemma ofBytes_printed (d : Document) :
    Trace.ofBytes (Bytes.ofChars (printed d)) = ⟨eventsOf d, none⟩ := by
  obtain ⟨cs, hcs⟩ : ∃ cs, header = '<' :: cs := ⟨_, rfl⟩
  have ht : Bytes.ofChars (printed d) =
      0x3c :: (Bytes.ofChars (cs ++ lines 0 d) ++ Bytes.ofChars footer) := by
    rw [printed, hcs, List.cons_append, Bytes.ofChars_cons, ← List.append_assoc, Bytes.ofChars_append]
    rfl
  have hm : Binary.magic = [0x62, 0x70, 0x6c, 0x69, 0x73, 0x74, 0x30, 0x30] := rfl
  have hf : (Bytes.ofChars footer).length = 8 := rfl
  have hlength : ¬ (Bytes.ofChars (printed d)).length < Binary.magic.length := by
    rw [ht, hm, List.length_cons, List.length_append, hf]
    simp only [List.length_cons, List.length_nil]
    omega
  have hmagic : (Bytes.ofChars (printed d)).take Binary.magic.length ≠ Binary.magic := by
    rw [ht, hm]
    simp
  rw [Trace.ofBytes, if_neg hlength, if_neg hmagic, Xml.read?_printed]
  rfl

end PropertyList

namespace Grammar

open PropertyList

lemma grammar_eventsOf (g : Grammar) : Trace.grammar ⟨eventsOf g.toDocument, none⟩ = .ok g := by
  rw [toDocument, ← List.append_nil (eventsOf _), eventsOf_record_append, Trace.grammar]
  simp only [members_toDocument]
  rfl

lemma toBytes_propertyList (g : Grammar) : g.toBytes .propertyList = Bytes.ofChars (printed g.toDocument) :=
  Bytes.ofString_ofList _

lemma ofBytes_propertyList_iff {b : Bytes} {g : Grammar} :
    ofBytes .propertyList b = .ok g ↔ ofPropertyList b = .ok g := by
  rw [ofBytes]
  cases ofPropertyList b <;> simp [Except.mapError]

lemma ofPropertyList_toBytes (g : Grammar) : ofPropertyList (g.toBytes .propertyList) = .ok g := by
  rw [ofPropertyList, toBytes_propertyList, ofBytes_printed, grammar_eventsOf]

/-- A grammar is read back from the property list it is printed as, whatever its strings hold. -/
theorem ofBytes_toBytes_propertyList (g : Grammar) :
    ofBytes .propertyList (g.toBytes .propertyList) = .ok g :=
  ofBytes_propertyList_iff.mpr (ofPropertyList_toBytes g)

end Grammar

end Highlight
