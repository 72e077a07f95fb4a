import Highlight.Proofs.Grammar.Reordering
import Highlight.Proofs.PropertyList.RoundTrip

/-! What readers of events make of the events of a document, be it a grammar or not. -/

namespace Highlight

variable {ε α β : Type}

lemma toOption_bind (x : Except ε α) (f : α → Except ε β) :
    (x.bind f).toOption = x.toOption.bind fun a => (f a).toOption := by
  cases x <;> rfl

lemma toOption_map (x : Except ε α) (f : α → β) : (x.map f).toOption = x.toOption.map f := by
  cases x <;> rfl

namespace PropertyList

open Document
open Rule.SingleFields (fill)

/-- A reader decodes documents by `f` when it makes of their events what `f` makes of their trees, and
fails where `f` fails. -/
def Reader.Decodes (r : Reader α) (f : Tree → Option α) : Prop :=
  ∀ (ending : Fault) (d : Document) (es : List Event),
    (outcome (r ending (eventsOf d ++ es))).toOption = (f d.tree).map (·, es)

lemma text_decodes : text.Decodes Tree.text? := by
  intro ending d es
  cases d <;> rfl

lemma outcome_items (item : Reader α) (ending : Fault) {e : Event} (he : e ≠ .endCollection)
    (es : List Event) :
    outcome (items item ending (e :: es)) = (outcome (item ending (e :: es))).bind fun p =>
      (outcome (items item ending p.2)).map fun q => (p.1 :: q.1, q.2) := by
  rw [items]
  · cases item ending (e :: es) with
    | error f => rfl
    | ok p =>
      simp only [outcome, Except.map, Except.bind]
      cases items item ending p.2.1 <;> rfl
  · exact he

lemma items_decodes {item : Reader α} {f : Tree → Option α} (hf : item.Decodes f) (ending : Fault)
    (ds : List Document) (es : List Event) :
    (outcome (items item ending (itemEvents ds ++ .endCollection :: es))).toOption =
      ((trees ds).mapM f).map (·, es) := by
  induction ds with
  | nil =>
    rw [itemEvents, List.nil_append, items]
    rfl
  | cons d ds ih =>
    obtain ⟨e, gs, hd, he⟩ := exists_cons_eventsOf d
    have hs : itemEvents (d :: ds) ++ .endCollection :: es =
        e :: (gs ++ (itemEvents ds ++ .endCollection :: es)) := by
      simp [itemEvents, hd]
    have hi := hf ending d (itemEvents ds ++ .endCollection :: es)
    rw [hd, List.cons_append] at hi
    rw [hs, outcome_items item ending he, toOption_bind, hi, trees, List.mapM_cons]
    cases f d.tree with
    | none => rfl
    | some a =>
      simp only [Option.map_some, Option.bind_some, toOption_map, ih]
      cases (trees ds).mapM f <;> rfl

lemma array_decodes {item : Reader α} {f : Tree → Option α} (hf : item.Decodes f) :
    (array item).Decodes (Tree.items? f) := by
  intro ending d es
  cases d with
  | text s => rfl
  | list ds =>
    have ha (fs : List Event) : outcome (array item ending (.startArray :: fs)) =
        outcome (items item ending fs) := outcome_widen _ _
    rw [eventsOf_list_append, ha, items_decodes hf]
    rfl
  | record ms => rfl

lemma rule_decodes : rule.Decodes Rule.ofTree? := by
  intro ending d es
  obtain ⟨hes, ht⟩ := eq_ok_of_outcome (tree_eventsOf d ending es)
  simp only [rule, ht]
  cases Rule.ofTree? d.tree <;> rfl

/-! ### Members -/

lemma fill_decodes {value : Reader α} {f : Tree → Option α} (hf : value.Decodes f) (i : ℕ)
    (known : Option α) (put : α → Grammar.Fields) (ending : Fault) (d : Document) (es : List Event) :
    (outcome (Fields.fill i known value put ending (eventsOf d ++ es))).toOption =
      known.elim ((f d.tree).map fun a => (put a, es)) fun _ => none := by
  cases known with
  | some a => rfl
  | none =>
    have hp : outcome (Fields.fill i none value put ending (eventsOf d ++ es)) =
        (outcome (value ending (eventsOf d ++ es))).map fun p => (put p.1, p.2) := by
      simp only [Fields.fill, outcome]
      cases value ending (eventsOf d ++ es) <;> rfl
    rw [hp, toOption_map, hf ending d es, Option.map_map]
    rfl

lemma outcome_members (f : Grammar.Fields) (ending : Fault) (k : String) (es : List Event) :
    Fields.members f ending (.text k :: es) =
      (outcome (Fields.member f (Grammar.Fields.names.idxOf? k) ending es)).bind fun p =>
        Fields.members p.1 ending p.2 := by
  have hk : field? (.text k) = .ok (Grammar.Fields.names.idxOf? k) := rfl
  rw [Fields.members]
  · simp only [hk]
    cases Fields.member f (Grammar.Fields.names.idxOf? k) ending es <;> rfl
  · simp

lemma member_unknown (f : Grammar.Fields) (ending : Fault) (d : Document) (es : List Event) :
    outcome (Fields.member f none ending (eventsOf d ++ es)) = .ok (f, es) := by
  obtain ⟨hes, ht⟩ := eq_ok_of_outcome (tree_eventsOf d ending es)
  simp only [Fields.member, ht]
  rfl

lemma members_decodes (f : Grammar.Fields) (ending : Fault) (ms : List (String × Document))
    (es : List Event) :
    (Fields.members f ending (memberEvents ms ++ .endCollection :: es)).toOption =
      f.after (memberTrees ms) := by
  induction ms generalizing f with
  | nil =>
    rw [memberEvents, List.nil_append, Fields.members]
    rfl
  | cons m ms ih =>
    obtain ⟨k, d⟩ := m
    rw [memberEvents, List.cons_append, List.append_assoc, outcome_members, toOption_bind, memberTrees]
    simp only [Grammar.Fields.after] at ih ⊢
    by_cases hname : k = "name"
    · subst hname
      have hi : Grammar.Fields.names.idxOf? "name" = some 0 := rfl
      simp only [hi, Fields.member, fill_decodes text_decodes, slot, if_true]
      cases f.name <;> cases d.tree.text? <;> simp [fill, ih]
    by_cases hscope : k = "scopeName"
    · subst hscope
      have hi : Grammar.Fields.names.idxOf? "scopeName" = some 1 := rfl
      simp only [hi, hname, Fields.member, fill_decodes text_decodes, slot, if_true, if_false]
      cases f.scopeName <;> cases d.tree.text? <;> simp [fill, ih]
    by_cases htypes : k = "fileTypes"
    · subst htypes
      have hi : Grammar.Fields.names.idxOf? "fileTypes" = some 2 := rfl
      simp only [hi, hname, hscope, Fields.member, fill_decodes (array_decodes text_decodes), slot,
        if_true, if_false]
      cases f.fileTypes <;> cases d.tree.items? Tree.text? <;> simp [fill, ih]
    by_cases hpatterns : k = "patterns"
    · subst hpatterns
      have hi : Grammar.Fields.names.idxOf? "patterns" = some 3 := rfl
      simp only [hi, hname, hscope, htypes, Fields.member, fill_decodes (array_decodes rule_decodes),
        slot, if_true, if_false]
      cases f.patterns <;> cases d.tree.items? Rule.ofTree? <;> simp [fill, ih]
    have hi : Grammar.Fields.names.idxOf? k = none := by
      simp [Grammar.Fields.names, hname, hscope, htypes, hpatterns]
    rw [hi, member_unknown]
    simp only [slot, hname, hscope, htypes, hpatterns, if_false]
    exact ih f

/-! ### Documents -/

lemma grammar_decodes (d : Document) : (Trace.grammar ⟨eventsOf d, none⟩).toOption = d.grammar? := by
  cases d with
  | text s => rfl
  | list ds => rfl
  | record ms =>
    have hm := members_decodes {} ⟨.unexpectedEndOfEventStream, none⟩ ms []
    rw [← List.append_nil (eventsOf _), eventsOf_record_append, Trace.grammar, grammar?, ← hm]
    simp only [Option.getD_none]
    cases Fields.members {} ⟨.unexpectedEndOfEventStream, none⟩
        (memberEvents ms ++ [.endCollection]) with
    | error f => rfl
    | ok f =>
      simp only [Except.toOption, Option.bind_some]
      cases f.grammar <;> rfl

theorem ofPropertyList_printed (d : Document) :
    (Grammar.ofPropertyList (Bytes.ofChars (printed d))).toOption = d.grammar? := by
  rw [Grammar.ofPropertyList, ofBytes_printed, grammar_decodes]

end PropertyList

end Highlight
