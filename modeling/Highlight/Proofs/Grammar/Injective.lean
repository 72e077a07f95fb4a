import Highlight.Proofs.PropertyList.Decoding
import Highlight.Proofs.Json.RoundTrip

/-! Different grammars are never written alike, however deep they are. Each text tells the tree of its
document, as a reader shows that allows as many open brackets as there are. -/

namespace Highlight

open Bytes Json

namespace Document

mutual

theorem eq_of_tree {d e : Document} (h : d.tree = e.tree) : d = e := by
  cases d with
  | text s =>
    cases e with
    | text t =>
      obtain rfl := Tree.text.inj h
      rfl
    | list | record => cases h
  | list ds =>
    cases e with
    | list es => rw [eq_of_trees (Tree.array.inj h)]
    | text | record => cases h
  | record ms =>
    cases e with
    | record ns => rw [eq_of_memberTrees (Tree.record.inj h)]
    | text | list => cases h

theorem eq_of_trees {ds es : List Document} (h : trees ds = trees es) : ds = es := by
  match ds, es with
  | [], [] => rfl
  | [], _ :: _ => cases h
  | _ :: _, [] => cases h
  | d :: ds, e :: es =>
    obtain ⟨hd, hds⟩ := List.cons.inj h
    rw [eq_of_tree hd, eq_of_trees hds]

theorem eq_of_memberTrees {ms ns : List (String × Document)}
    (h : textKeys (memberTrees ms) = textKeys (memberTrees ns)) : ms = ns := by
  match ms, ns with
  | [], [] => rfl
  | [], _ :: _ => cases h
  | _ :: _, [] => cases h
  | (k, d) :: ms, (l, e) :: ns =>
    obtain ⟨hm, hms⟩ := List.cons.inj h
    obtain ⟨hk, hd⟩ := Prod.mk.inj hm
    obtain rfl : k = l := Tree.text.inj hk
    rw [eq_of_tree hd, eq_of_memberTrees hms]

end

lemma tree_indented {d : Document} {n : ℕ} (h : d.value.depth ≤ n) :
    (Json.tree n (ofChars (indented 0 d))).outcome = .ok (d.tree, []) := by
  have hends : Ends [] := by simp [Ends]
  have ht := tree_decodes n .nil (spells_indented d 0) hends
  rw [List.nil_append, List.append_nil, treeOf_of_depth_le h, tree_value] at ht
  exact ht

lemma eq_of_indented {d e : Document} (h : ofChars (indented 0 d) = ofChars (indented 0 e)) : d = e := by
  have hd := tree_indented (Nat.le_max_left d.value.depth e.value.depth)
  have he := tree_indented (Nat.le_max_right d.value.depth e.value.depth)
  rw [h, he] at hd
  exact eq_of_tree (Prod.mk.inj (Except.ok.inj hd)).1.symm

lemma eq_of_printed {d e : Document}
    (h : ofChars (PropertyList.printed d) = ofChars (PropertyList.printed e)) : d = e := by
  have hevents : PropertyList.eventsOf d = PropertyList.eventsOf e := by
    have ht := congrArg PropertyList.Trace.ofBytes h
    rw [PropertyList.ofBytes_printed, PropertyList.ofBytes_printed] at ht
    exact congrArg PropertyList.Trace.events ht
  have hd := PropertyList.tree_eventsOf d ⟨.unexpectedEndOfEventStream, none⟩ []
  have he := PropertyList.tree_eventsOf e ⟨.unexpectedEndOfEventStream, none⟩ []
  rw [hevents, he] at hd
  exact eq_of_tree (Prod.mk.inj (Except.ok.inj hd)).1.symm

end Document

namespace Grammar

lemma toBytes_json (g : Grammar) : g.toBytes .json = Bytes.ofChars (Json.indented 0 g.toDocument) :=
  Bytes.ofString_ofList _

lemma toDocument_injective : Function.Injective toDocument := by
  intro g h hgh
  have hg := grammar_eventsOf g
  rw [hgh, grammar_eventsOf h] at hg
  exact (Except.ok.inj hg).symm

theorem toBytes_eq_iff (f : Format) (g h : Grammar) : g.toBytes f = h.toBytes f ↔ g = h := by
  refine ⟨fun hb => toDocument_injective ?_, fun hgh => hgh ▸ rfl⟩
  cases f with
  | json =>
    simp only [toBytes, text, ofString_ofList] at hb
    exact Document.eq_of_indented hb
  | propertyList =>
    simp only [toBytes, text, ofString_ofList] at hb
    exact Document.eq_of_printed hb

end Grammar

end Highlight
