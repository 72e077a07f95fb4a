import Highlight.Proofs.Grammar.Injective
import Highlight.Proofs.Grammar.Reordering
import Highlight.Proofs.Json.Unlimited

/-! Which members a grammar has where it is written: those for the fields that it has, and no others. -/

namespace Highlight

open Bytes Document

/-! ### Reading any value -/

def PropertyList.Trace.value? (t : PropertyList.Trace) : Option Tree :=
  match t.fault, outcome (tree ⟨.unexpectedEndOfEventStream, none⟩ t.events) with
  | none, .ok (v, []) => some v
  | _, _ => none

def Tree.ofBytes (f : Format) (document : Bytes) : Option Tree :=
  match f with
  | .json => Json.value? document
  | .propertyList => (PropertyList.Trace.ofBytes document).value?

lemma Tree.ofBytes_toBytes (g : Grammar) (f : Format) : ofBytes f (g.toBytes f) = some g.toDocument.tree := by
  cases f with
  | json =>
    rw [Grammar.toBytes_json, ofBytes]
    exact Json.value?_of_outcome (Nat.le_max_right g.toDocument.value.depth _) (tree_indented (Nat.le_max_left _ _))
  | propertyList =>
    have hread := PropertyList.tree_eventsOf g.toDocument ⟨.unexpectedEndOfEventStream, none⟩ []
    rw [List.append_nil] at hread
    rw [Grammar.toBytes_propertyList, ofBytes, PropertyList.ofBytes_printed, PropertyList.Trace.value?, hread]

/-! ### What a value shows -/

inductive Supplied {α : Type} (key : String) (shows : α → Tree → Prop) : Option α → List (Tree × Tree) → Prop
  | absent : Supplied key shows none []
  | present {a : α} {t : Tree} : shows a t → Supplied key shows (some a) [(.text key, t)]

def Captures.ShownBy (c : Captures) (t : Tree) : Prop :=
  t = .record (c.entries.map fun e => (.text e.1, .record [(.text "name", .text e.2)]))

mutual

inductive Rule.ShownBy : Rule → Tree → Prop
  | single {name pattern : String} {captures : Option Captures} {ms : List (Tree × Tree)} :
      Supplied "captures" Captures.ShownBy captures ms →
      Rule.ShownBy (.single name pattern captures)
        (.record ([(.text "name", .text name), (.text "match", .text pattern)] ++ ms))
  | region {name opening closing : String} {patterns : Option (List Rule)}
      {openingCaptures closingCaptures : Option Captures} {ps os cs : List (Tree × Tree)} :
      Rule.NestedShownBy patterns ps → Supplied "beginCaptures" Captures.ShownBy openingCaptures os →
      Supplied "endCaptures" Captures.ShownBy closingCaptures cs →
      Rule.ShownBy (.region name opening closing patterns openingCaptures closingCaptures)
        (.record ([(.text "name", .text name), (.text "begin", .text opening), (.text "end", .text closing)] ++
          ps ++ os ++ cs))

inductive Rule.NestedShownBy : Option (List Rule) → List (Tree × Tree) → Prop
  | absent : Rule.NestedShownBy none []
  | present {rs : List Rule} {ts : List Tree} : List.Forall₂ Rule.ShownBy rs ts →
      Rule.NestedShownBy (some rs) [(.text "patterns", .array ts)]

end

inductive Grammar.ShownBy (g : Grammar) : Tree → Prop
  | record {ts : List Tree} : List.Forall₂ Rule.ShownBy g.patterns ts →
      ShownBy g (.record [(.text "name", .text g.name), (.text "scopeName", .text g.scopeName),
        (.text "fileTypes", .array (g.fileTypes.map .text)), (.text "patterns", .array ts)])

inductive Tree.Plain : Tree → Prop
  | text (s : String) : Plain (.text s)
  | array {ts : List Tree} : (∀ t ∈ ts, Plain t) → Plain (.array ts)
  | record {ms : List (String × Tree)} : (∀ m ∈ ms, Plain m.2) → Plain (.record (textKeys ms))

/-! ### What a grammar is written as -/

lemma textKeys_memberTrees_append (ms ns : List (String × Document)) :
    textKeys (memberTrees (ms ++ ns)) = textKeys (memberTrees ms) ++ textKeys (memberTrees ns) := by
  simp only [textKeys, memberTrees_eq_map, List.map_append]

lemma supplied_optionalMember {α : Type} {key : String} {f : α → Document} {shows : α → Tree → Prop}
    (h : ∀ a, shows a (f a).tree) (o : Option α) :
    Supplied key shows o (textKeys (memberTrees (Rule.optionalMember key f o))) := by
  cases o with
  | none => exact .absent
  | some a => exact .present (h a)

lemma Captures.shownBy_toDocument (c : Captures) : c.ShownBy c.toDocument.tree := by
  rw [ShownBy, toDocument, Document.tree, textKeys, memberTrees_eq_map, List.map_map, List.map_map]
  rfl

mutual

theorem Rule.shownBy_toDocument (r : Rule) : r.ShownBy r.toDocument.tree := by
  cases r with
  | single name pattern captures =>
    rw [toDocument, Document.tree, textKeys_memberTrees_append]
    exact .single (supplied_optionalMember Captures.shownBy_toDocument captures)
  | region name opening closing patterns openingCaptures closingCaptures =>
    rw [toDocument, Document.tree]
    simp only [textKeys_memberTrees_append]
    exact .region (nestedShownBy patterns) (supplied_optionalMember Captures.shownBy_toDocument openingCaptures)
      (supplied_optionalMember Captures.shownBy_toDocument closingCaptures)

theorem Rule.nestedShownBy (patterns : Option (List Rule)) :
    Rule.NestedShownBy patterns (textKeys (memberTrees (nestedMember patterns))) := by
  cases patterns with
  | none => exact .absent
  | some rs => exact .present (shownBy_toDocuments rs)

theorem Rule.shownBy_toDocuments (rs : List Rule) :
    List.Forall₂ Rule.ShownBy rs (trees (toDocuments rs)) := by
  cases rs with
  | nil => exact .nil
  | cons r rs => exact .cons (Rule.shownBy_toDocument r) (shownBy_toDocuments rs)

end

lemma Grammar.shownBy_toDocument (g : Grammar) : g.ShownBy g.toDocument.tree := by
  have htexts : trees (g.fileTypes.map .text) = g.fileTypes.map .text := by
    rw [trees_eq_map, List.map_map]
    rfl
  rw [toDocument, Document.tree]
  simp only [memberTrees, Document.tree, htexts]
  exact .record (Rule.shownBy_toDocuments g.patterns)

mutual

theorem Document.plain_tree (d : Document) : d.tree.Plain := by
  cases d with
  | text s => exact .text s
  | list ds => exact .array (plain_trees ds)
  | record ms => exact .record (plain_memberTrees ms)

theorem Document.plain_trees (ds : List Document) : ∀ t ∈ trees ds, t.Plain := by
  cases ds with
  | nil => simp [trees]
  | cons d ds =>
    rw [trees, List.forall_mem_cons]
    exact ⟨plain_tree d, plain_trees ds⟩

theorem Document.plain_memberTrees (ms : List (String × Document)) : ∀ m ∈ memberTrees ms, m.2.Plain := by
  match ms with
  | [] => simp [memberTrees]
  | (k, d) :: ms =>
    rw [memberTrees, List.forall_mem_cons]
    exact ⟨plain_tree d, plain_memberTrees ms⟩

end

/-- In either format a file holds the fields that are supplied, at every depth, and nothing else. -/
theorem Grammar.supplied_fields_only (g : Grammar) (f : Format) :
    ∃ t, Tree.ofBytes f (g.toBytes f) = some t ∧ g.ShownBy t ∧ t.Plain :=
  ⟨_, Tree.ofBytes_toBytes g f, g.shownBy_toDocument, g.toDocument.plain_tree⟩

end Highlight
