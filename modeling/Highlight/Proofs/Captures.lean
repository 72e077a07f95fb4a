import Highlight.Format
import Highlight.Proofs.Grammar.Document
import Highlight.Proofs.Text.Numeral
import Highlight.Proofs.Text.Order
import Mathlib.Data.List.Nodup
import Mathlib.Data.List.Perm.Basic

/-! Captures put together from pairs of keys and labels. -/

namespace Highlight

namespace Captures

lemma lookup_cons (k s key : String) (es : List (String × String)) :
    ((k, s) :: es).lookup key = if key = k then some s else es.lookup key := by
  rw [List.lookup_cons]
  by_cases h : key = k
  · simp [h]
  · simp [beq_false_of_ne h, h]

lemma lookup_insertEntry (k s key : String) (es : List (String × String)) :
    (insertEntry k s es).lookup key = if key = k then some s else es.lookup key := by
  induction es with
  | nil => exact lookup_cons k s key []
  | cons e es ih =>
    obtain ⟨k', s'⟩ := e
    rw [insertEntry]
    split
    · exact lookup_cons k s key _
    · split
      · next hk =>
        rw [lookup_cons, lookup_cons, ← hk]
        split <;> rfl
      · next hk =>
        rw [lookup_cons, lookup_cons, ih]
        by_cases h : key = k'
        · rw [if_pos h, if_pos h, if_neg (h ▸ Ne.symm hk)]
        · rw [if_neg h, if_neg h]

lemma get?_insert (c : Captures) (k s l : String) :
    (c.insert k s).get? l = if l = k then some s else c.get? l :=
  lookup_insertEntry k s l c.entries

lemma get?_foldl (labels : List (String × String)) (c : Captures) (key : String) :
    (labels.foldl (fun c l => c.insert l.1 l.2) c).get? key =
      ((labels.filter (·.1 = key)).map (·.2)).getLast?.or (c.get? key) := by
  induction labels generalizing c with
  | nil => rfl
  | cons l labels ih =>
    rw [List.foldl_cons, ih, get?_insert]
    by_cases h : l.1 = key
    · simp [h, List.getLast?_cons]
    · simp [h, Ne.symm h]

lemma get?_ofList (labels : List (String × String)) (key : String) :
    (ofList labels).get? key = ((labels.filter (·.1 = key)).map (·.2)).getLast? := by
  rw [ofList, get?_foldl]
  exact Option.or_none

lemma mem_entries_iff (c : Captures) (key label : String) :
    (key, label) ∈ c.entries ↔ c.get? key = some label := by
  have hs := c.sorted
  rw [get?]
  generalize c.entries = es at hs
  induction es with
  | nil => simp
  | cons e es ih =>
    obtain ⟨k, s⟩ := e
    obtain ⟨hk, hs⟩ := List.pairwise_cons.mp hs
    by_cases h : key = k
    · subst h
      have hn : (key, label) ∉ es := fun hm => String.lt_irrefl key (hk _ hm)
      simp [hn, eq_comm]
    · simp [lookup_cons, h, ih hs]

lemma nodup_keys (c : Captures) : (c.entries.map (·.1)).Nodup :=
  List.pairwise_map.mpr (c.sorted.imp fun {e f} (h : e.1 < f.1) (he : e.1 = f.1) =>
    String.lt_irrefl f.1 (he ▸ h))

lemma ext_of_get? {c d : Captures} (h : ∀ key, c.get? key = d.get? key) : c = d := by
  have hmem (e : String × String) : e ∈ c.entries ↔ e ∈ d.entries := by
    rw [mem_entries_iff, mem_entries_iff, h]
  have hperm : c.entries.Perm d.entries :=
    (List.perm_ext_iff_of_nodup (List.Nodup.of_map _ c.nodup_keys) (List.Nodup.of_map _ d.nodup_keys)).mpr hmem
  have heq : c.entries = d.entries :=
    hperm.eq_of_pairwise (fun a b _ _ hab hba => absurd hab (String.lt_asymm hba)) c.sorted d.sorted
  cases c
  cases d
  cases heq
  rfl

end Captures

namespace CaptureSpec

open Captures

def labelsOf (pairs : List (Key × String)) (key : String) : List String :=
  (pairs.filter (·.1.spelling = key)).map (·.2)

variable {pairs others : List (Key × String)}

lemma captures_ofLabels (labels : List (String × String)) : (ofLabels labels).captures = ofList labels :=
  ofList_entries (ofList labels)

lemma ofCaptures_eq (c : Captures) : ofCaptures c = indexed c := congrArg indexed (ofList_entries c)

lemma captures_ofCaptures (c : Captures) : (ofCaptures c).captures = c := by
  rw [ofCaptures, captures_ofLabels, ofList_entries]

lemma captures_single (label : String) :
    (single label).captures = (ofPairs [(.number 1, label)]).captures := by
  rw [ofPairs, captures_ofLabels]
  rfl

lemma get?_ofPairs (pairs : List (Key × String)) (key : String) :
    (ofPairs pairs).captures.get? key = (labelsOf pairs key).getLast? := by
  rw [ofPairs, captures_ofLabels, get?_ofList, List.filter_map, List.map_map]
  rfl

lemma captures_congr (h : ∀ key, labelsOf others key = labelsOf pairs key) :
    (ofPairs others).captures = (ofPairs pairs).captures :=
  ext_of_get? fun key => by rw [get?_ofPairs, get?_ofPairs, h]

lemma labelsOf_eq_nil_iff (pairs : List (Key × String)) (key : String) :
    labelsOf pairs key = [] ↔ key ∉ pairs.map (·.1.spelling) := by
  simp [labelsOf]

lemma labelsOf_perm (h : others.Perm pairs) (hd : (pairs.map (·.1.spelling)).Nodup) (key : String) :
    labelsOf others key = labelsOf pairs key := by
  have hp : (labelsOf others key).Perm (labelsOf pairs key) := (h.filter _).map _
  have hl : (labelsOf pairs key).length ≤ 1 := by
    have hc := List.nodup_iff_count_le_one.mp hd key
    rw [List.count, List.countP_map, List.countP_eq_length_filter] at hc
    simpa [labelsOf, Function.comp_def, beq_eq_decide] using hc
  match hl' : labelsOf pairs key, hl with
  | [], _ => exact List.perm_nil.mp (hl' ▸ hp)
  | [label], _ => exact List.perm_singleton.mp (hl' ▸ hp)

/-- Each key of the pairs stands once in the captures, in the order of bytes, and is found there with the last
of its labels. -/
structure Collects (pairs : List (Key × String)) (c : Captures) : Prop where
  ascending : c.entries.Pairwise fun e f => Bytes.ofString e.1 < Bytes.ofString f.1
  once (key : String) :
    (c.entries.map (·.1)).count key = if key ∈ pairs.map (·.1.spelling) then 1 else 0
  entry (key label : String) : (key, label) ∈ c.entries ↔ (labelsOf pairs key).getLast? = some label
  found (key : String) : c.get? key = (labelsOf pairs key).getLast?

lemma collects_ofPairs (pairs : List (Key × String)) : Collects pairs (ofPairs pairs).captures where
  ascending := (ofPairs pairs).captures.sorted.imp fun h => Bytes.ofString_lt h
  once key := by
    have hk : key ∈ (ofPairs pairs).captures.entries.map (·.1) ↔ key ∈ pairs.map (·.1.spelling) := by
      rw [← Decidable.not_not (p := key ∈ pairs.map _), ← labelsOf_eq_nil_iff, ← List.getLast?_eq_none_iff,
        ← get?_ofPairs, ← ne_eq, Option.ne_none_iff_exists']
      simp [mem_entries_iff]
    rw [(nodup_keys _).count]
    simp only [hk]
  entry key label := by rw [mem_entries_iff, get?_ofPairs]
  found := get?_ofPairs pairs

/-- The captures of pairs hold each of their keys once, in the order of bytes, with the last of its labels. Pairs may
change places as long as each key keeps its labels in order, as it does if all keys differ. A single label stands for
key 1, and captures are their own specification. -/
theorem captures_last_label :
    (∀ pairs, Collects pairs (ofPairs pairs).captures) ∧
    (∀ pairs others, (others.Perm pairs ∧ (pairs.map (·.1.spelling)).Nodup) ∨
        (∀ key, labelsOf others key = labelsOf pairs key) →
      (ofPairs others).captures = (ofPairs pairs).captures ∧
        ∀ (around : Captures → Grammar) (f : Format),
          (around (ofPairs others).captures).toBytes f = (around (ofPairs pairs).captures).toBytes f) ∧
    (∀ n : Int, -Digits.signedEnd ≤ n → n < Digits.wordEnd →
      Numeral.integer? (Key.spelling (.number n)).toList = some n) ∧
    Key.spelling (.number 1) = Key.spelling (.text "1") ∧
    (∀ label, (single label).captures = (ofPairs [(.number 1, label)]).captures) ∧
    ∀ s : CaptureSpec, ofCaptures s.captures = indexed s.captures ∧
      (ofCaptures s.captures).captures = s.captures := by
  refine ⟨collects_ofPairs, fun pairs others h => ?_, fun n hl hu => Numeral.integer?_repr hl hu, rfl,
    captures_single, fun s => ⟨ofCaptures_eq s.captures, captures_ofCaptures s.captures⟩⟩
  have hlabels : ∀ key, labelsOf others key = labelsOf pairs key := by
    rcases h with ⟨hp, hd⟩ | h
    · exact labelsOf_perm hp hd
    · exact h
  have hc := captures_congr hlabels
  exact ⟨hc, fun around f => by rw [hc]⟩

theorem captures_last_label_reversed :
    ([(.text "b", "B"), (.number (-1), "A")] : List (Key × String)).Perm [(.number (-1), "A"), (.text "b", "B")] ∧
    ([(.number (-1), "A"), (.text "b", "B")].map fun p : Key × String => p.1.spelling).Nodup ∧
    (ofPairs [(.text "b", "B"), (.number (-1), "A")]).captures =
      (ofPairs [(.number (-1), "A"), (.text "b", "B")]).captures ∧
    -(Digits.signedEnd : Int) ≤ -1 ∧ (-1 : Int) < Digits.wordEnd ∧
    Numeral.integer? (Key.spelling (.number (-1))).toList = some (-1) := by
  have hp : ([(.text "b", "B"), (.number (-1), "A")] : List (Key × String)).Perm
      [(.number (-1), "A"), (.text "b", "B")] := by decide
  have hd : ([(.number (-1), "A"), (.text "b", "B")].map fun p : Key × String => p.1.spelling).Nodup := by
    decide
  obtain ⟨-, hperm, hread, -⟩ := captures_last_label
  exact ⟨hp, hd, (hperm _ _ (.inl ⟨hp, hd⟩)).1, by decide, by decide, hread (-1) (by decide) (by decide)⟩

example : (ofPairs [(.number 10, "a"), (.number 2, "b"), (.text "10", "c")]).captures.entries =
    [("10", "c"), ("2", "b")] := by
  decide

end CaptureSpec

end Highlight
