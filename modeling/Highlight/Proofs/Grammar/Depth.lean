import Highlight.Proofs.Json.Printer
import Mathlib.Data.Option.Basic
import Mathlib.Order.Lattice

/-! How deep the document of a rule is that was read from a value: no deeper than the value, whatever
records or arrays it was read from. -/

namespace Highlight

open Document
open Json (Value)

namespace Tree

mutual

def depth : Tree → ℕ
  | .array vs => itemsDepth vs + 1
  | .record ms => membersDepth ms + 1
  | _ => 0

def itemsDepth : List Tree → ℕ
  | [] => 0
  | v :: vs => max (depth v) (itemsDepth vs)

def membersDepth : List (Tree × Tree) → ℕ
  | [] => 0
  | (_, v) :: ms => max (depth v) (membersDepth ms)

end

lemma itemsDepth_le_iff {vs : List Tree} {n : ℕ} : itemsDepth vs ≤ n ↔ ∀ v ∈ vs, v.depth ≤ n := by
  induction vs with
  | nil => simp [itemsDepth]
  | cons v vs ih => rw [itemsDepth, Nat.max_le, ih, List.forall_mem_cons]

lemma membersDepth_le_iff {ms : List (Tree × Tree)} {n : ℕ} :
    membersDepth ms ≤ n ↔ ∀ m ∈ ms, m.2.depth ≤ n := by
  induction ms with
  | nil => simp [membersDepth]
  | cons m ms ih =>
    obtain ⟨k, v⟩ := m
    rw [membersDepth, Nat.max_le, ih, List.forall_mem_cons]

end Tree

namespace Captures

def depth (c : Captures) : ℕ := c.toDocument.value.depth

lemma membersDepth_scopes_le (es : List (String × String)) : Value.membersDepth (memberValues
    (es.map fun e => (e.1, .record [("name", .text e.2)]))) ≤ 1 := by
  induction es with
  | nil => exact Nat.zero_le 1
  | cons e es ih =>
    simp only [List.map_cons, memberValues, value, Value.membersDepth, Value.depth]
    omega

lemma depth_le_two (c : Captures) : c.depth ≤ 2 :=
  Nat.succ_le_succ (membersDepth_scopes_le c.entries)

lemma depth_empty : empty.depth = 1 := rfl

lemma depth_pos_of_scope? {t : Tree} {s : String} (h : scope? t = some s) : 1 ≤ t.depth := by
  cases t with
  | record | array => exact Nat.le_add_left 1 _
  | null | boolean | natural | negative | real | text | data => cases h

lemma depth_optional? {t : Tree} {c : Captures} (h : optional? t = some (some c)) :
    c.depth ≤ t.depth := by
  cases t with
  | record ms =>
    cases ms with
    | nil =>
      obtain rfl : empty = c := by simpa [optional?, ofTree?, ofMembers] using h
      exact Nat.le_of_eq depth_empty
    | cons m ms =>
      -- A label stands in a record of its own, or in an array.
      obtain ⟨k, v⟩ := m
      have hv : 1 ≤ v.depth := by
        cases hs : scope? v with
        | some s => exact depth_pos_of_scope? hs
        | none => simp [optional?, ofTree?, ofMembers, hs] at h
      have hc := c.depth_le_two
      rw [Tree.depth, Tree.membersDepth]
      omega
  | null | boolean | natural | negative | real | text | data | array => cases h

end Captures

namespace Rule

def depths (rs : List Rule) : ℕ := Value.itemsDepth (values (toDocuments rs))

def depth (r : Rule) : ℕ := r.toDocument.value.depth

@[simp] lemma depths_cons (r : Rule) (rs : List Rule) : depths (r :: rs) = max r.depth (depths rs) := rfl

lemma fill_eq_some {α : Type} {field value : Option α} {x : Option α}
    (h : SingleFields.fill field value = some x) : ∃ a, value = some a ∧ x = some a := by
  cases field with
  | some a => cases h
  | none => simpa [SingleFields.fill, eq_comm] using h

namespace SingleFields

def Fits (n : ℕ) (f : SingleFields) : Prop := ∀ c, f.captures = some (some c) → c.depth ≤ n

variable {n : ℕ} {f f' : SingleFields}

lemma fits_empty (n : ℕ) : Fits n {} := nofun

lemma Fits.set {v : Tree} {i : ℕ} (hf : f.Fits n) (hv : v.depth ≤ n) (h : f.set v i = some f') :
    f'.Fits n := by
  unfold SingleFields.set at h
  split at h
  · obtain ⟨x, -, rfl⟩ := Option.map_eq_some_iff.mp h
    exact hf
  · obtain ⟨x, -, rfl⟩ := Option.map_eq_some_iff.mp h
    exact hf
  · obtain ⟨x, hx, rfl⟩ := Option.map_eq_some_iff.mp h
    obtain ⟨a, ha, rfl⟩ := fill_eq_some hx
    rintro c hc
    obtain rfl := Option.some.inj hc
    exact Nat.le_trans (Captures.depth_optional? ha) hv
  · cases h

lemma Fits.setAll {ms : List (Tree × Tree)} (hf : f.Fits n) (hn : Tree.membersDepth ms ≤ n)
    (h : f.setAll ms = some f') : f'.Fits n := by
  induction ms generalizing f with
  | nil =>
    obtain rfl := Option.some.inj h
    exact hf
  | cons m ms ih =>
    obtain ⟨k, v⟩ := m
    obtain ⟨hv, hms⟩ := Nat.max_le.mp hn
    rw [SingleFields.setAll] at h
    split at h
    · obtain ⟨g, hg, hs⟩ := Option.bind_eq_some_iff.mp h
      exact ih (hf.set hv hg) hms hs
    · exact ih hf hms h
    · cases h

lemma Fits.setItems {vs : List Tree} {i : ℕ} (hf : f.Fits n) (hn : Tree.itemsDepth vs ≤ n)
    (h : f.setItems i vs = some f') : f'.Fits n := by
  induction vs generalizing f i with
  | nil =>
    obtain rfl := Option.some.inj h
    exact hf
  | cons v vs ih =>
    obtain ⟨hv, hvs⟩ := Nat.max_le.mp hn
    obtain ⟨g, hg, hs⟩ := Option.bind_eq_some_iff.mp h
    exact ih (hf.set hv hg) hvs hs

lemma Fits.rule? {r : Rule} (hf : f.Fits n) (h : f.rule? = some r) : r.depth ≤ n + 1 := by
  obtain ⟨name, pattern, captures⟩ := f
  unfold SingleFields.rule? at h
  split at h
  · obtain rfl := Option.some.inj h
    refine Nat.succ_le_succ ?_
    rcases captures with _ | _ | c
    · exact Nat.zero_le n
    · exact Nat.zero_le n
    · have hc : c.toDocument.value.depth ≤ n := hf c rfl
      simpa [optionalMember, memberValues, value, Value.membersDepth, Value.depth] using hc
  · cases h

end SingleFields

lemma depth_single? {t : Tree} {r : Rule} (h : single? t = some r) : r.depth ≤ t.depth := by
  cases t with
  | record ms =>
    obtain ⟨f, hf, hr⟩ := Option.bind_eq_some_iff.mp h
    exact ((SingleFields.fits_empty _).setAll (Nat.le_refl _) hf).rule? hr
  | array vs =>
    obtain ⟨f, hf, hr⟩ := Option.bind_eq_some_iff.mp h
    exact ((SingleFields.fits_empty _).setItems (Nat.le_refl _) hf).rule? hr
  | null | boolean | natural | negative | real | text | data => cases h

namespace RegionFields

structure Fits (n : ℕ) (f : RegionFields) : Prop where
  patterns : ∀ rs, f.patterns = some (some rs) → depths rs + 1 ≤ n
  openingCaptures : ∀ c, f.openingCaptures = some (some c) → c.depth ≤ n
  closingCaptures : ∀ c, f.closingCaptures = some (some c) → c.depth ≤ n

variable {n : ℕ} {f f' : RegionFields}

lemma fits_empty (n : ℕ) : Fits n {} := ⟨nofun, nofun, nofun⟩

lemma Fits.set {v : Tree} {nested : Option (Option (List Rule))} {i : ℕ} (hf : f.Fits n)
    (hv : v.depth ≤ n) (hn : ∀ rs, nested = some (some rs) → depths rs + 1 ≤ v.depth)
    (h : f.set v nested i = some f') : f'.Fits n := by
  have hcaptures {c : Captures} {x : Option Captures} (hx : Captures.optional? v = some x)
      (hc : some x = some (some c)) : c.depth ≤ n := by
    obtain rfl := Option.some.inj hc
    exact Nat.le_trans (Captures.depth_optional? hx) hv
  unfold RegionFields.set at h
  split at h
  case h_4 =>
    obtain ⟨x, hx, rfl⟩ := Option.map_eq_some_iff.mp h
    obtain ⟨a, ha, rfl⟩ := fill_eq_some hx
    refine ⟨fun rs hrs => ?_, hf.openingCaptures, hf.closingCaptures⟩
    obtain rfl := Option.some.inj hrs
    exact Nat.le_trans (hn rs ha) hv
  case h_5 =>
    obtain ⟨x, hx, rfl⟩ := Option.map_eq_some_iff.mp h
    obtain ⟨a, ha, rfl⟩ := fill_eq_some hx
    exact ⟨hf.patterns, fun c => hcaptures ha, hf.closingCaptures⟩
  case h_6 =>
    obtain ⟨x, hx, rfl⟩ := Option.map_eq_some_iff.mp h
    obtain ⟨a, ha, rfl⟩ := fill_eq_some hx
    exact ⟨hf.patterns, hf.openingCaptures, fun c => hcaptures ha⟩
  case h_7 => cases h
  all_goals
    obtain ⟨x, -, rfl⟩ := Option.map_eq_some_iff.mp h
    exact ⟨hf.patterns, hf.openingCaptures, hf.closingCaptures⟩

lemma Fits.rule? {r : Rule} (hf : f.Fits n) (h : f.rule? = some r) : r.depth ≤ n + 1 := by
  obtain ⟨name, opening, closing, patterns, openingCaptures, closingCaptures⟩ := f
  unfold RegionFields.rule? at h
  split at h
  · obtain rfl := Option.some.inj h
    have hp (rs : List Rule) (h : patterns.join = some rs) : depths rs + 1 ≤ n :=
      hf.patterns rs (Option.join_eq_some_iff.mp h)
    have ho (c : Captures) (h : openingCaptures.join = some c) : c.toDocument.value.depth ≤ n :=
      hf.openingCaptures c (Option.join_eq_some_iff.mp h)
    have hc (c : Captures) (h : closingCaptures.join = some c) : c.toDocument.value.depth ≤ n :=
      hf.closingCaptures c (Option.join_eq_some_iff.mp h)
    refine Nat.succ_le_succ ?_
    simp only
    generalize patterns.join = ps at hp
    generalize openingCaptures.join = oc at ho
    generalize closingCaptures.join = cc at hc
    cases ps <;> cases oc <;> cases cc <;>
      simp_all [nestedMember, optionalMember, memberValues, value, Value.membersDepth, Value.depth, depths]
  · cases h

end RegionFields

mutual

theorem depth_ofTree? {t : Tree} {r : Rule} (h : ofTree? t = some r) : r.depth ≤ t.depth := by
  cases t with
  | record ms =>
    rcases (Option.orElse_eq_some _ _ _).mp h with h | ⟨-, h⟩
    · exact depth_single? h
    · obtain ⟨f, hf, hr⟩ := Option.bind_eq_some_iff.mp h
      exact (fits_regionMembers (RegionFields.fits_empty _) (Nat.le_refl _) hf).rule? hr
  | array vs =>
    rcases (Option.orElse_eq_some _ _ _).mp h with h | ⟨-, h⟩
    · exact depth_single? h
    · obtain ⟨f, hf, hr⟩ := Option.bind_eq_some_iff.mp h
      exact (fits_regionItems (RegionFields.fits_empty _) (Nat.le_refl _) hf).rule? hr
  | null | boolean | natural | negative | real | text | data => cases h
termination_by sizeOf t

theorem fits_regionMembers {ms : List (Tree × Tree)} {f f' : RegionFields} {n : ℕ} (hf : f.Fits n)
    (hn : Tree.membersDepth ms ≤ n) (h : regionMembers f ms = some f') : f'.Fits n := by
  match ms with
  | [] =>
    obtain rfl := Option.some.inj h
    exact hf
  | (k, v) :: ms =>
    obtain ⟨hv, hms⟩ := Nat.max_le.mp hn
    rw [regionMembers] at h
    split at h
    · obtain ⟨g, hg, hs⟩ := Option.bind_eq_some_iff.mp h
      exact fits_regionMembers (hf.set hv (fun rs => depth_nested?) hg) hms hs
    · exact fits_regionMembers hf hms h
    · cases h
termination_by sizeOf ms

theorem fits_regionItems {vs : List Tree} {f f' : RegionFields} {i n : ℕ} (hf : f.Fits n)
    (hn : Tree.itemsDepth vs ≤ n) (h : regionItems f i vs = some f') : f'.Fits n := by
  match vs with
  | [] =>
    obtain rfl := Option.some.inj h
    exact hf
  | v :: vs =>
    obtain ⟨hv, hvs⟩ := Nat.max_le.mp hn
    obtain ⟨g, hg, hs⟩ := Option.bind_eq_some_iff.mp h
    exact fits_regionItems (hf.set hv (fun rs => depth_nested?) hg) hvs hs
termination_by sizeOf vs

theorem depth_nested? {t : Tree} {rs : List Rule} (h : nested? t = some (some rs)) :
    depths rs + 1 ≤ t.depth := by
  cases t with
  | array vs =>
    obtain ⟨us, hus, hrs⟩ := Option.map_eq_some_iff.mp h
    obtain rfl := Option.some.inj hrs
    exact Nat.succ_le_succ (depths_ofTrees? hus)
  | null | boolean | natural | negative | real | text | data | record => cases h
termination_by sizeOf t

theorem depths_ofTrees? {vs : List Tree} {rs : List Rule} (h : ofTrees? vs = some rs) :
    depths rs ≤ Tree.itemsDepth vs := by
  match vs with
  | [] =>
    obtain rfl := Option.some.inj h
    exact Nat.le_refl 0
  | v :: vs =>
    rw [ofTrees?] at h
    split at h
    · next r hr =>
      obtain ⟨us, hus, rfl⟩ := Option.map_eq_some_iff.mp h
      have hd := depth_ofTree? hr
      have hs := depths_ofTrees? hus
      rw [depths_cons, Tree.itemsDepth]
      omega
    · cases h
termination_by sizeOf vs

end

end Rule

end Highlight
