import Mathlib.Data.List.TakeWhile
import Highlight.PropertyList.Markup

/-! Pieces of XML whose end is not seen yet. What is found at the front of a text is found there however
the text goes on, but for a run of characters that reaches its end. -/

namespace Highlight.PropertyList

namespace Markup

lemma length_le_of_after? {target s r : Bytes} (h : after? target s = some r) :
    target.length ≤ s.length := by
  induction s with
  | nil => cases h
  | cons b s ih =>
    rw [after?] at h
    split at h
    · next hp => exact (List.isPrefixOf_iff_prefix.mp hp).length_le
    · exact Nat.le_succ_of_le (ih h)

lemma after?_longer {target s r : Bytes} (h : after? target s = some r) (t : Bytes) :
    after? target (s ++ t) = some (r ++ t) := by
  induction s with
  | nil => cases h
  | cons b s ih =>
    have hle := length_le_of_after? h
    have hpre : target <+: b :: s ++ t ↔ target <+: b :: s :=
      ⟨fun hp => List.prefix_of_prefix_length_le hp (List.prefix_append _ _) hle,
        fun hp => hp.trans (List.prefix_append _ _)⟩
    simp only [after?, List.cons_append, List.isPrefixOf_iff_prefix] at h hpre ⊢
    split at h
    · next hp =>
      obtain rfl := Option.some.inj h
      have hd : target.length - 1 ≤ s.length := by
        rw [List.length_cons] at hle
        omega
      rw [if_pos (hpre.mpr hp), List.drop_append_of_le_length hd]
    · next hp => rw [if_neg (mt hpre.mp hp), ih h]

lemma tag?_longer {mark : Option UInt8} {s inside r : Bytes} (h : tag? mark s = some (inside, r))
    (t : Bytes) : tag? mark (s ++ t) = some (inside, r ++ t) := by
  induction s generalizing mark inside with
  | nil => cases h
  | cons b s ih =>
    rw [tag?.eq_def] at h
    rw [List.cons_append, tag?.eq_def]
    simp only at h ⊢
    split at h
    · next hb =>
      obtain ⟨rfl, rfl⟩ := Prod.mk.inj (Option.some.inj h)
      rw [if_pos hb]
    · next hb =>
      obtain ⟨⟨i, u⟩, hi, hp⟩ := Option.map_eq_some_iff.mp h
      obtain ⟨rfl, rfl⟩ := Prod.mk.inj hp
      rw [if_neg hb, ih hi]
      rfl

lemma afterType?_longer {part : TypePart} {s r : Bytes} (h : afterType? part s = some r) (t : Bytes) :
    afterType? part (s ++ t) = some (r ++ t) := by
  induction s generalizing part with
  | nil => cases part <;> cases h
  | cons b s ih =>
    have hend {u : Bytes} (hu : some u = some r) : some (u ++ t) = some (r ++ t) := by
      rw [Option.some.inj hu]
    rw [List.cons_append]
    cases part with
    | head =>
      rw [afterType?] at h ⊢
      split_ifs at h ⊢
      · exact hend h
      · exact ih h
      · exact ih h
    | subset =>
      rw [afterType?] at h ⊢
      split_ifs at h ⊢
      · exact ih h
      · exact ih h
      · exact ih h
    | subsetMarkup mark =>
      cases mark with
      | some m => exact ih h
      | none =>
        rw [afterType?] at h ⊢
        split_ifs at h ⊢
        · exact ih h
        · exact ih h
        · exact ih h
    | tail =>
      rw [afterType?] at h ⊢
      split_ifs at h ⊢
      · exact hend h
      · exact ih h

lemma mem_of_afterType? {part : TypePart} {s r : Bytes} (h : afterType? part s = some r) :
    0x3e ∈ s := by
  induction s generalizing part with
  | nil => cases part <;> cases h
  | cons b s ih =>
    have htail {part : TypePart} (h : afterType? part s = some r) : 0x3e ∈ b :: s :=
      List.mem_cons_of_mem b (ih h)
    cases part with
    | head =>
      rw [afterType?] at h
      split_ifs at h with hb
      · exact hb ▸ List.mem_cons_self
      · exact htail h
      · exact htail h
    | subset =>
      rw [afterType?] at h
      split_ifs at h
      · exact htail h
      · exact htail h
      · exact htail h
    | subsetMarkup mark =>
      cases mark with
      | some m => exact htail h
      | none =>
        rw [afterType?] at h
        split_ifs at h
        · exact htail h
        · exact htail h
        · exact htail h
    | tail =>
      rw [afterType?] at h
      split_ifs at h with hb
      · exact hb ▸ List.mem_cons_self
      · exact htail h

/-! ### Pieces -/

def Piece.plain : Piece → Piece
  | .declaration => .other
  | p => p

def seen {s : Bytes} (x : Except Refusal (Found s)) : Option (Piece × Bytes) :=
  x.toOption.map fun f => (f.piece.plain, f.rest)

variable {s : Bytes}

@[simp] lemma seen_ok (p : Piece) (r : Bytes) (h : r.length < s.length) :
    seen (.ok ⟨p, r, h⟩ : Except Refusal (Found s)) = some (p.plain, r) := rfl

@[simp] lemma seen_error (e : Refusal) : seen (.error e : Except Refusal (Found s)) = none := rfl

@[simp] lemma seen_widen {u : Bytes} (x : Except Refusal (Found s))
    (h : ∀ f : Found s, f.rest.length < u.length) :
    seen (x.map fun f => (⟨f.piece, f.rest, h f⟩ : Found u)) = seen x := by
  cases x <;> rfl

lemma seen_instruction (b : UInt8) (s : Bytes) : seen (instruction (b :: s)) =
    if b = 0x3e then none else (after? (ascii "?>") (b :: s)).map fun r => (.other, r) := by
  rw [instruction]
  by_cases hb : b = 0x3e
  · simp [hb]
  · simp only [if_neg hb]
    split
    · next r hr =>
      simp only [hr, seen_ok, Option.map_some]
      split <;> rfl
    · next hr => simp [hr]

def pastComment? (s : Bytes) : Option Bytes :=
  (after? (ascii "-->") (s.drop 2)).filter fun _ => (ascii "--").isPrefixOf s

def pastSection? (s : Bytes) : Option Bytes :=
  (after? (ascii "]]>") s).filter fun _ => startsWith (ascii "[cdata[") s

def pastType? (s : Bytes) : Option Bytes :=
  (afterType? .head s).filter fun _ =>
    startsWith (ascii "doctype") s && ((s.drop 7).dropWhile isSpace).head? != some 0x3e

lemma seen_declaration (s : Bytes) : seen (declaration s) =
    (if s.head? = some 0x2d then pastComment? s
    else if s.head? = some 0x5b then pastSection? s
    else if s.head? = some 0x44 ∨ s.head? = some 0x64 then pastType? s
    else none).map (.other, ·) := by
  rw [declaration]
  by_cases h₁ : s.head? = some 0x2d
  · simp only [if_pos h₁, pastComment?]
    split
    · next r hr =>
      cases (ascii "--").isPrefixOf s <;> simp [hr, Option.filter, Piece.plain]
    · next hr => simp [hr]
  by_cases h₂ : s.head? = some 0x5b
  · simp only [if_neg h₁, if_pos h₂, pastSection?]
    split
    · next r hr =>
      cases startsWith (ascii "[cdata[") s <;> simp [hr, Option.filter, Piece.plain]
    · next hr => simp [hr]
  by_cases h₃ : s.head? = some 0x44 ∨ s.head? = some 0x64
  · simp only [if_neg h₁, if_neg h₂, if_pos h₃, pastType?]
    split
    · next r hr =>
      cases hd : startsWith (ascii "doctype") s with
      | false => simp [hr, Option.filter]
      | true =>
        by_cases hg : ((s.drop 7).dropWhile isSpace).head? = some 0x3e <;>
          simp [hr, Option.filter, hg, Piece.plain]
    · next hr => simp [hr]
  · simp [h₁, h₂, h₃]

lemma plain_openingOf (inside : Bytes) : (openingOf inside).plain = openingOf inside := by
  rw [openingOf]
  split <;> rfl

lemma seen_markup (b : UInt8) (s : Bytes) : seen (markup (b :: s)) =
    if b = 0x21 then seen (declaration s)
    else if b = 0x3f then seen (instruction s)
    else if b = 0x2f then (tag? none s).map fun p => (.closing (closingName p.1), p.2)
    else (tag? none (b :: s)).map fun p => (openingOf p.1, p.2) := by
  rw [markup]
  by_cases h₁ : b = 0x21
  · simp only [if_pos h₁, seen_widen]
  by_cases h₂ : b = 0x3f
  · simp only [if_neg h₁, if_pos h₂, seen_widen]
  by_cases h₃ : b = 0x2f
  · simp only [if_neg h₁, if_neg h₂, if_pos h₃]
    split
    · next inside r hr => simp [hr, Piece.plain]
    · next hr => simp [hr]
  · simp only [if_neg h₁, if_neg h₂, if_neg h₃]
    split
    · next inside r hr => simp [hr, plain_openingOf]
    · next hr => simp [hr]

def endsReference (b : UInt8) : Bool := endsText b || b == 0x3b

lemma seen_piece (b : UInt8) (s : Bytes) : seen (piece b s) =
    if b = 0x3c then seen (markup s)
    else if b = 0x26 then
      if (s.dropWhile (!endsReference ·)).head? = some 0x3b then
        some (.reference (s.takeWhile (!endsReference ·)), (s.dropWhile (!endsReference ·)).tail)
      else none
    else some (.text (b :: s.takeWhile (!endsText ·)), s.dropWhile (!endsText ·)) := by
  rw [piece]
  by_cases h₁ : b = 0x3c
  · simp only [if_pos h₁, seen_widen]
  by_cases h₂ : b = 0x26
  · simp only [if_neg h₁, if_pos h₂]
    split
    · next c r hr =>
      have hr' : s.dropWhile (!endsReference ·) = c :: r := hr
      by_cases hc : c = 0x3b
      · subst hc
        simp only [hr', List.head?_cons, List.tail_cons, if_true, seen_ok]
        rfl
      · simp [hr', hc]
    · next hr =>
      have hr' : s.dropWhile (!endsReference ·) = [] := hr
      simp [hr']
  · simp [h₁, h₂, Piece.plain]

/-! ### Pieces of a longer text -/

def Lasts (f : Bytes → Option (Piece × Bytes)) (s : Bytes) : Prop :=
  ∀ p r, f s = some (p, r) → ∀ t, f (s ++ t) = some (p, r ++ t)

lemma startsWith_longer {word s : Bytes} (h : startsWith word s = true) (t : Bytes) :
    startsWith word (s ++ t) = true := by
  have hl : word.length ≤ s.length := by
    have hw := congrArg List.length (beq_iff_eq.mp h)
    rw [List.length_map, List.length_take] at hw
    omega
  rw [startsWith, List.take_append_of_le_length hl]
  exact h

lemma isPrefixOf_longer {word s : Bytes} (h : word.isPrefixOf s = true) (t : Bytes) :
    word.isPrefixOf (s ++ t) = true :=
  List.isPrefixOf_iff_prefix.mpr ((List.isPrefixOf_iff_prefix.mp h).trans (List.prefix_append s t))

lemma instruction_lasts (s : Bytes) : Lasts (fun s => seen (instruction s)) s := by
  intro p r h t
  cases s with
  | nil => cases h
  | cons b s =>
    rw [List.cons_append]
    simp only [seen_instruction] at h ⊢
    split_ifs at h ⊢
    obtain ⟨u, hu, hp⟩ := Option.map_eq_some_iff.mp h
    obtain ⟨rfl, rfl⟩ := Prod.mk.inj hp
    rw [← List.cons_append, after?_longer hu]
    rfl

lemma spans_longer {p : UInt8 → Bool} {s r : Bytes} {c : UInt8} (h : s.dropWhile p = c :: r)
    (t : Bytes) :
    (s ++ t).dropWhile p = c :: (r ++ t) ∧ (s ++ t).takeWhile p = s.takeWhile p := by
  have hlt : (s.takeWhile p).length ≠ s.length := by
    intro he
    have hl := congrArg List.length (List.takeWhile_append_dropWhile (p := p) (l := s))
    rw [List.length_append, h, List.length_cons] at hl
    omega
  rw [List.dropWhile_append, List.takeWhile_append, h, if_neg hlt]
  exact ⟨rfl, rfl⟩

lemma exists_name_of_type {s r : Bytes} (h : afterType? .head s = some r)
    (hs : startsWith (ascii "doctype") s = true) : ∃ c u, (s.drop 7).dropWhile isSpace = c :: u := by
  have hl : (ascii "doctype").length = 7 := rfl
  have hw := beq_iff_eq.mp hs
  rw [hl] at hw
  have hmem : 0x3e ∈ s.drop 7 := by
    have hall := mem_of_afterType? h
    rw [← List.take_append_drop 7 s, List.mem_append] at hall
    refine hall.resolve_left fun ht => ?_
    have hm := List.mem_map_of_mem (f := fun b => if 0x41 ≤ b && b ≤ 0x5a then b + 0x20 else b) ht
    rw [hw] at hm
    exact absurd hm (by decide +kernel)
  cases hd : (s.drop 7).dropWhile isSpace with
  | cons c u => exact ⟨c, u, rfl⟩
  | nil => exact absurd (List.dropWhile_eq_nil_iff.mp hd 0x3e hmem) (by decide)

lemma pastComment?_longer {s r : Bytes} (h : pastComment? s = some r) (t : Bytes) :
    pastComment? (s ++ t) = some (r ++ t) := by
  obtain ⟨hr, hc⟩ := Option.filter_eq_some_iff.mp h
  have hl := length_le_of_after? hr
  have hm : (ascii "-->").length = 3 := rfl
  rw [hm, List.length_drop] at hl
  have hdrop : (s ++ t).drop 2 = s.drop 2 ++ t := List.drop_append_of_le_length (by omega)
  refine Option.filter_eq_some_iff.mpr ⟨?_, isPrefixOf_longer hc t⟩
  rw [hdrop, after?_longer hr]

lemma pastSection?_longer {s r : Bytes} (h : pastSection? s = some r) (t : Bytes) :
    pastSection? (s ++ t) = some (r ++ t) := by
  obtain ⟨hr, hc⟩ := Option.filter_eq_some_iff.mp h
  exact Option.filter_eq_some_iff.mpr ⟨after?_longer hr t, startsWith_longer hc t⟩

lemma pastType?_longer {s r : Bytes} (h : pastType? s = some r) (t : Bytes) :
    pastType? (s ++ t) = some (r ++ t) := by
  obtain ⟨hr, hc⟩ := Option.filter_eq_some_iff.mp h
  obtain ⟨hd, hg⟩ := Bool.and_eq_true_iff.mp hc
  obtain ⟨c, u, hu⟩ := exists_name_of_type hr hd
  have hdrop : (s ++ t).drop 7 = s.drop 7 ++ t := by
    refine List.drop_append_of_le_length (Nat.le_of_not_lt fun hlt => ?_)
    rw [List.drop_eq_nil_of_le (Nat.le_of_lt hlt)] at hu
    cases hu
  refine Option.filter_eq_some_iff.mpr ⟨afterType?_longer hr t, ?_⟩
  rw [hu] at hg
  rw [startsWith_longer hd, hdrop, (spans_longer hu t).1, Bool.true_and]
  exact hg

lemma declaration_lasts (s : Bytes) : Lasts (fun s => seen (declaration s)) s := by
  intro p r h t
  cases s with
  | nil => cases h
  | cons b s =>
    have hh : (b :: s ++ t).head? = (b :: s).head? := rfl
    simp only [seen_declaration, hh] at h ⊢
    obtain ⟨u, hu, hp⟩ := Option.map_eq_some_iff.mp h
    obtain ⟨rfl, rfl⟩ := Prod.mk.inj hp
    split at hu
    · next h₁ =>
      rw [if_pos h₁, pastComment?_longer hu]
      rfl
    · next h₁ =>
      rw [if_neg h₁]
      split at hu
      · next h₂ =>
        rw [if_pos h₂, pastSection?_longer hu]
        rfl
      · next h₂ =>
        rw [if_neg h₂]
        split at hu
        · next h₃ =>
          rw [if_pos h₃, pastType?_longer hu]
          rfl
        · cases hu

lemma markup_lasts (s : Bytes) : Lasts (fun s => seen (markup s)) s := by
  intro p r h t
  cases s with
  | nil => cases h
  | cons b s =>
    rw [List.cons_append]
    simp only [seen_markup] at h ⊢
    split_ifs at h ⊢
    · exact declaration_lasts s p r h t
    · exact instruction_lasts s p r h t
    · obtain ⟨⟨i, u⟩, hu, hp⟩ := Option.map_eq_some_iff.mp h
      obtain ⟨rfl, rfl⟩ := Prod.mk.inj hp
      rw [tag?_longer hu]
      rfl
    · obtain ⟨⟨i, u⟩, hu, hp⟩ := Option.map_eq_some_iff.mp h
      obtain ⟨rfl, rfl⟩ := Prod.mk.inj hp
      rw [← List.cons_append, tag?_longer hu]
      rfl

lemma piece_lasts {b : UInt8} {s : Bytes} {p : Piece} {r : Bytes} (h : seen (piece b s) = some (p, r))
    (t : Bytes) : (∃ raw, p = .text raw ∧ r = []) ∨ seen (piece b (s ++ t)) = some (p, r ++ t) := by
  rw [seen_piece] at h ⊢
  by_cases h₁ : b = 0x3c
  · rw [if_pos h₁] at h ⊢
    exact .inr (markup_lasts s p r h t)
  rw [if_neg h₁] at h ⊢
  by_cases h₂ : b = 0x26
  · rw [if_pos h₂] at h ⊢
    cases hd : s.dropWhile (!endsReference ·) with
    | nil =>
      rw [hd] at h
      cases h
    | cons c u =>
      obtain ⟨hdrop, htake⟩ := spans_longer hd t
      rw [hd] at h
      rw [hdrop, htake]
      split at h
      · next hc =>
        obtain ⟨rfl, rfl⟩ := Prod.mk.inj (Option.some.inj h)
        exact .inr (if_pos hc)
      · cases h
  · rw [if_neg h₂] at h ⊢
    obtain ⟨rfl, rfl⟩ := Prod.mk.inj (Option.some.inj h)
    cases hd : s.dropWhile (!endsText ·) with
    | nil => exact .inl ⟨_, rfl, rfl⟩
    | cons c u =>
      obtain ⟨hdrop, htake⟩ := spans_longer hd t
      rw [hdrop, htake]
      exact .inr rfl

lemma length_lt_of_seen {s r : Bytes} {x : Except Refusal (Found s)} {p : Piece}
    (h : seen x = some (p, r)) : r.length < s.length := by
  cases x with
  | error e => cases h
  | ok f =>
    cases h
    exact f.shorter

end Markup

end Highlight.PropertyList
