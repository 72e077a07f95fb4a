import Highlight.Proofs.Pattern.Ways
import Mathlib.Data.Nat.SuccPred
import Mathlib.Order.Bounds.Basic
import Mathlib.Order.Interval.Set.Monotone

/-! What is found in a text: the first place where a pattern matches, and the first way in which it does. -/

namespace Highlight.Pattern

def State.place (text : List Char) (n : ℕ) : State :=
  { before := (text.take n).reverse, after := text.drop n }

def searchAt? (p : Pattern) (text : List Char) (start : ℕ) : Option Match :=
  p.search? (text.take start).reverse (text.drop start)

def span (text : List Char) (s e : ℕ) : ℕ × ℕ := (offset text (text.drop s), offset text (text.drop e))

namespace State

variable (text : List Char) (n : ℕ)

@[simp] lemma after_place : (place text n).after = text.drop n := rfl

@[simp] lemma hidden_place : (place text n).hidden = 0 := rfl

@[simp] lemma kept_place : (place text n).kept = none := rfl

@[simp] lemma place_advance (m : ℕ) : (place text n).advance m = place text (n + m) := by
  simp [place, advance, List.take_add]

lemma place_of_length_le {text : List Char} {m n : ℕ} (hm : text.length ≤ m) (hn : m ≤ n) :
    place text n = place text m := by
  have h := Nat.le_trans hm hn
  simp [place, List.take_of_length_le, List.drop_eq_nil_of_le, hm, h]

end State

lemma drop_succ_of_cons {text rest : List Char} {c : Char} {n : ℕ} (h : text.drop n = c :: rest) :
    text.drop (n + 1) = rest := by
  rw [← List.tail_drop, h, List.tail_cons]

lemma getElem?_of_cons {text w : List Char} {c : Char} {s : ℕ} (h : c :: w <+: text.drop s) : text[s]? = some c := by
  obtain ⟨r, hr⟩ := h
  rw [← List.head?_drop, ← hr]
  rfl

lemma length_le_of_cons {u v w : List Char} {c : Char} {s : ℕ} (hu : c ∉ u) (h : c :: w <+: (u ++ v).drop s) :
    u.length ≤ s := by
  by_contra hlt
  have hc := getElem?_of_cons h
  rw [List.getElem?_append_left (Nat.lt_of_not_le hlt)] at hc
  exact hu (List.mem_of_getElem? hc)

lemma extract_eq_iff {text w : List Char} {s e : ℕ} (hw : w ≠ []) :
    e ≤ text.length ∧ text.extract s e = w ↔ w <+: text.drop s ∧ s + w.length = e := by
  have hpos := List.length_pos_of_ne_nil hw
  rw [List.extract_eq_take_drop]
  constructor
  · rintro ⟨hle, rfl⟩
    refine ⟨List.take_prefix _ _, ?_⟩
    rw [List.length_take, List.length_drop] at hpos ⊢
    omega
  · rintro ⟨h, rfl⟩
    have hle := h.length_le
    rw [List.length_drop] at hle
    refine ⟨by omega, ?_⟩
    rw [Nat.add_sub_cancel_left, ← List.prefix_iff_eq_take.mp h]

/-! ### Offsets -/

lemma offset_drop {text : List Char} {n : ℕ} (hn : n ≤ text.length) :
    offset text (text.drop n) = ((text.take n).map Char.utf8Size).sum := by
  have hsum (cs : List Char) (k : ℕ) :
      cs.foldl (fun n c => n + c.utf8Size) k = k + (cs.map Char.utf8Size).sum := by
    induction cs generalizing k with
    | nil => rfl
    | cons c cs ih => rw [List.foldl_cons, ih, List.map_cons, List.sum_cons, Nat.add_assoc]
  rw [offset, hsum, Nat.zero_add, List.length_drop, Nat.sub_sub_self hn]

lemma strictMonoOn_offset (text : List Char) :
    StrictMonoOn (fun n => offset text (text.drop n)) (Set.Iic text.length) := by
  refine strictMonoOn_Iic_of_lt_succ fun n hn => ?_
  have hn' : n + 1 ≤ text.length := hn
  rw [offset_drop hn.le, Order.succ_eq_add_one, offset_drop hn', List.take_add_one, List.getElem?_eq_getElem hn,
    List.map_append, List.sum_append]
  exact Nat.lt_add_of_pos_right (Char.utf8Size_pos _)

section

variable {text : List Char} {n k : ℕ} (hn : n ≤ text.length) (hk : k ≤ text.length)

include hn hk

lemma offset_inj : offset text (text.drop n) = offset text (text.drop k) ↔ n = k :=
  (strictMonoOn_offset text).eq_iff_eq hn hk

lemma offset_le_iff : offset text (text.drop n) ≤ offset text (text.drop k) ↔ n ≤ k :=
  (strictMonoOn_offset text).le_iff_le hn hk

lemma offset_lt_iff : offset text (text.drop n) < offset text (text.drop k) ↔ n < k :=
  (strictMonoOn_offset text).lt_iff_lt hn hk

end

/-! ### The first place -/

section

variable {p : Pattern} {origin text : List Char}

lemma searchFrom?_eq (before after : List Char) :
    p.searchFrom? origin before after = (p.matchAt? origin { before, after }).or
      (match after with
        | [] => none
        | c :: rest => p.searchFrom? origin (c :: before) rest) := by
  cases after with
  | nil =>
    rw [searchFrom?]
    cases p.matchAt? origin ⟨before, [], 0, none, []⟩ <;> rfl
  | cons c rest =>
    rw [searchFrom?]
    cases p.matchAt? origin ⟨before, c :: rest, 0, none, []⟩ <;> rfl

def starts (p : Pattern) (origin text : List Char) (n : ℕ) : Set ℕ :=
  {s | n ≤ s ∧ (p.matchAt? origin (.place text s)).isSome}

lemma match_here {n : ℕ} {m m' : Match} (h : p.matchAt? origin (.place text n) = some m') :
    (∃ s, IsLeast (p.starts origin text n) s ∧ p.matchAt? origin (.place text s) = some m) ↔ m' = m := by
  have hleast : IsLeast (p.starts origin text n) n := ⟨⟨le_rfl, by simp [h]⟩, fun _ hs => hs.1⟩
  constructor
  · rintro ⟨s, hs, hm⟩
    obtain rfl := hs.unique hleast
    exact Option.some.inj (h.symm.trans hm)
  · rintro rfl
    exact ⟨n, hleast, h⟩

lemma starts_later {n : ℕ} (h : p.matchAt? origin (.place text n) = none) :
    p.starts origin text n = p.starts origin text (n + 1) := by
  ext s
  refine ⟨fun hs => ⟨Nat.lt_of_le_of_ne hs.1 ?_, hs.2⟩, fun hs => ⟨Nat.le_of_succ_le hs.1, hs.2⟩⟩
  rintro rfl
  simpa [h] using hs.2

lemma starts_end {n : ℕ} (hn : text.drop n = []) (h : p.matchAt? origin (.place text n) = none) :
    p.starts origin text n = ∅ := by
  refine Set.eq_empty_of_forall_notMem fun s hs => ?_
  have hplace : State.place text s = State.place text n :=
    State.place_of_length_le (List.drop_eq_nil_iff.mp hn) hs.1
  have hsome := hs.2
  rw [hplace, h] at hsome
  cases hsome

lemma searchFrom?_place {after : List Char} {n : ℕ} (hn : text.drop n = after) (m : Match) :
    p.searchFrom? origin (text.take n).reverse after = some m ↔
      ∃ s, IsLeast (p.starts origin text n) s ∧ p.matchAt? origin (.place text s) = some m := by
  have hplace : ({ before := (text.take n).reverse, after } : State) = .place text n := by
    rw [State.place, hn]
  rw [searchFrom?_eq, hplace]
  induction after generalizing n with
  | nil =>
    cases hm : p.matchAt? origin (.place text n) with
    | some m' => simp [match_here hm]
    | none => simp [starts_end hn hm, IsLeast]
  | cons c rest ih =>
    cases hm : p.matchAt? origin (.place text n) with
    | some m' => simp [match_here hm]
    | none =>
      have hrest : text.drop (n + 1) = rest := drop_succ_of_cons hn
      have hbefore : c :: (text.take n).reverse = (text.take (n + 1)).reverse := by
        simp [List.take_add, hn]
      have hnext : ({ before := (text.take (n + 1)).reverse, after := rest } : State) =
          .place text (n + 1) := by
        rw [State.place, hrest]
      rw [starts_later hm, Option.none_or]
      simp only [hbefore]
      rw [searchFrom?_eq, hnext]
      exact ih hrest hnext

lemma searchAt?_eq_some_iff (start : ℕ) (m : Match) :
    p.searchAt? text start = some m ↔
      ∃ s, IsLeast (p.starts (text.drop start) text start) s ∧
        p.matchAt? (text.drop start) (.place text s) = some m :=
  searchFrom?_place rfl m

end

/-! ### The first way -/

namespace State

def group? (s : State) (g : ℕ) : Option (List Char × List Char) :=
  match start? g s.marks, finish? g s.marks with
  | some start, some finish => some (start, finish)
  | _, _ => none

def capturing (g : ℕ) (f : State → State) (s : State) : State :=
  let t := f (s.mark (.opened g s.after))
  t.mark (.closed g s.after t.after)

variable (f : State → State) (s : State) {g h : ℕ}

@[simp] lemma group?_advance (n : ℕ) : (s.advance n).group? g = s.group? g := rfl

@[simp] lemma group?_place (text : List Char) (n : ℕ) : (place text n).group? g = none := rfl

@[simp] lemma group?_opened (hne : h ≠ g) (start : List Char) :
    (s.mark (.opened h start)).group? g = s.group? g := by
  simp [group?, start?, finish?, hne]

@[simp] lemma group?_closed (hne : h ≠ g) (start finish : List Char) :
    (s.mark (.closed h start finish)).group? g = s.group? g := by
  simp [group?, start?, finish?, hne]

@[simp] lemma group?_closed_self (start finish : List Char) :
    (s.mark (.closed g start finish)).group? g = some (start, finish) := by
  simp [group?, start?, finish?]

end State

def found (p : Pattern) (s t : State) : Match :=
  ⟨some (t.kept.getD s.after, t.after) :: (List.range p.groups).map fun i => t.group? (i + 1), t⟩

section

variable {p : Pattern} {f : State → List State}

lemma matchAt?_eq {origin : List Char} (h : (p.matcher origin).Yields f) {s : State} (hs : s.hidden = 0) :
    p.matchAt? origin s = (f s).head?.map (p.found s) := by
  have hhead : ∀ ts : List State, ts.findSome? some = ts.head? := by
    intro ts
    cases ts <;> rfl
  rw [matchAt?, h.tries hs, hhead]
  rfl

end

/-! ### One match after the other -/

section

variable {p q : Pattern} (h : ∀ origin s, s.hidden = 0 → p.matchAt? origin s = q.matchAt? origin s)

include h

lemma searchFrom?_congr (origin before after : List Char) :
    p.searchFrom? origin before after = q.searchFrom? origin before after := by
  induction after generalizing before with
  | nil => rw [searchFrom?_eq, searchFrom?_eq, h _ _ rfl]
  | cons c rest ih =>
    rw [searchFrom?_eq, searchFrom?_eq, h _ _ rfl]
    simp only [ih]

lemma matchesFrom_congr (fuel : ℕ) (previous : Option ℕ) (before after : List Char) :
    p.matchesFrom fuel previous before after = q.matchesFrom fuel previous before after := by
  induction fuel generalizing previous before after with
  | zero => rfl
  | succ fuel ih =>
    have hsearch : p.search? before after = q.search? before after := searchFrom?_congr h after before after
    simp only [matchesFrom, hsearch, ih]

lemma allMatches_congr (text : List Char) : p.allMatches text = q.allMatches text :=
  matchesFrom_congr h _ none [] text

end

end Highlight.Pattern
