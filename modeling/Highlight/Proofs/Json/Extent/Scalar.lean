import Highlight.Proofs.Json.Extent.Literal
import Highlight.Proofs.Json.Number
import Highlight.Proofs.Json.Tree

/-! What is taken for a number and for any other value that holds no others. -/

namespace Highlight.Json

open Result

/-! ### Numbers -/

lemma SameNext.append {u v : Bytes} (h : SameNext u v) (c : Bytes) : SameNext (c ++ u) (c ++ v) := by
  cases c with
  | nil => exact h
  | cons b c => rfl

namespace Number

lemma noDigit_iff (s : Bytes) : NoDigit s ↔ s.head?.any isDigit = false := by
  cases s <;> simp [NoDigit]

lemma NoDigit.of_sameNext {u v : Bytes} (hu : NoDigit u) (h : SameNext u v) : NoDigit v := by
  intro b hb
  rw [← h] at hb
  exact hu b hb

lemma exists_digits (s : Bytes) :
    ∃ ds u, (∀ b ∈ ds, isDigit b = true) ∧ NoDigit u ∧ s = ds ++ u := by
  refine ⟨s.takeWhile isDigit, s.dropWhile isDigit, fun b hb => List.mem_takeWhile_imp hb, ?_,
    List.takeWhile_append_dropWhile.symm⟩
  intro b hb
  have hd := List.head?_dropWhile_not isDigit s
  rw [Option.mem_def] at hb
  simpa [hb] using hd

def Occurs (b : UInt8) : Prop :=
  isDigit b = true ∨ isExponentMark b = true ∨ b = 0x2b ∨ b = minus ∨ b = 0x2e

lemma Occurs.bare_ascii {b : UInt8} (h : Occurs b) : Bare b ∧ b.toNat < 0x80 := by
  rcases h with h | h | rfl | rfl | rfl
  · refine ⟨⟨?_, ?_, ?_, ?_, ?_⟩, ?_⟩
    iterate 5
      rintro rfl
      exact absurd h (by decide)
    simp only [isDigit, Bool.and_eq_true, decide_eq_true_eq, UInt8.le_iff_toNat_le] at h
    exact Nat.lt_of_le_of_lt h.2 (by decide)
  · simp only [isExponentMark, Bool.or_eq_true, beq_iff_eq] at h
    rcases h with rfl | rfl <;> decide
  all_goals decide

def Numeric (c : Bytes) : Prop := ∀ b ∈ c, Occurs b

lemma Numeric.nil : Numeric [] := by simp [Numeric]

lemma Numeric.append {c d : Bytes} (hc : Numeric c) (hd : Numeric d) : Numeric (c ++ d) :=
  List.forall_mem_append.mpr ⟨hc, hd⟩

lemma Numeric.cons {b : UInt8} {c : Bytes} (hb : Occurs b) (hc : Numeric c) : Numeric (b :: c) :=
  List.forall_mem_cons.mpr ⟨hb, hc⟩

lemma Numeric.runs {c : Bytes} (h : Numeric c) : Runs .outside .outside c :=
  runs_bare fun b hb => (h b hb).bare_ascii.1

lemma numeric_digits {ds : Bytes} (h : ∀ b ∈ ds, isDigit b = true) : Numeric ds := fun b hb => .inl (h b hb)

lemma occurs_sign {b : UInt8} (h : b = 0x2b ∨ b = minus) : Occurs b := by
  rcases h with rfl | rfl
  · exact .inr (.inr (.inl rfl))
  · exact .inr (.inr (.inr (.inl rfl)))

lemma real_rest {m : Scaled} {negative : Bool} {x : Number} {u : Bytes}
    (h : m.real negative u = .ok x) (v : Bytes) : m.real negative v = .ok x := by
  unfold Scaled.real at *
  split at h
  · exact h
  · cases h

lemma integer_rest {m : Scaled} {negative : Bool} {x : Number} {u : Bytes}
    (h : m.integer negative u = .ok x) (v : Bytes) : m.integer negative v = .ok x := by
  unfold Scaled.integer at *
  split_ifs at h ⊢
  · exact real_rest h v
  · exact h
  · exact real_rest h v
  · exact h

lemma outcome_map_ok {s u v : Bytes} {e : Except Fault Number} {x : Number} {h : u.length < s.length} :
    outcome (e.map fun n => (⟨n, u, h⟩ : Parsed Number s)) = .ok (x, v) ↔ e = .ok x ∧ u = v := by
  cases e <;> simp [Except.map]

variable (m : Scaled) (negative : Bool)

lemma exponent_outcome (down : Bool) {b : UInt8} (hb : isDigit b = true) {ds : Bytes}
    (hds : ∀ c ∈ ds, isDigit c = true) : ∃ y : Option Number, ∀ u, NoDigit u → ∀ x v,
      (exponent m negative down (b :: (ds ++ u))).outcome = .ok (x, v) ↔ y = some x ∧ u = v := by
  cases he : exponentDigits (digitValue b) ds with
  | ok e =>
    refine ⟨({ m with power := if down then m.power - e else m.power + e }.real negative []).toOption,
      fun u hu x v => ?_⟩
    rw [exponent]
    simp only [hb, Bool.not_true, Bool.false_eq_true, if_false, exponentDigits_append hds hu, he,
      dropWhile_digits hds hu, Except.mapError]
    refine outcome_map_ok.trans (and_congr_left' ⟨fun hx => ?_, fun hx => real_of_toOption hx u⟩)
    rw [real_rest hx []]
    rfl
  | error p =>
    refine ⟨if m.significand ≠ 0 ∧ !down then none else some (.real (if negative then -0.0 else 0.0)),
      fun u hu x v => ?_⟩
    rw [exponent]
    simp only [hb, Bool.not_true, Bool.false_eq_true, if_false, exponentDigits_append hds hu, he,
      dropWhile_digits hds hu, Except.mapError]
    split
    · simp
    · refine outcome_map_ok.trans ?_
      simp

lemma exponent_takes (down : Bool) :
    (exponent m negative down).Takes fun _ c => Numeric c := by
  intro s x rest h
  cases s with
  | nil => cases h
  | cons b s =>
    by_cases hb : isDigit b = true
    · obtain ⟨ds, u, hds, hu, rfl⟩ := exists_digits s
      obtain ⟨y, hy⟩ := exponent_outcome m negative down hb hds
      obtain ⟨hx, rfl⟩ := (hy u hu x rest).mp h
      refine ⟨b :: ds, rfl, numeric_digits (by simpa [hb] using hds), fun rest' hrest => ?_⟩
      exact (hy rest' (hu.of_sameNext hrest) x rest').mpr ⟨hx, rfl⟩
    · rw [exponent] at h
      simp [hb] at h

lemma signedExponent_takes : (signedExponent m negative).Takes fun _ c => Numeric c := by
  intro s
  cases s with
  | nil =>
    intro x rest h
    cases h
  | cons b s =>
    by_cases hp : b = 0x2b
    · refine (exponent_takes m negative false s).cons (fun t => ?_) fun _ c hc =>
        hc.cons (occurs_sign (.inl hp))
      rw [signedExponent, if_pos hp, outcome_widen]
    by_cases hm : b = 0x2d
    · refine (exponent_takes m negative true s).cons (fun t => ?_) fun _ c hc =>
        hc.cons (occurs_sign (.inr hm))
      rw [signedExponent, if_neg hp, if_pos hm, outcome_widen]
    · refine (exponent_takes m negative false (b :: s)).congr fun t => ?_
      rw [signedExponent, if_neg hp, if_neg hm]

def TakesOn {α : Type} (f : Bytes → Except (List Step) (α × Bytes)) : Prop :=
  ∀ s a rest, f s = .ok (a, rest) → ∃ c, s = c ++ rest ∧ Numeric c ∧
    ∀ rest', SameNext rest rest' → f (c ++ rest') = .ok (a, rest')

def ending {α : Type} (f : Bytes → Except Fault α) (u : Bytes) : Except (List Step) (α × Bytes) :=
  ((f u).mapError Fault.path).map (·, u)

section TakesOn

variable {α : Type}

lemma takesOn_ending {f : Bytes → Except Fault α} (hf : ∀ u v a, f u = .ok a → f v = .ok a) :
    TakesOn (ending f) := by
  intro s a rest h
  cases hs : f s with
  | error e => simp [ending, hs, Except.mapError, Except.map] at h
  | ok x =>
    obtain ⟨rfl, rfl⟩ : x = a ∧ s = rest := by
      simpa [ending, hs, Except.mapError, Except.map] using h
    refine ⟨[], rfl, .nil, fun rest' _ => ?_⟩
    simp [ending, hf s rest' x hs, Except.mapError, Except.map]

lemma TakesOn.ite {f r : Bytes → Except (List Step) (α × Bytes)} (hf : TakesOn f) {p : UInt8 → Bool}
    (hp : ∀ b, p b = true → Occurs b) (hr : TakesOn r) :
    TakesOn fun u => if u.head?.any p then r u.tail else f u := by
  intro s a rest h
  dsimp only at h
  split at h
  · next hs =>
    obtain ⟨b, t, rfl, hb⟩ : ∃ b t, s = b :: t ∧ p b = true := by
      cases s with
      | nil => cases hs
      | cons b t => exact ⟨b, t, rfl, hs⟩
    obtain ⟨c, rfl, hc, hrc⟩ := hr t a rest h
    refine ⟨b :: c, rfl, hc.cons (hp b hb), fun rest' hrest => ?_⟩
    simpa [hb] using hrc rest' hrest
  · next hs =>
    obtain ⟨c, rfl, hc, hrc⟩ := hf s a rest h
    refine ⟨c, rfl, hc, fun rest' hrest => ?_⟩
    have hn : (c ++ rest).head? = (c ++ rest').head? := hrest.append c
    rw [hn] at hs
    simpa only [if_neg hs] using hrc rest' hrest

lemma TakesOn.digits {f : Bytes → Except (List Step) (α × Bytes)} (hf : TakesOn f) {r : Reader α}
    {b : UInt8} {ds u : Bytes} (hd : ∀ c ∈ b :: ds, isDigit c = true) (hu : NoDigit u)
    (hr : ∀ u, NoDigit u → (r (b :: (ds ++ u))).outcome = f u) :
    r.TakesFrom SameNext (fun _ c => Numeric c) (b :: (ds ++ u)) := by
  intro a rest h
  rw [hr u hu] at h
  obtain ⟨c, rfl, hc, hrc⟩ := hf u a rest h
  refine ⟨b :: (ds ++ c), by simp, (numeric_digits hd).append hc, fun rest' hrest => ?_⟩
  rw [List.cons_append, List.append_assoc, hr _ (hu.of_sameNext (hrest.append c))]
  exact hrc rest' hrest

end TakesOn

lemma fraction_outcome {b : UInt8} {ds u : Bytes} (hd : ∀ c ∈ b :: ds, isDigit c = true)
    (hu : NoDigit u) : (fraction m negative (b :: (ds ++ u))).outcome =
      if u.head?.any isExponentMark then (signedExponent
        ((b :: ds).foldl Scaled.pushFraction { m with full := false }) negative u.tail).outcome
      else ending
        (((b :: ds).foldl Scaled.pushFraction { m with full := false }).real negative) u := by
  have hds : ∀ c ∈ ds, isDigit c = true := fun c hc => hd c (by simp [hc])
  rw [fraction]
  simp only [hd b (by simp), Bool.not_true, Bool.false_eq_true, if_false, takeWhile_digits hds hu]
  split
  · next hs =>
    obtain rfl : u = [] := (dropWhile_digits hds hu).symm.trans hs
    simp only [List.head?_nil, Option.any_none, Bool.false_eq_true, if_false, ending]
    cases Scaled.real _ negative [] <;> rfl
  · next e t hs =>
    obtain rfl : u = e :: t := (dropWhile_digits hds hu).symm.trans hs
    by_cases hm : isExponentMark e = true
    · simp [hm]
    · simp only [hm, List.head?_cons, Option.any_some, Bool.false_eq_true, if_false, ending]
      cases Scaled.real _ negative (e :: t) <;> rfl

lemma fraction_takes : (fraction m negative).Takes fun _ c => Numeric c := by
  intro s
  cases s with
  | nil =>
    intro x rest h
    cases h
  | cons b s =>
    by_cases hb : isDigit b = true
    · obtain ⟨ds, u, hds, hu, rfl⟩ := exists_digits s
      have hd : ∀ c ∈ b :: ds, isDigit c = true := by simpa [hb] using hds
      refine TakesOn.digits ?_ hd hu fun u hu => fraction_outcome m negative hd hu
      refine TakesOn.ite (takesOn_ending fun u v a h => real_rest h v) ?_ (signedExponent_takes _ negative)
      exact fun e he => .inr (.inl he)
    · intro x rest h
      rw [fraction] at h
      simp [hb] at h

lemma afterWhole_outcome (b : UInt8) (u : Bytes) : (afterWhole m negative b u).outcome =
    if u.head?.any (· == 0x2e) then (fraction m negative u.tail).outcome
    else if u.head?.any isExponentMark then (signedExponent m negative u.tail).outcome
    else ending (m.integer negative) u := by
  cases u with
  | nil =>
    simp only [afterWhole, List.head?_nil, Option.any_none, Bool.false_eq_true, if_false, ending]
    cases m.integer negative [] <;> rfl
  | cons c t =>
    by_cases hp : c = 0x2e
    · simp [afterWhole, hp]
    by_cases hm : isExponentMark c = true
    · simp [afterWhole, hp, hm]
    · simp only [afterWhole, hp, hm, List.head?_cons, Option.any_some, beq_iff_eq, Bool.false_eq_true,
        if_false, ending]
      cases m.integer negative (c :: t) <;> rfl

lemma afterWhole_takesOn (b : UInt8) : TakesOn fun u => (afterWhole m negative b u).outcome := by
  simp only [afterWhole_outcome]
  refine TakesOn.ite (TakesOn.ite (takesOn_ending fun u v a h => integer_rest h v) ?_
    (signedExponent_takes m negative)) ?_ (fraction_takes m negative)
  · exact fun e he => .inr (.inl he)
  · exact fun e he => .inr (.inr (.inr (.inr (beq_iff_eq.mp he))))

lemma unsigned_takes : (unsigned negative).Takes fun _ c => Numeric c := by
  intro s
  cases s with
  | nil =>
    intro x rest h
    cases h
  | cons b s =>
    by_cases hb : isDigit b = true
    · by_cases hz : b = 0x30
      · subst hz
        by_cases hs : NoDigit s
        · have hd : ∀ c ∈ [(0x30 : UInt8)], isDigit c = true :=
            List.forall_mem_singleton.mpr rfl
          have hu (u : Bytes) (hu : NoDigit u) : (unsigned negative (0x30 :: ([] ++ u))).outcome =
              (afterWhole ⟨0, 0, false⟩ negative 0x30 u).outcome := by
            rw [List.nil_append, unsigned, if_pos rfl, if_neg (by simpa [noDigit_iff] using hu)]
          exact TakesOn.digits (afterWhole_takesOn ⟨0, 0, false⟩ negative 0x30) hd hs hu
        · intro x rest h
          rw [unsigned, if_pos rfl, if_pos (by simpa [noDigit_iff] using hs)] at h
          cases h
      · obtain ⟨ds, u, hds, hu, rfl⟩ := exists_digits s
        have hd : ∀ c ∈ b :: ds, isDigit c = true := by simpa [hb] using hds
        refine TakesOn.digits (afterWhole_takesOn ((b :: ds).foldl Scaled.pushWhole ⟨0, 0, false⟩)
          negative b) hd hu fun u hu => ?_
        rw [unsigned]
        simp only [hz, hb, if_false, if_true, outcome_widen, takeWhile_digits hds hu]
        rw [dropWhile_digits hds hu]
    · intro x rest h
      have hz : b ≠ 0x30 := by
        rintro rfl
        exact hb rfl
      rw [unsigned] at h
      simp [hb, hz] at h

end Number

/-! ### Scalars -/

lemma eq_append_of_word {letters s r : Bytes} {h : r.length ≤ s.length}
    (hw : word letters s = .ok ⟨r, h⟩) : s = letters ++ r := by
  induction letters generalizing s with
  | nil =>
    obtain ⟨⟩ := hw
    rfl
  | cons l ls ih =>
    cases s with
    | nil => cases hw
    | cons b s =>
      rw [word] at hw
      split at hw
      · next hb =>
        cases ht : word ls s with
        | error e => simp [ht, Except.map] at hw
        | ok t =>
          obtain ⟨t, hlt⟩ := t
          obtain rfl : t = r := by simpa [ht, Except.map] using hw
          rw [hb, ih ht, List.cons_append]
      · cases hw

lemma bare_word {b : UInt8} {letters : Bytes} {x : Scalar} (h : wordOf? b = some (letters, x)) :
    ∀ d ∈ b :: letters, Bare d ∧ d.toNat < 0x80 := by
  unfold wordOf? at h
  split_ifs at h with h₁ h₂ h₃
  all_goals
    obtain ⟨rfl, -⟩ := Prod.mk.inj (Option.some.inj h)
    subst b
    decide +kernel

lemma runs_word {b : UInt8} {letters : Bytes} {x : Scalar} (h : wordOf? b = some (letters, x)) :
    Runs .outside .outside (b :: letters) := runs_bare fun d hd => (bare_word h d hd).1

inductive Single : Bytes → Prop
  | word {b : UInt8} {letters : Bytes} {x : Scalar} : wordOf? b = some (letters, x) → Single (b :: letters)
  | number {c : Bytes} : Number.Numeric c → Single c
  | text {t : String} {c : Bytes} : SpellsText t c → Single c

lemma Single.runs {c : Bytes} (h : Single c) : Runs .outside .outside c := by
  cases h with
  | word h => exact runs_word h
  | number h => exact h.runs
  | text h => exact h.runs

lemma scalar_takes : scalar.Takes fun _ c => Single c := by
  intro s
  cases s with
  | nil =>
    intro x rest h
    cases h
  | cons b s =>
    cases hw : wordOf? b with
    | some w =>
      obtain ⟨letters, v⟩ := w
      intro x rest h
      cases hl : word letters s with
      | error e => simp [scalar, hw, hl, Except.map] at h
      | ok r =>
        obtain ⟨r, hr⟩ := r
        obtain ⟨rfl, rfl⟩ : v = x ∧ r = rest := by simpa [scalar, hw, hl, Except.map] using h
        obtain rfl := eq_append_of_word hl
        exact ⟨b :: letters, rfl, .word hw, fun rest' _ => scalar_word hw rest'⟩
    | none =>
      by_cases hm : b = minus
      · refine ((Number.unsigned_takes true s).map (f := .number) (W := fun _ c => Single (b :: c)) fun _ c hc =>
          .number (hc.cons (Number.occurs_sign (.inr hm)))).cons (fun t => ?_) fun _ c hc => hc
        simp only [scalar, hw, if_pos hm, outcome_widen]
      by_cases hd : Number.isDigit b = true
      · refine ((Number.unsigned_takes false (b :: s)).map (f := .number) fun _ c hc => .number hc).congr
          fun t => ?_
        simp only [scalar, hw, if_neg hm, if_pos hd]
      by_cases hq : b = quote
      · subst hq
        refine ((literal_ends.takes s).map (f := .text) (W := fun _ c => Single (quote :: c)) fun t c hc =>
          .text hc).cons (fun t => ?_) fun _ c hc => hc
        simp only [scalar, hw, if_neg hm, if_neg hd, if_true, outcome_widen]
      · intro x rest h
        simp [scalar, hw, hm, hd, hq] at h

end Highlight.Json
