import Highlight.Proofs.Json.Nesting
import Mathlib.Data.List.TakeWhile

/-! How much of a text a reader takes. A value depends on nothing after what is taken for it but, at most,
on the next byte: a number may go on where a text, an array or an object is closed. -/

namespace Highlight.Json

open Result

variable {α β : Type}

def SameNext (u v : Bytes) : Prop := u.head? = v.head?

def Anything (_ _ : Bytes) : Prop := True

lemma sameNext_append {c : Bytes} (hc : c ≠ []) (u v : Bytes) : SameNext (c ++ u) (c ++ v) := by
  cases c with
  | nil => exact (hc rfl).elim
  | cons b c => rfl

lemma exists_of_sameNext {b : UInt8} {u v : Bytes} (h : SameNext (b :: u) v) : ∃ t, v = b :: t := by
  cases v with
  | nil => cases h
  | cons c v =>
    obtain rfl : b = c := Option.some.inj h
    exact ⟨v, rfl⟩

/-- What is read from the front of `s` is told by `P`, and is read again whatever comes after it that is
the same for the reader. -/
def Reader.TakesFrom (same : Bytes → Bytes → Prop) (r : Reader α) (P : α → Bytes → Prop) (s : Bytes) :
    Prop :=
  ∀ a rest, (r s).outcome = .ok (a, rest) → ∃ c, s = c ++ rest ∧ P a c ∧
    ∀ rest', same rest rest' → (r (c ++ rest')).outcome = .ok (a, rest')

def Reader.Takes (r : Reader α) (P : α → Bytes → Prop) : Prop := ∀ s, r.TakesFrom SameNext P s

def Reader.Ends (r : Reader α) (P : α → Bytes → Prop) : Prop := ∀ s, r.TakesFrom Anything P s

lemma length_of_outcome {s rest : Bytes} {r : Result α s} {a : α} (h : r.outcome = .ok (a, rest)) :
    rest.length < s.length := by
  cases r with
  | error e => cases h
  | ok p =>
    obtain ⟨-, rfl⟩ := Prod.mk.inj (Except.ok.inj h)
    exact p.shorter

lemma ne_nil_of_outcome {c rest : Bytes} {r : Result α (c ++ rest)} {a : α}
    (h : r.outcome = .ok (a, rest)) : c ≠ [] := by
  rintro rfl
  exact Nat.lt_irrefl _ (length_of_outcome h)

namespace Reader

variable {same : Bytes → Bytes → Prop} {r : Reader α} {P : α → Bytes → Prop} {s : Bytes}

lemma TakesFrom.imp (h : r.TakesFrom same P s) {Q : α → Bytes → Prop} (hQ : ∀ a c, P a c → Q a c) :
    r.TakesFrom same Q s := by
  intro a rest ho
  obtain ⟨c, hs, hc, hr⟩ := h a rest ho
  exact ⟨c, hs, hQ a c hc, hr⟩

lemma Ends.takes (h : r.Ends P) : r.Takes P := by
  intro s a rest ho
  obtain ⟨c, hs, hc, hr⟩ := h s a rest ho
  exact ⟨c, hs, hc, fun rest' _ => hr rest' trivial⟩

lemma TakesFrom.andThen {f : α → Reader β} {Q : α → β → Bytes → Prop} {W : β → Bytes → Prop}
    (hr : r.TakesFrom SameNext P s)
    (hf : ∀ a t, t.length < s.length → (f a).TakesFrom same (Q a) t)
    (hW : ∀ a c b d, P a c → Q a b d → W b (c ++ d)) :
    TakesFrom same (fun s => (r s).andThen fun a t _ => f a t) W s := by
  intro b rest h
  cases ho : (r s).outcome with
  | error p =>
    rw [outcome_andThen_error ho] at h
    cases h
  | ok q =>
    obtain ⟨a, u⟩ := q
    obtain ⟨hu, ha⟩ := outcome_andThen (f := fun a t _ => f a t) ho
    rw [ha] at h
    obtain ⟨c, hs, hc, hrc⟩ := hr a u ho
    obtain ⟨d, rfl, hd, hfd⟩ := hf a u hu b rest h
    refine ⟨c ++ d, by rw [hs, List.append_assoc], hW a c b d hc hd, fun rest' hrest => ?_⟩
    have hne := ne_nil_of_outcome h
    obtain ⟨_, ha'⟩ := outcome_andThen (f := fun a t _ => f a t)
      (hrc (d ++ rest') (sameNext_append hne rest rest'))
    rw [List.append_assoc, ha']
    exact hfd rest' hrest

lemma TakesFrom.check {f : α → Bytes → Except Fault β} {W : β → Bytes → Prop}
    (hr : r.TakesFrom same P s) (hf : ∀ a u v b, f a u = .ok b → f a v = .ok b)
    (hW : ∀ a c u b, P a c → f a u = .ok b → W b c) :
    TakesFrom same (fun s => (r s).check f) W s := by
  intro b rest h
  rw [outcome_check] at h
  cases ho : (r s).outcome with
  | error p => simp [ho, Except.bind] at h
  | ok q =>
    obtain ⟨a, u⟩ := q
    simp only [ho, Except.bind] at h
    cases hb : f a u with
    | error e => simp [hb] at h
    | ok b' =>
      obtain ⟨rfl, rfl⟩ : b' = b ∧ u = rest := by simpa [hb] using h
      obtain ⟨c, hs, hc, hrc⟩ := hr a u ho
      refine ⟨c, hs, hW a c u b' hc hb, fun rest' hrest => ?_⟩
      rw [outcome_check, hrc rest' hrest]
      simp only [Except.bind, hf a u rest' b' hb]

lemma TakesFrom.map {f : α → β} {W : β → Bytes → Prop} (hr : r.TakesFrom same P s)
    (hW : ∀ a c, P a c → W (f a) c) : TakesFrom same (fun s => (r s).map f) W s := by
  refine hr.check (fun a u v b h => h) fun a c u b hc hb => ?_
  obtain rfl := Except.ok.inj hb
  exact hW a c hc

lemma TakesFrom.within (hr : r.TakesFrom same P s) (step : Step) :
    TakesFrom same (fun s => (r s).within step) P s := by
  intro a rest h
  obtain ⟨c, hs, hc, hrc⟩ := hr a rest (outcome_within_eq_ok.mp h)
  exact ⟨c, hs, hc, fun rest' hrest => outcome_within_eq_ok.mpr (hrc rest' hrest)⟩

lemma TakesFrom.behind {q : Reader α} {W : α → Bytes → Prop} (hr : r.TakesFrom same P s) (v : Bytes)
    (hq : ∀ t, SameNext s t → (q (v ++ t)).outcome = (r t).outcome)
    (hW : ∀ a c, P a c → W a (v ++ c)) : q.TakesFrom same W (v ++ s) := by
  intro a rest h
  rw [hq s rfl] at h
  obtain ⟨c, rfl, hc, hrc⟩ := hr a rest h
  refine ⟨v ++ c, by rw [List.append_assoc], hW a c hc, fun rest' hrest => ?_⟩
  rw [List.append_assoc, hq _ (sameNext_append (ne_nil_of_outcome h) rest rest')]
  exact hrc rest' hrest

lemma TakesFrom.cons {q : Reader α} {b : UInt8} {W : α → Bytes → Prop} (hr : r.TakesFrom same P s)
    (hq : ∀ s, (q (b :: s)).outcome = (r s).outcome) (hW : ∀ a c, P a c → W a (b :: c)) :
    q.TakesFrom same W (b :: s) :=
  hr.behind [b] (fun t _ => hq t) hW

lemma TakesFrom.congr {q : Reader α} {b : UInt8} (hr : r.TakesFrom same P (b :: s))
    (hq : ∀ s, (q (b :: s)).outcome = (r (b :: s)).outcome) : q.TakesFrom same P (b :: s) := by
  refine hr.behind [] (fun t ht => ?_) fun _ _ hc => hc
  obtain ⟨t, rfl⟩ := exists_of_sameNext ht
  exact hq t

lemma TakesFrom.of_error {p : List Step} (h : (r s).outcome = .error p) : r.TakesFrom same P s := by
  intro a rest ha
  rw [h] at ha
  cases ha

lemma TakesFrom.of_ok {a : α} {c : Bytes} (hc : P a c)
    (h : ∀ rest, (r (c ++ rest)).outcome = .ok (a, rest)) (rest : Bytes) :
    r.TakesFrom same P (c ++ rest) := by
  intro b t hb
  rw [h] at hb
  obtain ⟨rfl, rfl⟩ := Prod.mk.inj (Except.ok.inj hb)
  exact ⟨c, rfl, hc, fun rest' _ => h rest'⟩

end Reader

/-! ### White space -/

lemma exists_blank (s : Bytes) :
    ∃ w, Blank w ∧ s = w ++ skipSpace s ∧ ∀ b ∈ (skipSpace s).head?, isSpace b = false := by
  refine ⟨s.takeWhile isSpace, fun b hb => ?_, ?_, fun b hb => ?_⟩
  · exact List.mem_takeWhile_imp hb
  · exact List.takeWhile_append_dropWhile.symm
  · have hd := List.head?_dropWhile_not isSpace s
    rw [skipSpace, Option.mem_def] at hb
    simpa [hb] using hd

lemma exists_of_ahead? {s t : Bytes} {b : UInt8} {h : t.length < s.length}
    (ha : ahead? s = some (b, ⟨t, h⟩)) : ∃ w, Blank w ∧ isSpace b = false ∧ s = w ++ b :: t := by
  obtain ⟨w, hw, hs, hb⟩ := exists_blank s
  have hst : skipSpace s = b :: t := by
    rw [ahead?] at ha
    split at ha
    · cases ha
    · next c u hc =>
      obtain ⟨rfl, hu⟩ := Prod.mk.inj (Option.some.inj ha)
      obtain rfl := Subtype.mk.inj hu
      exact hc
  rw [hst] at hs hb
  exact ⟨w, hw, hb b rfl, hs⟩

lemma Reader.TakesFrom.afterSpace {same : Bytes → Bytes → Prop} {r : Reader α} {P : α → Bytes → Prop}
    {s : Bytes} (hr : r.TakesFrom same P (skipSpace s))
    (hP : ∀ w a c, Blank w → P a c → P a (w ++ c)) : r.afterSpace.TakesFrom same P s := by
  obtain ⟨w, hw, hs, hb⟩ := exists_blank s
  rw [hs]
  cases hsk : skipSpace s with
  | nil =>
    intro a rest h
    have hnil : skipSpace (w ++ []) = [] := skipSpace_blank hw []
    rw [Reader.afterSpace, outcome_widen, hnil] at h
    exact (Nat.not_lt_zero _ (length_of_outcome h)).elim
  | cons b t =>
    rw [hsk] at hr hb
    refine hr.behind w (fun t' ht => ?_) fun a c hc => hP w a c hw hc
    obtain ⟨t', rfl⟩ := exists_of_sameNext ht
    exact outcome_afterSpace r hw (hb b rfl) t'

end Highlight.Json
