import Highlight.Proofs.PropertyList.Continued.Markup
import Highlight.Proofs.PropertyList.Xml

/-! The events of an XML text are the first events of every longer text, wherever the shorter one ends. -/

namespace Highlight.PropertyList.Xml

open Markup

/-! ### Elements -/

def added? : Piece → Option (List Char)
  | .text raw => (Bytes.text? raw).map fun u => u.toList.reverse
  | .reference raw =>
    if (Bytes.text? raw).isNone then none
    else
      match referent? raw with
      | some (.character c) => some [c]
      | some (.entity e) => some (entity? e).toList
      | none => none
  | .opening _ _ | .closing _ => none
  | .declaration | .other => some []

def inner? (name : Bytes) (done : List Char) (s : Bytes) : Option (String × Bytes) :=
  (characters name done s).toOption

def inside? (name : Bytes) (done : List Char) : Piece → Bytes → Option (String × Bytes)
  | .closing n, r => if n = name then some (String.ofList done.reverse, r) else none
  | p, r => (added? p).bind fun cs => inner? name (cs ++ done) r

lemma inner?_cons (name : Bytes) (done : List Char) (b : UInt8) (s : Bytes) :
    inner? name done (b :: s) = (seen (piece b s)).bind fun p => inside? name done p.1 p.2 := by
  have hmap {u v : Bytes} (h : u.length < v.length)
      (x : Except Refusal (String × { r : Bytes // r.length < u.length })) :
      ((x.map fun p =>
        (p.1, (⟨p.2.1, Nat.lt_trans p.2.2 h⟩ : { r : Bytes // r.length < v.length }))).map
          fun p => (p.1, p.2.1)).toOption = (x.map fun p => (p.1, p.2.1)).toOption := by
    cases x <;> rfl
  rw [inner?, characters, content]
  cases hp : piece b s with
  | error e => rfl
  | ok f =>
    obtain ⟨p, r, hr⟩ := f
    cases p with
    | text raw =>
      simp only [seen_ok, Piece.plain, Option.bind_some, inside?, added?]
      cases Bytes.text? raw with
      | none => rfl
      | some u => exact hmap hr _
    | reference raw =>
      simp only [seen_ok, Piece.plain, Option.bind_some, inside?, added?]
      split
      · rfl
      · cases referent? raw with
        | none => rfl
        | some x =>
          cases x with
          | character c => exact hmap hr _
          | entity e => exact hmap hr _
    | opening n empty => rfl
    | closing n =>
      simp only [seen_ok, Piece.plain, Option.bind_some, inside?]
      split <;> rfl
    | declaration => exact hmap hr _
    | other => exact hmap hr _

lemma inner?_longer {name : Bytes} {done : List Char} {s r : Bytes} {u : String}
    (h : inner? name done s = some (u, r)) (t : Bytes) :
    inner? name done (s ++ t) = some (u, r ++ t) := by
  induction hn : s.length using Nat.strong_induction_on generalizing s done with
  | _ n ih =>
    subst hn
    cases s with
    | nil =>
      rw [inner?, characters, content] at h
      cases h
    | cons b s =>
      rw [inner?_cons] at h
      obtain ⟨⟨p, v⟩, hp, hi⟩ := Option.bind_eq_some_iff.mp h
      have hv := length_lt_of_seen hp
      rcases piece_lasts hp t with ⟨raw, rfl, rfl⟩ | hl
      · obtain ⟨cs, -, hnil⟩ := Option.bind_eq_some_iff.mp hi
        rw [inner?, characters, content] at hnil
        cases hnil
      rw [List.cons_append, inner?_cons, hl, Option.bind_some]
      have hon (h : (added? p).bind (fun cs => inner? name (cs ++ done) v) = some (u, r)) :
          (added? p).bind (fun cs => inner? name (cs ++ done) (v ++ t)) = some (u, r ++ t) := by
        obtain ⟨cs, hcs, hc⟩ := Option.bind_eq_some_iff.mp h
        rw [hcs, Option.bind_some, ih v.length hv hc rfl]
      cases p with
      | closing n =>
        simp only [inside?] at hi ⊢
        split at hi
        · next hname =>
          obtain ⟨rfl, rfl⟩ := Prod.mk.inj (Option.some.inj hi)
          exact if_pos hname
        · cases hi
      | text raw => exact hon hi
      | reference raw => exact hon hi
      | opening n empty => exact hon hi
      | declaration => exact hon hi
      | other => exact hon hi

/-! ### Events -/

def leaf? : Piece → Option (Bytes × Leaf)
  | .opening n false => (leafs.lookup (localName n)).map (n, ·)
  | _ => none

def effect? (opened : List Bytes) : Piece → Option (List Event × List Bytes)
  | .closing n =>
    match opened with
    | [] => none
    | m :: opened =>
      if m = n then some (((tagEvents.lookup (localName n)).map (·.2)).getD [], opened) else none
  | .opening n empty =>
    match leafs.lookup (localName n) with
    | some leaf => (leaf.event "").toOption.map fun e => ([e], opened)
    | none =>
      (tagEvents.lookup (localName n)).map fun (before, after) =>
        (before ++ if empty then after else [], if empty then opened else n :: opened)
  | .text raw =>
    (Bytes.text? raw).bind fun u => if u.toList.all Unicode.isSpace then some ([], opened) else none
  | .reference raw =>
    if (Bytes.text? raw).isNone then none
    else
      match referent? raw with
      | some (.character c) => if Unicode.isSpace c then some ([], opened) else none
      | _ => none
  | .declaration | .other => some ([], opened)

/-- The events of a piece or an element with characters, the elements that are open after it, and what is
left of `r`, which follows the piece. -/
def step (opened : List Bytes) (p : Piece) (r : Bytes) : Option (List Event × List Bytes × Bytes) :=
  match leaf? p with
  | some (n, leaf) =>
    (inner? n [] r).bind fun (u, r) => (leaf.event u).toOption.map fun e => ([e], opened, r)
  | none => (effect? opened p).map fun (es, opened) => (es, opened, r)

lemma events_nil (size : ℕ) (opened : List Bytes) : (trace size opened []).events = [] := by
  rw [trace, events]
  rfl

lemma events_foldr (es : List Event) (t : Trace) : (es.foldr .cons t).events = es ++ t.events := by
  induction es with
  | nil => rfl
  | cons e es ih => exact congrArg (e :: ·) ih

def eventsAfter (size : ℕ) (x : Option (List Event × List Bytes × Bytes)) : List Event :=
  x.elim [] fun x => x.1 ++ (trace size x.2.1 x.2.2).events

lemma events_opening {size : ℕ} {opened : List Bytes} {b : UInt8} {s r n : Bytes} {empty : Bool}
    (h : ∃ hr, piece b s = .ok ⟨.opening n empty, r, hr⟩) :
    (trace size opened (b :: s)).events = eventsAfter size (step opened (.opening n empty) r) := by
  obtain ⟨hr, hp⟩ := h
  rw [trace, events, step]
  simp only [hp]
  cases hl : leafs.lookup (localName n) with
  | some leaf =>
    cases empty with
    | true =>
      simp only [leaf?, effect?, hl, if_true]
      cases leaf.event "" <;> rfl
    | false =>
      simp only [leaf?, hl, inner?, characters, Option.map_some, Bool.false_eq_true, if_false]
      cases content n [] r with
      | error e => rfl
      | ok x =>
        simp only [Except.map, Except.toOption, Option.bind_some]
        cases leaf.event x.1 <;> rfl
  | none =>
    have hleaf : leaf? (.opening n empty) = none := by cases empty <;> simp [leaf?, hl]
    simp only [hleaf, effect?, hl]
    cases tagEvents.lookup (localName n) with
    | none => rfl
    | some x => exact events_foldr _ _

lemma events_cons (size : ℕ) (opened : List Bytes) (b : UInt8) (s : Bytes) :
    (trace size opened (b :: s)).events =
      eventsAfter size ((seen (piece b s)).bind fun p => step opened p.1 p.2) := by
  cases hp : piece b s with
  | error e =>
    rw [trace, events]
    simp only [hp]
    rfl
  | ok f =>
    obtain ⟨p, r, hr⟩ := f
    rw [seen_ok, Option.bind_some]
    cases p with
    | opening n empty => exact events_opening ⟨hr, hp⟩
    | text raw =>
      rw [trace, events]
      simp only [hp, Piece.plain, step, leaf?, effect?]
      cases Bytes.text? raw with
      | none => rfl
      | some u =>
        simp only [Option.bind_some]
        split <;> rfl
    | reference raw =>
      rw [trace, events]
      simp only [hp, Piece.plain, step, leaf?, effect?]
      split
      · rfl
      · cases referent? raw with
        | none => rfl
        | some x =>
          cases x with
          | entity e => rfl
          | character c =>
            simp only
            split <;> rfl
    | closing n =>
      rw [trace, events]
      simp only [hp, Piece.plain, step, leaf?, effect?]
      cases opened with
      | nil => rfl
      | cons m opened =>
        by_cases h : m = n
        · simp only [h, ne_eq, not_true, if_false, if_true]
          exact events_foldr _ _
        · simp only [h, ne_eq, not_false_iff, if_false, if_true]
          rfl
    | declaration =>
      rw [trace, events]
      simp only [hp]
      rfl
    | other =>
      rw [trace, events]
      simp only [hp]
      rfl

variable {opened opened' : List Bytes} {r r' : Bytes} {es : List Event}

lemma step_cases {p : Piece} (h : step opened p r = some (es, opened', r')) :
    (r' = r ∧ ∀ v, step opened p v = some (es, opened', v)) ∨
      ∃ name u, inner? name [] r = some (u, r') ∧
        ∀ v w, inner? name [] v = some (u, w) → step opened p v = some (es, opened', w) := by
  rw [step] at h
  cases hl : leaf? p with
  | none =>
    rw [hl] at h
    obtain ⟨x, hx, he⟩ := Option.map_eq_some_iff.mp h
    cases he
    refine .inl ⟨rfl, fun v => ?_⟩
    rw [step, hl, hx]
    rfl
  | some q =>
    obtain ⟨n, leaf⟩ := q
    rw [hl] at h
    obtain ⟨⟨u, w⟩, hu, hm⟩ := Option.bind_eq_some_iff.mp h
    obtain ⟨e, he, hx⟩ := Option.map_eq_some_iff.mp hm
    cases hx
    refine .inr ⟨n, u, hu, fun v w hw => ?_⟩
    rw [step, hl]
    simp only [hw, Option.bind_some, he, Option.map_some]

lemma step_longer {p : Piece} (h : step opened p r = some (es, opened', r')) (t : Bytes) :
    step opened p (r ++ t) = some (es, opened', r' ++ t) := by
  rcases step_cases h with ⟨rfl, hs⟩ | ⟨name, u, hu, hs⟩
  · exact hs _
  · exact hs _ _ (inner?_longer hu t)

lemma step_text {raw : Bytes} (h : step opened (.text raw) r = some (es, opened', r')) :
    es = [] ∧ r' = r := by
  obtain ⟨x, hx, he⟩ := Option.map_eq_some_iff.mp h
  obtain ⟨u, hu, hs⟩ := Option.bind_eq_some_iff.mp hx
  split at hs
  · cases hs
    cases he
    exact ⟨rfl, rfl⟩
  · cases hs

lemma length_le_of_inner? {name : Bytes} {done : List Char} {u : String}
    (h : inner? name done r = some (u, r')) : r'.length ≤ r.length := by
  rw [inner?, characters] at h
  cases hc : content name done r with
  | error e =>
    rw [hc] at h
    cases h
  | ok x =>
    rw [hc] at h
    cases h
    exact Nat.le_of_lt x.2.2

lemma length_le_of_step {p : Piece} (h : step opened p r = some (es, opened', r')) :
    r'.length ≤ r.length := by
  rcases step_cases h with ⟨rfl, -⟩ | ⟨name, u, hu, -⟩
  · exact Nat.le_refl _
  · exact length_le_of_inner? hu

theorem events_longer (size size' : ℕ) (opened : List Bytes) (s t : Bytes) :
    (trace size opened s).events <+: (trace size' opened (s ++ t)).events := by
  induction hn : s.length using Nat.strong_induction_on generalizing s opened with
  | _ n ih =>
    subst hn
    cases s with
    | nil =>
      rw [events_nil]
      exact List.nil_prefix
    | cons b s =>
      rw [List.cons_append, events_cons, events_cons]
      cases hp : seen (piece b s) with
      | none => exact List.nil_prefix
      | some x =>
        obtain ⟨p, r⟩ := x
        rw [Option.bind_some]
        cases hs : step opened p r with
        | none => exact List.nil_prefix
        | some x =>
          obtain ⟨es, opened', r'⟩ := x
          have hr := Nat.lt_of_le_of_lt (length_le_of_step hs) (length_lt_of_seen hp)
          rcases piece_lasts hp t with ⟨raw, rfl, rfl⟩ | hl
          · obtain ⟨rfl, rfl⟩ := step_text hs
            rw [eventsAfter, Option.elim_some, events_nil]
            exact List.nil_prefix
          · rw [hl, Option.bind_some, step_longer hs]
            exact (List.prefix_append_right_inj es).mpr (ih r'.length hr opened' r' rfl)

end Highlight.PropertyList.Xml
