import Highlight.PropertyList.Printer
import Highlight.PropertyList.Xml
import Highlight.Proofs.PropertyList.Markup

/-! The characters of an element: runs and references in turn, up to its end tag. -/

namespace Highlight.PropertyList.Xml

open Bytes Markup

variable {s r : Bytes}

def characters (name : Bytes) (done : List Char) (s : Bytes) : Except Refusal (String × Bytes) :=
  (content name done s).map fun p => (p.1, p.2.1)

lemma content_text {name : Bytes} {done : List Char} {b : UInt8} {raw : Bytes}
    (h : ∃ hr, piece b s = .ok ⟨.text raw, r, hr⟩) {u : String} (hu : text? raw = some u) :
    characters name done (b :: s) = characters name (u.toList.reverse ++ done) r := by
  obtain ⟨hr, hp⟩ := h
  rw [characters, content]
  simp only [hp, hu, characters]
  cases content name (u.toList.reverse ++ done) r <;> rfl

lemma content_closing {name : Bytes} (done : List Char) {b : UInt8}
    (h : ∃ hr, piece b s = .ok ⟨.closing name, r, hr⟩) :
    characters name done (b :: s) = .ok (String.ofList done.reverse, r) := by
  obtain ⟨hr, hp⟩ := h
  rw [characters, content]
  simp only [hp, if_true]
  rfl

def referred? (raw : Bytes) : Option Char :=
  match referent? raw with
  | some (.character c) => some c
  | some (.entity e) => entity? e
  | none => none

lemma content_reference (name : Bytes) (done : List Char) {b : UInt8} {raw : Bytes}
    (h : ∃ hr, piece b s = .ok ⟨.reference raw, r, hr⟩) (hu : (text? raw).isNone = false) {c : Char}
    (hc : referred? raw = some c) :
    characters name done (b :: s) = characters name (c :: done) r := by
  obtain ⟨hr, hp⟩ := h
  rw [characters, content]
  simp only [hp, hu]
  rw [referred?] at hc
  cases hf : referent? raw with
  | none => simp [hf] at hc
  | some referent =>
    cases referent with
    | character d =>
      obtain rfl : d = c := by simpa [hf] using hc
      cases hd : content name (d :: done) r <;> simp [hd, Except.map, characters]
    | entity e =>
      have he : entity? e = some c := by simpa [hf] using hc
      cases hd : content name (c :: done) r <;> simp [he, hd, Except.map, characters]

/-! ### Escaped characters -/

structure Refers (raw : Bytes) (c : Char) : Prop where
  piece_eq : ∀ t, ∃ h, piece 0x26 (raw ++ 0x3b :: t) = .ok ⟨.reference raw, t, h⟩
  isText : (text? raw).isNone = false
  referred : referred? raw = some c

lemma refers_escape (c : Char) : (escape c = [c] ∧ c ≠ '<' ∧ c ≠ '&') ∨
    ∃ raw, ofChars (escape c) = 0x26 :: (raw ++ [0x3b]) ∧ Refers raw c := by
  have href (cs : List Char) (d : Char)
      (hp : ∀ t, ∃ h, piece 0x26 (ofChars cs ++ 0x3b :: t) = .ok ⟨.reference (ofChars cs), t, h⟩)
      (hd : referred? (ofChars cs) = some d) : Refers (ofChars cs) d :=
    ⟨hp, by rw [text?_ofChars]; rfl, hd⟩
  unfold escape
  split
  · exact .inr ⟨_, rfl, href ['l', 't'] '<' (fun t => ⟨_, rfl⟩) rfl⟩
  · exact .inr ⟨_, rfl, href ['g', 't'] '>' (fun t => ⟨_, rfl⟩) rfl⟩
  · exact .inr ⟨_, rfl, href ['a', 'm', 'p'] '&' (fun t => ⟨_, rfl⟩) rfl⟩
  · exact .inr ⟨_, rfl, href ['a', 'p', 'o', 's'] '\'' (fun t => ⟨_, rfl⟩) rfl⟩
  · exact .inr ⟨_, rfl, href ['q', 'u', 'o', 't'] '"' (fun t => ⟨_, rfl⟩) rfl⟩
  · exact .inr ⟨_, rfl, href ['#', '1', '3'] '\r' (fun t => ⟨_, rfl⟩) rfl⟩
  · next hlt _ hamp _ _ _ => exact .inl ⟨rfl, hlt, hamp⟩

lemma endsText_of_mem {c : Char} (hlt : c ≠ '<') (hamp : c ≠ '&') {b : UInt8}
    (hb : b ∈ String.utf8EncodeChar c) : endsText b = false := by
  have h3c : b ≠ 0x3c := by
    rintro rfl
    exact hlt (eq_of_mem_utf8EncodeChar (d := '<') (by decide) hb)
  have h26 : b ≠ 0x26 := by
    rintro rfl
    exact hamp (eq_of_mem_utf8EncodeChar (d := '&') (by decide) hb)
  simp [endsText, h3c, h26]

lemma content_run {run : List Char} (h : ∀ c ∈ run, c ≠ '<' ∧ c ≠ '&') (name : Bytes)
    (done : List Char) {e : UInt8} (he : endsText e = true) (t : Bytes) :
    characters name done (ofChars run ++ e :: t) =
      characters name (run.reverse ++ done) (e :: t) := by
  have hp : ∀ b ∈ ofChars run, endsText b = false := by
    intro b hb
    obtain ⟨c, hc, hb⟩ := List.mem_flatMap.mp hb
    exact endsText_of_mem (h c hc).1 (h c hc).2 hb
  cases hr : ofChars run with
  | nil =>
    obtain rfl : run = [] := by
      have ht := text?_ofChars run
      rw [hr, ← ofChars_nil, text?_ofChars] at ht
      exact (String.ofList_injective (Option.some.inj ht)).symm
    rfl
  | cons b r =>
    rw [hr] at hp
    have hu := text?_ofChars run
    rw [hr] at hu
    rw [List.cons_append, content_text (piece_text hp he t) hu, String.toList_ofList]

lemma content_escaped {name : Bytes} (hn : IsName name) (cs run : List Char)
    (h : ∀ c ∈ run, c ≠ '<' ∧ c ≠ '&') (done : List Char) (t : Bytes) :
    characters name done
      (ofChars run ++ (ofChars (cs.flatMap escape) ++ 0x3c :: 0x2f :: (name ++ 0x3e :: t))) =
      .ok (String.ofList (done.reverse ++ (run ++ cs)), t) := by
  -- Characters that are not escaped wait in the run, which is read at once with the next reference or tag.
  induction cs generalizing run done with
  | nil =>
    have hc := content_closing (run.reverse ++ done) (piece_closing hn t)
    rw [List.flatMap_nil, ofChars_nil, List.nil_append, content_run h name done (by decide), hc]
    simp
  | cons c cs ih =>
    rw [List.flatMap_cons, ofChars_append]
    rcases refers_escape c with ⟨he, hlt, hamp⟩ | ⟨raw, he, hr⟩
    · have hrun : ∀ d ∈ run ++ [c], d ≠ '<' ∧ d ≠ '&' := by
        intro d hd
        rcases List.mem_append.mp hd with hd | hd
        · exact h d hd
        · rw [List.mem_singleton.mp hd]
          exact ⟨hlt, hamp⟩
      simpa [he] using ih (run ++ [c]) hrun done
    · have hi := ih [] (by simp) (c :: (run.reverse ++ done))
      have hc := content_reference name (run.reverse ++ done)
        (hr.piece_eq (ofChars (cs.flatMap escape) ++ 0x3c :: 0x2f :: (name ++ 0x3e :: t)))
        hr.isText hr.referred
      rw [ofChars_nil, List.nil_append] at hi
      simp only [he, List.cons_append, List.append_assoc, List.nil_append]
      rw [content_run h name done (by decide), hc, hi]
      simp

end Highlight.PropertyList.Xml
