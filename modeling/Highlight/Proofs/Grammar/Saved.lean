import Highlight.Generate
import Highlight.Proofs.Files.Plain
import Highlight.Proofs.Grammar.Validation

/-! What becomes of a tree as grammars are written into it, one after the other, whether or not they get
there. -/

namespace Highlight.Grammar

open Files FileTree

variable {g : Grammar} {o : Output} {t u : FileTree} {ns : List String} {n : String} {f : Format}

/-! ### One grammar -/

lemma save_adds (hroot : t.node? [] = some .directory) {reason : Failure}
    (h : g.save o t = (u, .error reason)) : Adds (Path.directories o.path) t u := by
  have hmade := makeDirectories_adds hroot (Path.directories o.path)
  rw [save_eq] at h
  generalize t.makeDirectories (Path.directories o.path) = r at h hmade
  obtain ⟨v, _ | _⟩ := r
  · cases h
    exact hmade
  · simp only at h
    cases hs : v.store o.path (g.toBytes o.format) with
    | error obstacle =>
      rw [hs] at h
      cases h
      exact hmade
    | ok w =>
      rw [hs] at h
      cases h

/-- How it can end when a grammar is written under plain names. -/
inductive Saving (t : FileTree) (ns : List String) (n : String) (content : Bytes) :
    FileTree × Except Failure Log.Record → Prop
  | blocked {path : String} {obstacle : Obstacle} (h : Blocked t [] ns) :
      Saving t ns n content (t, .error (.createDirectory path obstacle))
  | occupied {path : String} {obstacle : Obstacle} (h : t.node? (ns ++ [n]) = some .directory) :
      Saving t ns n content (t, .error (.write path obstacle))
  | saved {u : FileTree} {r : Log.Record} (hb : ¬ Blocked t [] ns)
      (hd : t.node? (ns ++ [n]) ≠ some .directory)
      (node?_eq : ∀ p, u.node? p =
        if p = ns ++ [n] then some (.file content)
        else if p <+: ns then some .directory else t.node? p) :
      Saving t ns n content (u, .ok r)

lemma save_plain (g : Grammar) (f : Format) (hroot : t.node? [] = some .directory)
    (hplain : ∀ m ∈ ns ++ [n], IsPlain m) (hfits : Fits (ns ++ [n])) :
    Saving t ns n (g.toBytes f) (g.save ⟨Path.ofNames (ns ++ [n]), f⟩ t) := by
  have hinit := Path.plain_init hplain
  rw [save_eq]
  simp only [Path.directories_ofNames hplain]
  by_cases hd : t.node? (ns ++ [n]) = some .directory
  · have hns : t.node? ns = some .directory := directory_around hd
    rw [makeDirectories_there hinit hfits.init hns]
    simp only [store_inside hplain hfits hns, if_pos hd]
    exact .occupied hd
  · have hcleared := makeDirectories_cleared hroot hinit hfits.init
    generalize t.makeDirectories (Path.prefixes ns) = r at hcleared
    cases hcleared with
    | blocked h => exact .blocked h
    | @made u hb hu =>
      have hns : u.node? ns = some .directory := (hu ns).trans (if_pos (List.prefix_refl ns))
      have hud : u.node? (ns ++ [n]) ≠ some .directory := by
        rwa [hu, if_neg (not_prefix_of_concat ns n)]
      simp only [store_inside hplain hfits hns, if_neg hud]
      refine .saved hb hd fun p => ?_
      rw [node?_put_leaf hns (isLeaf_file _) hud, hu]
      rfl

lemma save_again (hplain : ∀ m ∈ ns ++ [n], IsPlain m) (hfits : Fits (ns ++ [n]))
    (h : t.node? (ns ++ [n]) = some (.file (g.toBytes f))) :
    (g.save ⟨Path.ofNames (ns ++ [n]), f⟩ t).1 = t := by
  have hns : t.node? ns = some .directory := directory_around h
  have hd : t.node? (ns ++ [n]) ≠ some .directory := by simp [h]
  rw [save_eq]
  simp only [Path.directories_ofNames hplain,
    makeDirectories_there (Path.plain_init hplain) hfits.init hns, store_inside hplain hfits hns, if_neg hd]
  exact put_of_at? (at?_file h)

lemma Saving.outcome {content : Bytes} {r : FileTree × Except Failure Log.Record}
    (h : Saving t ns n content r) :
    ((∃ path obstacle, r.2 = .error (.createDirectory path obstacle)) ↔ Blocked t [] ns) ∧
      ((∃ path obstacle, r.2 = .error (.write path obstacle)) ↔
        t.node? (ns ++ [n]) = some .directory) ∧
      ((∃ record, r.2 = .ok record) ↔
        ¬ Blocked t [] ns ∧ t.node? (ns ++ [n]) ≠ some .directory) ∧
      ∀ reason, r.2 = .error reason → r.1 = t := by
  have hnot (hd : t.node? (ns ++ [n]) = some .directory) : ¬ Blocked t [] ns := fun hb =>
    (blocked_append_iff.mpr (.inl hb)).not_directory hd
  cases h with
  | blocked h => simp [h, mt hnot (not_not.mpr h)]
  | occupied h => simp [h, hnot h]
  | saved hb hd node?_eq => simp [hb, hd]

lemma blocked_iff (t : FileTree) (ns : List String) (n : String) : Blocked t [] ns ↔
    ∃ above content, above <+: ns ++ [n] ∧ above ≠ ns ++ [n] ∧ t.node? above = some (.file content) := by
  constructor
  · rintro ⟨q, content, hq, hf⟩
    refine ⟨q, content, hq.trans (List.prefix_append ns [n]), ?_, hf⟩
    rintro rfl
    exact not_prefix_of_concat ns n hq
  · rintro ⟨q, content, hq, hne, hf⟩
    exact ⟨q, content, (List.prefix_concat_iff.mp hq).resolve_left hne, hf⟩

lemma origin_of_mem_generate (h : (g.save o t).2.isOk = false) {r : Log.Record}
    (hr : r ∈ (Generate.generate g o t).2.2) : r.origin = Log.validation := by
  have hlog (r : Log.Record) := origin_of_mem_validate (g := g) (r := r)
  rw [Generate.generate_eq] at hr
  generalize g.validate = v at hr hlog
  obtain ⟨_ | _, log⟩ := v
  · exact hlog r hr
  · simp only at hr
    split at hr
    · exact hlog r hr
    · next hs => simp [hs, Except.isOk, Except.toBool] at h

/-- If a grammar cannot be written, then there is nothing new but directories around its path, and no record
of a written grammar. Under plain names that fit, it cannot be written because a file stands on the way, or
because there is a directory in its place, and then nothing has changed. -/
theorem save_outcome (g : Grammar) (o : Output) (ms : List (String × FileTree)) :
    let t := FileTree.directory ms
    let u := (g.save o t).1
    let result := (g.save o t).2
    (∀ reason, result = .error reason →
      (∀ place, u.node? place = t.node? place ∨
        t.node? place = none ∧ u.node? place = some .directory ∧
          ∃ around : String, around.toList <+: o.path.toList ∧
            u.enter [] (Path.names around) = .ok place) ∧
      ∀ r ∈ (Generate.generate g o t).2.2, r.origin ≠ Log.output) ∧
    ∀ p : PlainPath, o.path = p.text → Fits p.names →
      ((∃ path obstacle, result = .error (.createDirectory path obstacle)) ↔
        ∃ above content, above <+: p.names ∧ above ≠ p.names ∧
          t.node? above = some (.file content)) ∧
      ((∃ path obstacle, result = .error (.write path obstacle)) ↔
        t.node? p.names = some .directory) ∧
      ((∃ record, result = .ok record) ↔
        (¬ ∃ above content, above <+: p.names ∧ above ≠ p.names ∧
          t.node? above = some (.file content)) ∧
        t.node? p.names ≠ some .directory) ∧
      ∀ reason, result = .error reason → u = t := by
  intro t u result
  refine ⟨fun reason hresult => ⟨fun place => ?_, fun r hr => ?_⟩, ?_⟩
  · have hadds : Adds (Path.directories o.path) t u := save_adds rfl (Prod.ext rfl hresult)
    rcases hadds.added place with h | ⟨hn, hd, around, hm, he⟩
    · exact .inl h
    · exact .inr ⟨hn, hd, around, Path.directories_cut hm, he⟩
  · have hnot : result.isOk = false := by rw [hresult]; rfl
    rw [origin_of_mem_generate hnot hr]
    decide
  · intro p hpath hfits
    obtain ⟨ns, n, hplain, rfl⟩ := p.exists_eq
    obtain ⟨path, format⟩ := o
    obtain rfl : path = Path.ofNames (ns ++ [n]) := hpath
    rw [← blocked_iff]
    exact (save_plain g format rfl hplain hfits).outcome

theorem save_outcome_below_file :
    let t := FileTree.directory [("a", .file [])]
    let o : Output := ⟨"a/b", .json⟩
    (∃ path obstacle, (Noze.grammar.save o t).2 = .error (.createDirectory path obstacle)) ∧
      (Noze.grammar.save o t).1 = t ∧
      ∀ r ∈ (Generate.generate Noze.grammar o t).2.2, r.origin ≠ Log.output := by
  have h := save_outcome Noze.grammar ⟨"a/b", .json⟩ [("a", .file [])]
  obtain ⟨hcreate, -, -, hsame⟩ := h.2 ⟨["a", "b"], by decide, by decide⟩ rfl (by decide)
  have hfailed := hcreate.mpr ⟨["a"], [], by decide, by decide, rfl⟩
  obtain ⟨path, obstacle, hresult⟩ := hfailed
  exact ⟨⟨path, obstacle, hresult⟩, hsame _ hresult, (h.1 _ hresult).2⟩

/-! ### One grammar after the other -/

structure Write where
  grammar : Grammar
  path : PlainPath
  format : Format
  deriving DecidableEq

namespace Write

def output (w : Write) : Output := ⟨w.path.text, w.format⟩

def content (w : Write) : Bytes := w.grammar.toBytes w.format

end Write

lemma fits_of_save {r : Log.Record} (hplain : ∀ m ∈ ns ++ [n], IsPlain m)
    (h : g.save ⟨Path.ofNames (ns ++ [n]), f⟩ t = (u, .ok r)) : Fits (ns ++ [n]) := by
  rw [save_eq] at h
  split at h
  · simp at h
  · next v hv =>
    cases hs : v.store (Path.ofNames (ns ++ [n])) (g.toBytes f) with
    | error obstacle => simp [hs] at h
    | ok w => exact fits_of_store hplain hs

structure Puts (t : FileTree) (w : Write) (u : FileTree) : Prop where
  root : u.node? [] = some .directory
  fits : Fits w.path.names
  there : u.node? w.path.names = some (.file w.content)
  kept : ∀ place content, place ≠ w.path.names → t.node? place = some (.file content) →
    u.node? place = some (.file content)

lemma save_puts (hroot : t.node? [] = some .directory) {w : Write} {r : Log.Record}
    (h : w.grammar.save w.output t = (u, .ok r)) : Puts t w u := by
  obtain ⟨g, p, f⟩ := w
  obtain ⟨ns, n, hplain, rfl⟩ := p.exists_eq
  have hfits := fits_of_save hplain h
  have hsaving := save_plain g f hroot hplain hfits
  change g.save ⟨Path.ofNames (ns ++ [n]), f⟩ t = (u, .ok r) at h
  rw [h] at hsaving
  cases hsaving with
  | saved hb hd hu =>
    refine ⟨?_, hfits, ?_, fun place content hp hf => ?_⟩
    · rw [hu, if_neg (by simp), if_pos List.nil_prefix]
    · rw [hu, if_pos rfl]
      rfl
    · -- A file on the way would have been in the way.
      have hway : ¬ place <+: ns := fun hw => hb ⟨place, content, hw, hf⟩
      rw [hu, if_neg hp, if_neg hway, hf]

structure Session where
  tree : FileTree
  done : List Write

namespace Session

def write (s : Session) (w : Write) : Session :=
  match w.grammar.save w.output s.tree with
  | (u, .ok _) => ⟨u, w :: s.done⟩
  | (u, .error _) => ⟨u, s.done⟩

def run (t : FileTree) (ws : List Write) : Session := ws.foldl write ⟨t, []⟩

def last? (s : Session) (p : PlainPath) : Option Write := s.done.find? (·.path = p)

structure Holds (t : FileTree) (s : Session) : Prop where
  root : s.tree.node? [] = some .directory
  last : ∀ p w, s.last? p = some w → Fits p.names ∧ s.tree.node? p.names = some (.file w.content)
  kept : ∀ place content, t.node? place = some (.file content) →
    (∀ w ∈ s.done, w.path.names ≠ place) → s.tree.node? place = some (.file content)

lemma holds_write {s : Session} (h : Holds t s) (w : Write) : Holds t (s.write w) := by
  rw [write]
  cases hs : w.grammar.save w.output s.tree with
  | mk u result =>
    cases result with
    | error reason =>
      have hkept := (save_adds h.root hs).kept
      refine ⟨hkept _ _ h.root, fun p v hv => ?_, fun place content hf hd => ?_⟩
      · obtain ⟨hfits, hfile⟩ := h.last p v hv
        exact ⟨hfits, hkept _ _ hfile⟩
      · exact hkept _ _ (h.kept place content hf hd)
    | ok record =>
      have hputs := save_puts h.root hs
      refine ⟨hputs.root, fun p v hv => ?_, fun place content hf hd => ?_⟩
      · by_cases hp : w.path = p
        · obtain rfl : w = v := by simpa [last?, hp] using hv
          rw [← hp]
          exact ⟨hputs.fits, hputs.there⟩
        · have hbefore : s.last? p = some v := by simpa [last?, hp] using hv
          obtain ⟨hfits, hfile⟩ := h.last p v hbefore
          refine ⟨hfits, hputs.kept _ _ (fun hnames => hp ?_) hfile⟩
          exact PlainPath.ext hnames.symm
      · have hother : place ≠ w.path.names := fun he => hd w (by simp) he.symm
        have hfile := h.kept place content hf fun v hv => hd v (by simp [hv])
        exact hputs.kept place content hother hfile

lemma holds_run (hroot : t.node? [] = some .directory) (ws : List Write) : Holds t (run t ws) := by
  have hstart : Holds t ⟨t, []⟩ := ⟨hroot, fun p w hw => by simp [last?] at hw, fun _ _ hf _ => hf⟩
  rw [run]
  generalize (⟨t, []⟩ : Session) = s at hstart
  induction ws generalizing s with
  | nil => exact hstart
  | cons w ws ih => exact ih _ (holds_write hstart w)

/-- After any writes, a path under which one has gone well is a file with what the last of these has put there,
and every other file is as it was. -/
theorem last_write_wins (ms : List (String × FileTree)) (ws : List Write) :
    let t := FileTree.directory ms
    let s := run t ws
    (∀ p w, s.last? p = some w →
      s.tree.at? p.names = some (.file w.content) ∧
      ∀ f, load p.text f s.tree = ofBytes f w.content) ∧
    ∀ place content, t.at? place = some (.file content) →
      (∀ w ∈ s.done, w.path.names ≠ place) → s.tree.at? place = some (.file content) := by
  intro t s
  have h : Holds t s := holds_run rfl ws
  refine ⟨fun p w hw => ?_, fun place content hf hd => ?_⟩
  · obtain ⟨hfits, hfile⟩ := h.last p w hw
    refine ⟨at?_file hfile, fun f => ?_⟩
    obtain ⟨ns, n, hplain, rfl⟩ := p.exists_eq
    rw [load, PlainPath.text, load_plain hplain hfits hfile]
  · have hnode : t.node? place = some (.file content) := by
      rw [node?, hf]
      rfl
    exact at?_file (h.kept place content hnode hd)

def draft : Grammar := ⟨"Draft", "source.draft", [], []⟩

def revisions : List Write :=
  [⟨Noze.grammar, ⟨["a"], by decide, by decide⟩, .propertyList⟩,
    ⟨Noze.grammar, ⟨["a", "c"], by decide, by decide⟩, .json⟩,
    ⟨draft, ⟨["a"], by decide, by decide⟩, .json⟩]

theorem last_write_wins_revisions :
    (run (.directory [("b", .file [0])]) revisions).tree.at? ["a"] =
        some (.file (draft.toBytes .json)) ∧
      (run (.directory [("b", .file [0])]) revisions).tree.at? ["b"] = some (.file [0]) := by
  obtain ⟨hlast, hkept⟩ := last_write_wins [("b", .file [0])] revisions
  have hdone : ∀ w ∈ (run (.directory [("b", .file [0])]) revisions).done, w.path.names ≠ ["b"] := by
    decide +kernel
  have hwrite : (run (.directory [("b", .file [0])]) revisions).last? ⟨["a"], by decide, by decide⟩ =
      some ⟨draft, ⟨["a"], by decide, by decide⟩, .json⟩ := by
    decide +kernel
  exact ⟨(hlast _ _ hwrite).1, hkept ["b"] [0] rfl hdone⟩

end Session

end Highlight.Grammar
