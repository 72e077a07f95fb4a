import Highlight.Failure
import Highlight.Files.Storage
import Highlight.Log

/-! Grammars in files. -/

namespace Highlight.Grammar

def written (g : Grammar) (o : Output) : Log.Record :=
  ⟨.info, Log.output,
    s!"wrote {o.path} ({g.patterns.length} rules, {(g.toBytes o.format).length} bytes)"⟩

section

variable {m : Type → Type} [Monad m]

def saveIn (d : Storage m) (g : Grammar) (o : Output) : m (Except Failure Log.Record) := do
  let around := Files.Path.directories o.path
  match ← d.makeDirectories around with
  | .error obstacle => return .error (.createDirectory (around.headD "") obstacle)
  | .ok () =>
    match ← d.store o.path (g.toBytes o.format) with
    | .error obstacle => return .error (.write o.path obstacle)
    | .ok () => return .ok (g.written o)

end

def save (g : Grammar) (o : Output) (t : FileTree) : FileTree × Except Failure Log.Record :=
  ((g.saveIn FileTree.storage o).run t).swap

theorem save_eq (g : Grammar) (o : Output) (t : FileTree) :
    g.save o t =
      match t.makeDirectories (Files.Path.directories o.path) with
      | (u, .error obstacle) =>
        (u, .error (.createDirectory ((Files.Path.directories o.path).headD "") obstacle))
      | (u, .ok ()) =>
        match u.store o.path (g.toBytes o.format) with
        | .error obstacle => (u, .error (.write o.path obstacle))
        | .ok v => (v, .ok (g.written o)) := by
  rw [save, saveIn, StateT.run_bind, FileTree.run_makeDirectories]
  obtain ⟨u, _ | ⟨⟩⟩ := t.makeDirectories (Files.Path.directories o.path)
  · rfl
  · change (StateT.run (FileTree.storage.store o.path (g.toBytes o.format) >>= _) u).swap = _
    rw [StateT.run_bind, FileTree.run_store]
    dsimp only
    cases u.store o.path (g.toBytes o.format) <;> rfl

def load (path : String) (f : Format) (t : FileTree) : Except Failure Grammar :=
  match t.load path with
  | .error obstacle => .error (.read path obstacle)
  | .ok content => ofBytes f content

end Highlight.Grammar
