import Highlight.Files.Access

/-! Where directories are made and files are written: in a tree, or outside the program. -/

namespace Highlight

open Files

structure Storage (m : Type → Type) where
  makeDirectories : List String → m (Except Obstacle Unit)
  store : String → Bytes → m (Except Obstacle Unit)

namespace FileTree

def storage : Storage (StateM FileTree) where
  makeDirectories around := fun t => (t.makeDirectories around).swap
  store path content := fun t =>
    match t.store path content with
    | .error obstacle => (.error obstacle, t)
    | .ok u => (.ok (), u)

theorem run_makeDirectories (around : List String) (t : FileTree) :
    (storage.makeDirectories around).run t = (t.makeDirectories around).swap := rfl

theorem run_store (path : String) (content : Bytes) (t : FileTree) :
    (storage.store path content).run t =
      match t.store path content with
      | .error obstacle => (.error obstacle, t)
      | .ok u => (.ok (), u) := rfl

end FileTree

end Highlight
