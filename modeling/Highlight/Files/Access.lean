import Highlight.Files.Path
import Highlight.Files.Tree

/-! Files and directories made, written and read under their paths. -/

namespace Highlight.FileTree

open Files

def member? (t : FileTree) (here : List String) (name : String) : Except Obstacle (Option FileTree) :=
  if longestName < name.utf8ByteSize then .error .nameTooLong else .ok (t.at? (here ++ [name]))

def enter (t : FileTree) (here : List String) : List String → Except Obstacle (List String)
  | [] => .ok here
  | n :: ns =>
    if Path.isIdle n then t.enter here ns
    else if n = ".." then t.enter here.dropLast ns
    else
      match t.member? here n with
      | .error o => .error o
      | .ok none => .error .notFound
      | .ok (some (.file _)) => .error .notDirectory
      | .ok (some (.directory _)) => t.enter (here ++ [n]) ns

inductive Place
  | passed
  | member (here : List String) (name : String)

def locate (t : FileTree) (path : String) : Except Obstacle Place :=
  match Path.objection? path with
  | some o => .error o
  | none =>
    match Path.target? path with
    | none => .ok .passed
    | some (before, last) =>
      match t.enter [] before with
      | .error o => .error o
      | .ok here => .ok (if last = "." ∨ last = ".." then .passed else .member here last)

def isDirectory (t : FileTree) (path : String) : Bool :=
  (Path.objection? path).isNone && (t.enter [] (Path.names path)).isOk

def makeDirectory (t : FileTree) (path : String) : Except Obstacle FileTree :=
  match t.locate path with
  | .error o => .error o
  | .ok .passed => .error .exists
  | .ok (.member here name) =>
    match t.member? here name with
    | .error o => .error o
    | .ok (some _) => .error .exists
    | .ok none => .ok (t.put (here ++ [name]) empty)

def ensureDirectory (t : FileTree) (path : String) : FileTree × Except Obstacle Unit :=
  match t.makeDirectory path with
  | .ok u => (u, .ok ())
  | .error o => (t, if t.isDirectory path then .ok () else .error o)

def makeDirectories (t : FileTree) : List String → FileTree × Except Obstacle Unit
  | [] => (t, .ok ())
  | path :: around =>
    match t.makeDirectory path with
    | .error .notFound =>
      match t.makeDirectories around with
      | (u, .ok ()) => u.ensureDirectory path
      -- What has been made stays.
      | (u, .error o) => (u, .error o)
    | _ => t.ensureDirectory path

def store (t : FileTree) (path : String) (content : Bytes) : Except Obstacle FileTree :=
  match t.locate path with
  | .error o => .error o
  | .ok .passed => .error .isDirectory
  | .ok (.member here name) =>
    if Path.endsInSlash path then .error .isDirectory
    else
      match t.member? here name with
      | .error o => .error o
      | .ok (some (.directory _)) => .error .isDirectory
      | .ok _ => .ok (t.put (here ++ [name]) (.file content))

def load (t : FileTree) (path : String) : Except Obstacle Bytes :=
  match t.locate path with
  | .error o => .error o
  | .ok .passed => .error .isDirectory
  | .ok (.member here name) =>
    match t.member? here name with
    | .error o => .error o
    | .ok none => .error .notFound
    | .ok (some (.directory _)) => .error .isDirectory
    | .ok (some (.file content)) =>
      if Path.endsInSlash path then .error .notDirectory else .ok content

end Highlight.FileTree
