import ApiPages.Command.Files
import ApiPages.Command.Listing
import ApiPages.Command.Path

/-!
# Workspaces

A workspace is a tree of folders and files with a place in it where commands run. Paths are followed
step by step, so each folder on the way must be there, also before a step back up.
-/

namespace ApiPages

/-- A tree of files, and the place where commands run. -/
structure Workspace where
  root : Listing
  here : Place
deriving DecidableEq, Repr

namespace Workspace

/-- What is at a place; the root is always there. -/
def get? (w : Workspace) (p : Place) : Option Entry :=
  w.root.get? p

/-- Whether there is a folder at a place. -/
def isFolder (w : Workspace) (p : Place) : Bool :=
  w.get? p = some .folder

/-- The content of the file at a place. -/
def file? (w : Workspace) (p : Place) : Option String :=
  match w.get? p with
  | some (.file content) => some content
  | _ => none

/-- The place where a path begins. -/
def origin (w : Workspace) (path : String) : Place :=
  if Path.isAbsolute path then [] else w.here

/-- The place that a step leads to from a place, whether or not there is anything. -/
def stepTo (p : Place) (step : String) : Place :=
  if step = "." then p else if step = ".." then p.dropLast else p ++ [step]

/-- The place that steps lead to, whether or not there is anything. -/
def stepsTo (p : Place) (steps : List String) : Place :=
  steps.foldl stepTo p

/-- The place that a path leads to, whether or not there is anything. -/
def place (w : Workspace) (path : String) : Place :=
  stepsTo (w.origin path) (Path.steps path)

/-- Whether steps lead to a folder. The folder of a name must be there. Steps of dots always lead
on: a folder that is in use can be gone from the tree, and is still known with those around it. -/
def leads (w : Workspace) (p : Place) : List String → Bool
  | [] => true
  | s :: rest => (Path.isDots s || w.isFolder (stepTo p s)) && leads w (stepTo p s) rest

/-- The place that a path leads to, if there is something. -/
def locate? (w : Workspace) (path : String) : Option Place :=
  if path.isEmpty || !Path.isUsable path then none
  else if w.leads (w.origin path) (Path.segments path) ||
      (w.leads (w.origin path) (Path.segments path).dropLast && (w.file? (w.place path)).isSome) then
    some (w.place path)
  else none

/-- The workspace with something else at a place, or nothing. -/
def set (w : Workspace) (p : Place) (e : Option Entry) : Workspace :=
  { w with root := w.root.set e p }

/-- The workspace without what is below a place where a folder is. -/
def clear (w : Workspace) (p : Place) : Workspace :=
  if p = [] then { w with root := .empty } else w.set p (some .folder)

/-! ## Operations -/

/-- What reading a path gives. -/
def readFile (w : Workspace) (path : String) : FileRead :=
  match (w.locate? path).bind w.file? with
  | some content => .content content
  | none => .absent

/-- The workspace with a folder where a step leads to from a folder, unless there is something else
or it cannot have the name. -/
def enter? (w : Workspace) (p : Place) (step : String) : Option Workspace :=
  let next := stepTo p step
  if Path.isDots step || w.isFolder next then some w
  else if w.isFolder p && (w.file? next).isNone && Path.isFileName step then
    some (w.set next (some .folder))
  else none

/-- The workspace with the folders that steps lead through from a place, as far as they can be made,
and whether all of them are there. -/
def makeFolders (w : Workspace) (p : Place) : List String → Bool × Workspace
  | [] => (true, w)
  | s :: rest =>
    match w.enter? p s with
    | some v => makeFolders v (stepTo p s) rest
    | none => (false, w)

/-- The workspace with a folder at a path, and whether it is there. -/
def makeFolder (w : Workspace) (path : String) : Bool × Workspace :=
  if Path.isUsable path then w.makeFolders (w.origin path) (Path.steps path) else (false, w)

/-- Whether a file may be written at a path: there is a folder for it, and no folder of its name. -/
def isWritable (w : Workspace) (path : String) : Bool :=
  match (Path.segments path).getLast? with
  | none => false
  | some name =>
    Path.isUsable path && Path.isFileName name && !Path.isDots name &&
      w.leads (w.origin path) (Path.segments path).dropLast &&
      w.isFolder (w.place path).dropLast && !w.isFolder (w.place path)

/-- The workspace with a file at a path, and whether it was written. -/
def writeFile (w : Workspace) (path content : String) : Bool × Workspace :=
  if w.isWritable path then (true, w.set (w.place path) (some (.file content))) else (false, w)

/-- The workspace without the folder at a path and all that is in it, and what that came to. The
folder is emptied first. Then its path is followed once more. If the way leads through a folder that
is gone by then, the empty folder stays and counts as removed. Else it goes if the path ends with
its name; a path that ends with a step of dots cannot take it away. -/
def removeFolder (w : Workspace) (path : String) : Removal × Workspace :=
  match w.locate? path with
  | none => (.absent, w)
  | some p =>
    if w.isFolder p then
      let emptied := w.clear p
      if !emptied.leads (w.origin path) (Path.steps path).dropLast then (.removed, emptied)
      else if (Path.steps path).getLast?.all Path.isDots then (.failed, emptied)
      else (.removed, emptied.set p none)
    else (.failed, w)

/-- The operations on a workspace. -/
def access : FileAccess (StateM Workspace) where
  read path := fun w => (w.readFile path, w)
  makeFolder path := fun w => w.makeFolder path
  write path content := fun w => w.writeFile path content
  remove path := fun w => w.removeFolder path

/-! ## Views -/

/-- A workspace that holds no files yet. There is the folder where commands run, and the null device,
which reads as an empty file. -/
def bare (here : Place) : Workspace :=
  { (makeFolders ⟨.folder "dev" (.file "null" "" .empty) .empty, []⟩ [] here).2 with here }

/-- The workspace that holds files at paths, seen from the folder where commands run. -/
def ofFiles (here : Place) (files : List (String × String)) : Workspace :=
  files.foldl (fun w f => ((w.makeFolder (Path.parent f.1)).2.writeFile f.1 f.2).2) (bare here)

/-- The files below the folder where commands run, by path. -/
def files (w : Workspace) : List (String × String) :=
  w.root.files.filterMap fun f =>
    if w.here.isPrefixOf f.1 then some ("/".intercalate (f.1.drop w.here.length), f.2) else none

end Workspace

end ApiPages
