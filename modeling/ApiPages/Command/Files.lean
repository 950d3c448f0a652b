/-!
# Access to files

The four things that a command does to files. What they do is left open, so that a command can run
on real files as well as on a workspace that is a value.
-/

namespace ApiPages

/-- What reading a file gives. -/
inductive FileRead where
  | content (text : String)
  /-- There is no file of that name. -/
  | absent
  /-- There is a file, but its text cannot be read. -/
  | unreadable
deriving DecidableEq, Repr

/-- What removing a folder comes to. -/
inductive Removal where
  | removed
  /-- There was nothing to remove. -/
  | absent
  /-- It is still there, though what is in it may be gone. -/
  | failed
deriving DecidableEq, Repr

/-- The operations on files, by path. -/
structure FileAccess (m : Type → Type) where
  read : String → m FileRead
  /-- Makes a folder and the folders around it, unless they are there. Says whether it is there. -/
  makeFolder : String → m Bool
  /-- Writes a file in a folder that is there. Says whether it was written. -/
  write : String → String → m Bool
  /-- Removes a folder and everything in it. -/
  remove : String → m Removal

end ApiPages
