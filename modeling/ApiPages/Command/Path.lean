import ApiPages.Text.Lines

/-!
# Paths of files

A path is a text whose segments are separated by slashes. It is kept as given, since messages show
it so, and taken apart only to find files.
-/

namespace ApiPages.Path

/-- Whether a path begins at the root of the file system. -/
def isAbsolute (path : String) : Bool :=
  path.toList.head? = some '/'

/-- A path below a folder; an absolute path stands for itself. -/
def join (folder path : String) : String :=
  if isAbsolute path ∨ folder.isEmpty then path
  else if folder.toList.getLast? = some '/' then folder ++ path
  else folder ++ "/" ++ path

/-- Whether a segment says nothing about where a path leads. -/
def isVacant (segment : List Char) : Bool :=
  segment.isEmpty || segment = ['.']

/-- The segments of a path up to the last that says where it leads, or the first of them. -/
def trimSegments : List (List Char) → List (List Char)
  | [] => []
  | first :: rest => first :: (rest.reverse.dropWhile isVacant).reverse

/-- The path of the folder that holds what a path leads to; empty for the working folder. -/
def parent (path : String) : String :=
  match trimSegments (trimSegments (pieces path)).dropLast with
  | [[]] => "/"
  | segments => String.ofList (Text.joinPieces '/' segments)
where
  pieces (path : String) : List (List Char) := Text.pieces '/' path.toList

/-- The steps of a path: its segments that are not empty. -/
def steps (path : String) : List String :=
  ((Text.pieces '/' path.toList).filter fun s => !s.isEmpty).map String.ofList

/-- The steps of a path, where one that ends with a slash leads to a folder, and so has a last step
that stands for the folder itself. -/
def segments (path : String) : List String :=
  steps path ++ (if path.toList.getLast? = some '/' then ["."] else [])

/-- Whether a step says no name: it stays in the folder, or leads to the one around it. -/
def isDots (step : String) : Bool :=
  step = "." || step = ".."

/-- Whether a path holds a null character, which no name of a file has. -/
def hasNull (path : String) : Bool :=
  path.toList.contains '\x00'

/-- Whether a path may be given to the file system: it has fewer than 4096 bytes, and no null
character among them. -/
def isUsable (path : String) : Bool :=
  path.utf8ByteSize < 4096 && !hasNull path

/-- Whether a segment may be the name of a file: it has at most 255 bytes. -/
def isFileName (segment : String) : Bool :=
  segment.utf8ByteSize ≤ 255

end ApiPages.Path
