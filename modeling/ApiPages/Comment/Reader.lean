import ApiPages.Comment.Callout
import ApiPages.Text.Fence
import ApiPages.Text.Lines

/-!
# Reading a comment

A comment is read line by line. Each line goes to the part of the comment that is open, unless it is
code, which always goes to the discussion, or a callout, which opens a part of its own. A blank line
closes every part and opens the discussion.
-/

namespace ApiPages.Comment

open Text

/-- The part of a comment that the next line belongs to. -/
inductive Part where
  | summary
  | discussion
  /-- A list of parameters, one entry a line. -/
  | parameterList
  /-- The description of the last parameter. -/
  | parameter
  | returns
  | throws
deriving DecidableEq, Repr

/-- A comment that is being read. -/
structure Draft where
  part : Part
  /-- Whether a block of code is open. -/
  inCode : Bool
  summary : List String
  discussion : List String
  parameters : List Parameter
  returns : String
  throws : String

/-- The draft before the first line. -/
def Draft.start : Draft :=
  ⟨.summary, false, [], [], [], "", ""⟩

/-- A text continued by another, with a space between them if both say something. -/
def continued (text more : String) : String :=
  if more.isEmpty then text else if text.isEmpty then more else text ++ " " ++ more

/-- The parameters with the description of the last one continued. -/
def continueLast (more : String) : List Parameter → List Parameter
  | [] => []
  | [p] => [⟨p.name, continued p.description more⟩]
  | p :: ps => p :: continueLast more ps

namespace Draft

/-- A line for the discussion keeps its indentation. -/
def discuss (d : Draft) (line : List Char) : Draft :=
  { d with discussion := d.discussion ++ [String.ofList (dropBlankEnd line)] }

/-- A callout opens the part that it speaks of. -/
def readCallout (d : Draft) : Callout → Draft
  | .parameterList => { d with part := .parameterList }
  | .parameter p => { d with part := .parameter, parameters := d.parameters ++ [p] }
  | .returns text => { d with part := .returns, returns := continued d.returns text }
  | .throws text => { d with part := .throws, throws := continued d.throws text }

/-- A line of text goes to the open part. Blank lines before the summary are passed over. -/
def readText (d : Draft) (line : List Char) : Draft :=
  let text := String.ofList (dropBlanks line)
  match d.part with
  | .discussion => d.discuss line
  | .summary =>
    if text.isEmpty then
      if d.summary.isEmpty then d else { d with part := .discussion }
    else { d with summary := d.summary ++ [text] }
  | .parameterList | .parameter =>
    if text.isEmpty then { d with part := .discussion }
    else { d with parameters := continueLast text d.parameters }
  | .returns =>
    if text.isEmpty then { d with part := .discussion }
    else { d with returns := continued d.returns text }
  | .throws =>
    if text.isEmpty then { d with part := .discussion }
    else { d with throws := continued d.throws text }

/-- The entry that a line is, if a list of parameters is open. -/
def entry? (d : Draft) (line : List Char) : Option Parameter :=
  if d.part = .parameterList then Callout.entry? (dropBlanks line) else none

/-- A line outside of code: a callout, an entry of the open list of parameters, or text. -/
def readProse (d : Draft) (line : List Char) : Draft :=
  match Callout.ofLine? (dropBlanks line) with
  | some callout => d.readCallout callout
  | none =>
    match d.entry? line with
    | some p => { d with parameters := d.parameters ++ [p] }
    | none => d.readText line

/-- The draft after one more line. A fence belongs to the discussion, which it opens. -/
def read (d : Draft) (line : List Char) : Draft :=
  if isFence line then { d.discuss line with inCode := !d.inCode, part := .discussion }
  else if d.inCode then d.discuss line
  else d.readProse line

/-- The text, if there is any. -/
def nonempty? (text : String) : Option String :=
  if text.isEmpty then none else some text

/-- The lines of the discussion as one text, without the empty lines around it. -/
def discussionText (ls : List String) : String :=
  let isEnd := fun c => c == '\n'
  String.ofList (dropBlankEnd (dropEndWhile isEnd
    (("\n".intercalate ls).toList.dropWhile isEnd)))

/-- The comment that a draft holds. -/
def finish (d : Draft) : Comment where
  summary := " ".intercalate d.summary
  discussion := nonempty? (discussionText d.discussion)
  parameters := d.parameters
  returns := nonempty? d.returns
  throws := nonempty? d.throws

end Draft

/-- The comment that a text is. -/
def parse (text : String) : Comment :=
  ((lines text.toList).foldl Draft.read Draft.start).finish

end ApiPages.Comment
