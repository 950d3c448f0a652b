import ApiPages.Page.Heading
import ApiPages.Text.Blank

/-!
# Blocks of a document

A document is a list of blocks, each followed by an empty line, and ends with one line end.
-/

namespace ApiPages

/-- A block of a Markdown document. -/
inductive Block where
  | heading (h : Heading)
  /-- Swift code. -/
  | code (text : String)
  | prose (text : String)
  | bullets (items : List String)
  /-- The beginning of a block that can be folded away, with the name that stays. -/
  | detailsStart (name : String)
  | detailsEnd
  /-- A line across the page. -/
  | rule
deriving DecidableEq, Repr

namespace Block

/-- The block as text, without the line end after it. -/
def text : Block → String
  | heading h => h.line
  | code s => "```swift\n" ++ Text.trimEnd s ++ "\n```"
  | prose s => s
  | bullets items => "\n".intercalate (items.map ("- " ++ ·))
  | detailsStart name => "<details>\n<summary><code>" ++ name ++ "</code></summary>"
  | detailsEnd => "</details>"
  | rule => "---"

/-- The blocks as one text. -/
def join (bs : List Block) : String :=
  String.join (bs.map fun b => b.text ++ "\n\n")

/-- The document that consists of some blocks. -/
def document (bs : List Block) : String :=
  Text.trimEnd (join bs) ++ "\n"

end Block

end ApiPages
