import ApiPages.Page.Index
import ApiPages.Text.Fence
import ApiPages.Text.Lines
import ApiPages.Text.Percent

/-!
# Links between pages

A link leads from the document that holds it to a page, and within one document to the page's
anchor alone. In prose every code span that names a page becomes a link to it, except in blocks of
code, where it is the text of a link already, and where it names the declaration that is described.
-/

namespace ApiPages.PageIndex

open Text

/-- The way up from a document to the root folder. -/
def ascent (source : String) : String :=
  String.join (List.replicate (source.toList.count '/') "../")

/-- A path without the slash it may begin with. -/
def dropRoot : List Char → List Char
  | '/' :: cs => cs
  | cs => cs

/-- A path without the ending `.md`. -/
def dropEnding (path : List Char) : List Char :=
  if [ '.', 'm', 'd' ].isSuffixOf path then path.take (path.length - 3) else path

/-- The anchor of a page as the end of a link. -/
def fragment (target : Page) : String :=
  match target.anchor with
  | none => ""
  | some anchor => "#" ++ anchor

/-- The link to a page from the document at a path. -/
def link (x : PageIndex) (target : Page) (source : String) : String :=
  if target.path = source ∧ target.anchor.isSome then fragment target
  else
    (if x.linkStart.isEmpty then ascent source else x.linkStart) ++
    String.ofList (percentEncode (dropEnding (dropRoot target.path.toList))) ++
    x.linkEnd ++ fragment target

/-- A name as a code span that links to a page. -/
def linkedSpan (x : PageIndex) (target : Page) (name source : String) : String :=
  "[`" ++ name ++ "`](" ++ x.link target source ++ ")"

/-- A name as a code span, with a link if it has a page. -/
def codeLink (x : PageIndex) (name source : String) : String :=
  match x.page? name with
  | some target => x.linkedSpan target name source
  | none => "`" ++ name ++ "`"

/-! ## Code spans in prose -/

/-- What a code span in the document at `source` becomes, if it is to become a link. -/
def spanLink? (x : PageIndex) (source current : String) (code : List Char) : Option (List Char) :=
  let name := String.ofList code
  if name = current then none
  else (x.page? name).map fun target => (x.linkedSpan target name source).toList

/-- Whether a span between two stretches of text is the text of a link. -/
def isLinkText (before after : List Char) : Bool :=
  before.getLast? = some '[' || [']', '('].isPrefixOf after

/-- A code span as it is written. -/
def span (code : List Char) : List Char :=
  '\x60' :: code ++ ['\x60']

/-- The pieces of a line between its backticks, put together again with the spans among them linked:
every second piece is a span, unless no backtick closes it. -/
def linkPieces (link? : List Char → Option (List Char)) (before : List Char) :
    List (List Char) → List Char
  | [] => before
  | [last] => before ++ '\x60' :: last
  | code :: after :: rest =>
    before ++
      (if isLinkText before after then span code else (link? code).getD (span code)) ++
      linkPieces link? after rest

/-- A line with its code spans linked. -/
def linkLine (link? : List Char → Option (List Char)) (line : List Char) : List Char :=
  match pieces '\x60' line with
  | [] => []
  | before :: rest => linkPieces link? before rest

/-- Lines with their code spans linked; fences and the lines of a block of code stay as they are. -/
def linkLines (link? : List Char → Option (List Char)) (inCode : Bool) :
    List (List Char) → List (List Char)
  | [] => []
  | line :: rest =>
    if isFence line then line :: linkLines link? (!inCode) rest
    else (if inCode then line else linkLine link? line) :: linkLines link? inCode rest

/-- Prose with its code spans linked, in the document at `source` and in the part of it that
describes `current`. -/
def linkSpans (x : PageIndex) (source current text : String) : String :=
  String.ofList (joinPieces '\n'
    (linkLines (x.spanLink? source current) false (pieces '\n' text.toList)))

end ApiPages.PageIndex
