import ApiPages.Page.Block
import ApiPages.Page.Link

/-!
# Writing pages

The blocks of a declaration's page: its heading, its signature and documentation, then its members
one level deeper. Members nest to any depth, and only a page as a whole can have a list of contents.
-/

namespace ApiPages

/-- What a page is written with. -/
structure Scope where
  index : PageIndex
  /-- Whether members are put in blocks that can be folded away. -/
  collapsible : Bool
  /-- The path of the document. -/
  path : String
  /-- The declaration that the page is for; it is not linked to itself. -/
  current : String

namespace Scope

/-- Documentation prose with its links. -/
def prose (s : Scope) (text : String) : String :=
  s.index.linkSpans s.path s.current (Text.trim text)

/-- The heading of a section of a declaration at a level. -/
def sectionHeading (level : Nat) (title : Section) : Block :=
  .heading ⟨level + 1, title.title, false⟩

/-- The list of supertypes. -/
def inheritanceBlocks (s : Scope) (level : Nat) (names : List String) : List Block :=
  if names.isEmpty then []
  else
    [sectionHeading level .inheritance,
      .prose (", ".intercalate (names.map fun name => s.index.codeLink name s.path))]

/-- A section that holds one text. -/
def textSection (s : Scope) (level : Nat) (title : Section) : Option String → List Block
  | none => []
  | some text => [sectionHeading level title, .prose (s.prose text)]

/-- The descriptions of a function's parameters. -/
def parameterBlocks (s : Scope) (level : Nat) (kind : Kind) (ps : List Parameter) : List Block :=
  if kind = .function ∧ ps ≠ [] then
    [sectionHeading level .parameters,
      .bullets (ps.map fun p => "`" ++ p.name ++ "`: " ++ s.prose p.description)]
  else []

/-- The blocks of a declaration at a level that stand before its members. -/
def ownBlocks (s : Scope) (level : Nat) (d : Declaration) : List Block :=
  let c := d.comment.getD .empty
  [.code d.signature] ++
  s.inheritanceBlocks level d.inheritance ++
  (if c.summary.isEmpty then [] else [.prose (s.prose c.summary)]) ++
  (c.discussion.map fun text => Block.prose (s.prose text)).toList ++
  s.parameterBlocks level d.kind c.parameters ++
  s.textSection level .returnValue c.returns ++
  s.textSection level .throws c.throws

/-- The blocks of a member, in a block that can be folded away if that is asked for. -/
def folded (s : Scope) (name : String) (body : List Block) : List Block :=
  if s.collapsible then [.detailsStart name] ++ body ++ [.detailsEnd] else body

mutual

/-- The blocks of a member. -/
def memberBlocks (s : Scope) (level : Nat) : Declaration → List Block
  | ⟨kind, name, access, signature, comment, inheritance, members, location⟩ =>
    .heading ⟨level, name, true⟩ ::
    s.folded name
      (s.ownBlocks level
        ⟨kind, name, access, signature, comment, inheritance, members, location⟩ ++
      s.membersBlocks (level + 1) members)

/-- The blocks of a list of members. -/
def membersBlocks (s : Scope) (level : Nat) : List Declaration → List Block
  | [] => []
  | d :: ds => s.memberBlocks level d ++ s.membersBlocks level ds

end

end Scope

/-- The anchors of members, given the anchors before the first. -/
def memberAnchors (a : Anchors) : List Declaration → List String
  | [] => []
  | d :: ds =>
    let (anchor, a) := a.claimHeadings (d.memberHeadings 2)
    anchor :: memberAnchors a ds

/-- The list of contents of a declaration, given the anchors before its first heading. -/
def contentsBlocks (a : Anchors) (contents : Bool) (d : Declaration) : List Block :=
  if contents && !d.members.isEmpty then
    let (_, a) := a.claimHeadings (d.ownHeadings contents 1)
    [Scope.sectionHeading 1 .contents,
      .bullets ((d.members.zip (memberAnchors a d.members)).map fun m =>
        "[`" ++ m.1.name ++ "`](#" ++ m.2 ++ ")")]
  else []

/-- The blocks of the page of a declaration in the document at a path, given the anchors that the
document has so far. -/
def pageBlocks (x : PageIndex) (settings : Settings) (path : String) (a : Anchors)
    (d : Declaration) : List Block :=
  let s : Scope := ⟨x, settings.collapsible, path, d.name⟩
  .heading ⟨1, d.name, true⟩ ::
  s.ownBlocks 1 d ++ contentsBlocks a settings.contents d ++ s.membersBlocks 2 d.members

/-- The blocks of further pages of a document, each after a rule. -/
def furtherBlocks (x : PageIndex) (settings : Settings) (path : String) (a : Anchors) :
    List Declaration → List Block
  | [] => []
  | d :: ds =>
    let (_, next) := a.claimHeadings (d.headings settings.contents)
    .rule :: pageBlocks x settings path a d ++ furtherBlocks x settings path next ds

/-- The document that holds the page of one declaration. -/
def renderPage (x : PageIndex) (settings : Settings) (path : String) (d : Declaration) : String :=
  Block.document (pageBlocks x settings path .empty d)

/-- The document that holds the pages of several declarations, with rules between them. -/
def renderCollapsed (x : PageIndex) (settings : Settings) (path : String)
    (ds : List Declaration) : String :=
  Block.document ((furtherBlocks x settings path .empty ds).drop 1)

end ApiPages
