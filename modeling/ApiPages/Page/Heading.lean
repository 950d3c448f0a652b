import ApiPages.Declaration.Basic
import ApiPages.Page.Anchor

/-!
# Headings

The headings of a declaration's part of a document, in the order of the document: its name, its
sections, then the headings of its members one level deeper. The index claims anchors by this list
before any page is written, and the writer of pages follows it.
-/

namespace ApiPages

/-- The sections of a declaration that have a heading, in their order. -/
inductive Section where
  | inheritance
  | parameters
  | returnValue
  | throws
  | contents
deriving DecidableEq, Repr

/-- The heading of the section. -/
def Section.title : Section → String
  | inheritance => "Inheritance"
  | parameters => "Parameters"
  | returnValue => "Return Value"
  | throws => "Throws"
  | contents => "Contents"

/-- A heading of a document. -/
structure Heading where
  /-- The depth of what it heads; headings themselves go six levels deep. -/
  level : Nat
  words : String
  /-- Whether the words are a name, which is written as code. -/
  isName : Bool
deriving DecidableEq, Repr

/-- The text of a heading. -/
def Heading.text (h : Heading) : String :=
  if h.isName then "`" ++ h.words ++ "`" else h.words

/-- The line of a heading. -/
def Heading.line (h : Heading) : String :=
  String.ofList (List.replicate (min h.level 6) '#') ++ " " ++ h.text

namespace Declaration

/-- The sections of a declaration. Parameters belong to functions; a list of contents is there when
it is asked for and has something to list. -/
def sections (contents : Bool) (d : Declaration) : List Section :=
  let c := d.comment.getD .empty
  (if d.inheritance.isEmpty then [] else [.inheritance]) ++
  (if d.kind = .function ∧ c.parameters ≠ [] then [.parameters] else []) ++
  (if c.returns.isSome then [.returnValue] else []) ++
  (if c.throws.isSome then [.throws] else []) ++
  (if contents && !d.members.isEmpty then [.contents] else [])

/-- The headings of a declaration itself. -/
def ownHeadings (contents : Bool) (level : Nat) (d : Declaration) : List Heading :=
  ⟨level, d.name, true⟩ :: (d.sections contents).map fun s => ⟨level + 1, s.title, false⟩

mutual

/-- The headings of a member and of its members. -/
def memberHeadings (level : Nat) : Declaration → List Heading
  | ⟨kind, name, access, signature, comment, inheritance, members, location⟩ =>
    ownHeadings false level
      ⟨kind, name, access, signature, comment, inheritance, members, location⟩ ++
    membersHeadings (level + 1) members

/-- The headings of a list of members. -/
def membersHeadings (level : Nat) : List Declaration → List Heading
  | [] => []
  | d :: ds => d.memberHeadings level ++ membersHeadings level ds

end

/-- The headings of a top-level declaration, which alone has a list of contents. -/
def headings (contents : Bool) (d : Declaration) : List Heading :=
  d.ownHeadings contents 1 ++ membersHeadings 2 d.members

end Declaration

namespace Anchors

/-- The anchor of the first of some headings, and the anchors after all of them. -/
def claimHeadings (a : Anchors) (hs : List Heading) : String × Anchors :=
  let (anchors, a) := a.claimAll (hs.map Heading.words)
  (anchors.headD "", a)

end Anchors

end ApiPages
