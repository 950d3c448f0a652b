import ApiPages.Comment.Basic
import ApiPages.Declaration.Access
import ApiPages.Declaration.Kind

/-!
# Declarations

A declaration is a tree: its members are declarations too. Functions on the tree come in pairs, one
for a declaration and one for a list of them, so that both are structural.
-/

namespace ApiPages

/-- Where a declaration stands in the sources. -/
structure Location where
  file : String
  line : Nat
deriving DecidableEq, Repr

/-- The location as text. -/
def Location.text (l : Location) : String :=
  l.file ++ ":" ++ toString l.line

/-- A documented declaration. -/
structure Declaration where
  kind : Kind
  /-- The name; an extension carries the name of the type that it extends. -/
  name : String
  access : Access
  /-- The declaration as written in the source. -/
  signature : String
  comment : Option Comment
  /-- Supertypes and conformances, as written. -/
  inheritance : List String
  members : List Declaration
  location : Option Location
deriving BEq, Repr

namespace Declaration

/-- Whether a declaration is an extension. -/
def isExtension (d : Declaration) : Bool :=
  d.kind = .typeExtension

/-- Names added to a list of names, each once and after those that are there. -/
def unionNames (names : List String) : List String → List String
  | [] => names
  | n :: rest => unionNames (if n ∈ names then names else names ++ [n]) rest

/-- The declaration with further supertypes. -/
def inherit (d : Declaration) (names : List String) : Declaration :=
  { d with inheritance := unionNames d.inheritance names }

/-- The declaration with further members, after those that it has. -/
def addMembers (d : Declaration) (members : List Declaration) : Declaration :=
  { d with members := d.members ++ members }

mutual

/-- The number of declarations in the tree. -/
def count : Declaration → Nat
  | ⟨_, _, _, _, _, _, members, _⟩ => 1 + countAll members

/-- The number of declarations in the trees of a list. -/
def countAll : List Declaration → Nat
  | [] => 0
  | d :: ds => d.count + countAll ds

end

/-! ## Positions in a tree -/

/-- The declaration at a path of indices: the first chooses from the list, the others among members. -/
def at? (ds : List Declaration) : List Nat → Option Declaration
  | [] => none
  | [i] => ds[i]?
  | i :: path => ds[i]?.bind fun d => at? d.members path

/-- The list with the declaration at a path replaced by what `f` makes of it; a path to nothing
changes nothing. -/
def modifyAt (f : Declaration → Declaration) (ds : List Declaration) : List Nat → List Declaration
  | [] => ds
  | [i] => ds.modify i f
  | i :: path => ds.modify i fun d => { d with members := modifyAt f d.members path }

end Declaration

end ApiPages
