import ApiPages.Declaration.Access

/-!
# Settings
-/

namespace ApiPages

/-- What can be chosen about a set of pages. -/
structure Settings where
  /-- The least access level that is documented. -/
  minAccess : Access
  /-- One document for each category instead of one for each declaration. -/
  collapse : Bool
  /-- The name of the module, for the title of the index. -/
  moduleName : Option String
  /-- A list of members at the top of each page. -/
  contents : Bool
  /-- Members in blocks that can be folded away. -/
  collapsible : Bool
  /-- What every link begins with, instead of the way up to the root folder. -/
  linkStart : String
  /-- What the path of every link ends with. -/
  linkEnd : String
deriving DecidableEq, Repr

namespace Settings

/-- The settings where nothing is chosen. -/
def standard : Settings where
  minAccess := .publicLevel
  collapse := false
  moduleName := none
  contents := false
  collapsible := false
  linkStart := ""
  linkEnd := ".md"

/-- The title of the index. -/
def title (s : Settings) : String :=
  match s.moduleName with
  | some name => if name.isEmpty then "Reference Documentation" else name ++ " Reference"
  | none => "Reference Documentation"

/-- Whether a link may end so: the ending must not lead into another folder. -/
def isLinkEnd (ending : String) : Bool :=
  !ending.toList.contains '/'

end Settings

end ApiPages
