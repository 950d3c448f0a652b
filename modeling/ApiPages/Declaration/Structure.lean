import ApiPages.Declaration.Basic
import ApiPages.Text.Blank

/-!
# Faults of an inventory

An inventory is refused for its first fault, and the fault names the record at fault by its path,
such as `declarations[2].members[0]`. `Declaration.check` looks for the faults that declarations can
have which did not come from records: a blank name, and a case that stands outside of an enum.
-/

namespace ApiPages

/-- The place of a record: its index in the inventory, then indices among members. -/
structure RecordPath where
  top : Nat
  members : List Nat
deriving DecidableEq, Repr

namespace RecordPath

/-- The path to a member of the record at a path. -/
def member (p : RecordPath) (i : Nat) : RecordPath :=
  { p with members := p.members ++ [i] }

/-- The path as text. -/
def text (p : RecordPath) : String :=
  p.members.foldl (fun s i => s ++ ".members[" ++ toString i ++ "]")
    ("declarations[" ++ toString p.top ++ "]")

end RecordPath

/-- The fields that every record needs. -/
inductive RequiredField where
  | kind
  | name
deriving DecidableEq, Repr

/-- The key of the field. -/
def RequiredField.key : RequiredField → String
  | kind => "kind"
  | name => "name"

/-- A fault of a record. -/
inductive InventoryFault where
  | missingField (path : RecordPath) (field : RequiredField)
  | unknownKind (path : RecordPath) (word : String)
  | unknownAccess (path : RecordPath) (word : String)
  /-- A case that stands neither in an enum nor in an extension. -/
  | misplacedCase (path : RecordPath) (name : String)
deriving DecidableEq, Repr

/-- The fault in words. -/
def InventoryFault.message : InventoryFault → String
  | missingField path field => path.text ++ ": missing required field '" ++ field.key ++ "'"
  | unknownKind path word => path.text ++ ": unknown declaration kind '" ++ word ++ "'"
  | unknownAccess path word => path.text ++ ": unknown access level '" ++ word ++ "'"
  | misplacedCase path name => path.text ++ ": enum case '" ++ name ++ "' declared outside of an enum"

/-- The fault as what is wrong with an inventory. -/
def InventoryFault.inventoryMessage (f : InventoryFault) : String :=
  "invalid inventory: " ++ f.message

/-- Whether a declaration of a kind may stand among the members of a parent of a kind; no parent
means the top level. Only cases need a parent, one that holds cases. -/
def Kind.mayStandIn (kind : Kind) (parent : Option Kind) : Bool :=
  kind ≠ .enumCase || parent.any Kind.holdsCases

namespace Declaration

mutual

/-- The first fault of the declaration at a path, if it has one: its name, its place, then its
members. -/
def check (path : RecordPath) (parent : Option Kind) : Declaration → Except InventoryFault Unit
  | ⟨kind, name, _, _, _, _, members, _⟩ =>
    if Text.isBlankText name then .error (.missingField path .name)
    else if !kind.mayStandIn parent then .error (.misplacedCase path name)
    else checkMembers path 0 kind members

/-- The first fault among the members of the declaration at a path, from a member on. -/
def checkMembers (path : RecordPath) (i : Nat) (parent : Kind) :
    List Declaration → Except InventoryFault Unit
  | [] => .ok ()
  | d :: ds =>
    match d.check (path.member i) (some parent) with
    | .error fault => .error fault
    | .ok () => checkMembers path (i + 1) parent ds

end

/-- The first fault among top-level declarations, from an index on. -/
def checkFrom (i : Nat) : List Declaration → Except InventoryFault Unit
  | [] => .ok ()
  | d :: ds =>
    match d.check ⟨i, []⟩ none with
    | .error fault => .error fault
    | .ok () => checkFrom (i + 1) ds

/-- The first fault among top-level declarations. -/
def checkStructure (ds : List Declaration) : Except InventoryFault Unit :=
  checkFrom 0 ds

end Declaration

end ApiPages
