import ApiPages.Comment.Reader
import ApiPages.Declaration.Structure
import ApiPages.Inventory.Record
import ApiPages.Json.Reader

/-!
# Inventories

An inventory is the list of a module's declarations. It is read from JSON in three steps, each with
errors of its own: the text must be JSON, the value must have the shape of records, and the records
must be declarations. A record is judged in the order kind, name, place, members, access level, and
the first fault in reading order is the one reported.
-/

namespace ApiPages

/-- The declarations of a module. -/
structure Inventory where
  moduleName : Option String
  declarations : List Declaration

/-- Why a text is no inventory. -/
inductive InventoryError where
  | notJson (e : Json.ReadError)
  /-- The JSON value has not the shape of records. -/
  | wrongShape
  | fault (f : InventoryFault)
deriving DecidableEq, Repr

namespace Record

/-- Documentation that was taken apart already, with its texts trimmed. Texts on the return value
and on errors stay as they are, unless they are blank. -/
def tidy (c : Comment) : Comment where
  summary := Text.trim c.summary
  discussion := (c.discussion.map Text.trim).filter fun s => !s.isEmpty
  parameters := c.parameters.map fun p => ⟨Text.trim p.name, Text.trim p.description⟩
  returns := c.returns.filter fun s => !Text.isBlankText s
  throws := c.throws.filter fun s => !Text.isBlankText s

/-- The comment of a declaration: the documentation of its record, else the comment text. A comment
that says nothing is none. -/
def commentOf (documentation : Option Comment) (text : Option String) : Option Comment :=
  ((documentation.map tidy).or (text.map Comment.parse)).filter fun c => !c.isEmpty

/-- The signature of a declaration: that of its record, else the name. -/
def signatureOf (signature : Option String) (name : String) : String :=
  ((signature.map Text.trim).filter fun s => !s.isEmpty).getD name

/-- The more visible of two access levels, the second where they share a tier. -/
def moreVisible (a b : Access) : Access :=
  if b.rank < a.rank then a else b

/-- The access level of an extension that gives none: that of its most visible member. -/
def impliedAccess : List Declaration → Access
  | [] => .internalLevel
  | d :: ds => ds.foldl (fun level m => moreVisible level m.access) d.access

/-- The kind and the name of the record at a path, if the record may stand where it does. -/
def heading (path : RecordPath) (parent : Option Kind) (kind name : Option String) :
    Except InventoryFault (Kind × String) :=
  match kind with
  | none => .error (.missingField path .kind)
  | some word =>
    match Kind.ofWord? word with
    | none => .error (.unknownKind path word)
    | some kind =>
      match (name.map Text.trim).filter fun s => !s.isEmpty with
      | none => .error (.missingField path .name)
      | some name =>
        if kind.mayStandIn parent then .ok (kind, name) else .error (.misplacedCase path name)

/-- The access level of the record at a path: the one given, else the one implied. -/
def accessOf (path : RecordPath) (kind : Kind) (access : Option String)
    (members : List Declaration) : Except InventoryFault Access :=
  match access with
  | none => .ok (if kind = .typeExtension then impliedAccess members else .internalLevel)
  | some word =>
    match Access.ofWord? word with
    | none => .error (.unknownAccess path word)
    | some level => .ok level

mutual

/-- The declaration that the record at a path is. -/
def declaration (path : RecordPath) (parent : Option Kind) :
    Record → Except InventoryFault Declaration
  | ⟨kind, name, access, signature, documentation, comment, inheritance, members, location⟩ =>
    match heading path parent kind name with
    | .error fault => .error fault
    | .ok (kind, name) =>
      match declarationsOf path 0 kind members with
      | .error fault => .error fault
      | .ok members =>
        match accessOf path kind access members with
        | .error fault => .error fault
        | .ok access =>
          .ok ⟨kind, name, access, signatureOf signature name, commentOf documentation comment,
            inheritance, members, location⟩

/-- The declarations that the members of the record at a path are, from a member on. -/
def declarationsOf (path : RecordPath) (i : Nat) (parent : Kind) :
    List Record → Except InventoryFault (List Declaration)
  | [] => .ok []
  | r :: rs =>
    match r.declaration (path.member i) (some parent) with
    | .error fault => .error fault
    | .ok d =>
      match declarationsOf path (i + 1) parent rs with
      | .error fault => .error fault
      | .ok ds => .ok (d :: ds)

end

/-- The declarations that top-level records are, from an index on. -/
def declarationsFrom (i : Nat) : List Record → Except InventoryFault (List Declaration)
  | [] => .ok []
  | r :: rs =>
    match r.declaration ⟨i, []⟩ none with
    | .error fault => .error fault
    | .ok d =>
      match declarationsFrom (i + 1) rs with
      | .error fault => .error fault
      | .ok ds => .ok (d :: ds)

/-- The declarations that top-level records are. -/
def declarations (rs : List Record) : Except InventoryFault (List Declaration) :=
  declarationsFrom 0 rs

end Record

namespace Inventory

/-- The inventory that a text is. A value of the wrong shape is found before anything that follows
it in the text is looked at. -/
def read (text : String) : Except InventoryError Inventory :=
  match Json.read text with
  | .error e => .error (.notJson e)
  | .ok reading =>
    match reading.value.inventory? with
    | none => .error .wrongShape
    | some ⟨moduleName, records⟩ =>
      if reading.trailing then .error (.notJson .malformed)
      else
        match Record.declarations records with
        | .error fault => .error (.fault fault)
        | .ok declarations => .ok ⟨moduleName, declarations⟩

end Inventory

end ApiPages
