import ApiPages.Declaration.Basic

/-!
# Folding extensions

An extension is folded into the type that it extends: its members and supertypes go there, after
those that the type has. Types are found by their qualified names, nested ones included, and where
several types share a name the first one takes all. A type that comes in with an extension can be
extended by the extensions after it. Extensions of types that are not there stay, one for each name.
-/

namespace ApiPages.Merge

/-- The qualified name of a type nested in `parent`; a name that is qualified already is kept. -/
def qualify (parent name : String) : String :=
  if (parent ++ ".").toList.isPrefixOf name.toList then name else parent ++ "." ++ name

/-- Where types are found: for each qualified name the path of the type that has it. -/
abbrev Targets := List (String × List Nat)

namespace Targets

/-- The path of the type with a name. -/
def pathOf? (t : Targets) (name : String) : Option (List Nat) :=
  (List.find? (fun target => target.1 = name) t).map (·.2)

/-- A name for a path, unless the name is taken. -/
def insert (t : Targets) (name : String) (path : List Nat) : Targets :=
  if (t.pathOf? name).isSome then t else t ++ [(name, path)]

end Targets

mutual

/-- Registers the declaration at a path, which has a given qualified name, and the types nested in
it. Other declarations are not registered themselves. -/
def register (t : Targets) (name : String) (path : List Nat) : Declaration → Targets
  | ⟨kind, _, _, _, _, _, members, _⟩ =>
    registerMembers (if kind.isExtendable then t.insert name path else t) name path 0 members

/-- Registers the types among the members of the declaration at a path, of which the first given is
the `i`-th. What is nested in other members is not looked at. -/
def registerMembers (t : Targets) (parent : String) (path : List Nat) (i : Nat) :
    List Declaration → Targets
  | [] => t
  | d :: ds =>
    registerMembers
      (if d.kind.isExtendable then register t (qualify parent d.name) (path ++ [i]) d else t)
      parent path (i + 1) ds

end

/-- Registers top-level declarations, of which the first given is the `i`-th. -/
def registerAll (t : Targets) (i : Nat) : List Declaration → Targets
  | [] => t
  | d :: ds => registerAll (register t d.name [i] d) (i + 1) ds

/-- A merge under way. -/
structure State where
  /-- The declarations that are no extensions, with what was folded into them. -/
  base : List Declaration
  targets : Targets
  /-- The extensions kept, one for each name. -/
  external : List Declaration

/-- The state before the first extension. -/
def start (ds : List Declaration) : State :=
  let base := ds.filter fun d => !d.isExtension
  ⟨base, registerAll [] 0 base, []⟩

/-- A declaration with the members and supertypes of an extension. -/
def absorb (d e : Declaration) : Declaration :=
  (d.inherit e.inheritance).addMembers e.members

/-- The extensions kept, with one more: folded into the one of its name, or added. -/
def keep (e : Declaration) : List Declaration → List Declaration
  | [] => [e]
  | d :: ds => if d.name = e.name then absorb d e :: ds else d :: keep e ds

/-- The state after one more extension. -/
def fold (s : State) (e : Declaration) : State :=
  match s.targets.pathOf? e.name with
  | none => { s with external := keep e s.external }
  | some path =>
    match Declaration.at? s.base path with
    | none => s
    | some target =>
      { s with
        base := Declaration.modifyAt (absorb · e) s.base path
        targets := registerMembers s.targets target.name path target.members.length e.members }

/-- The state after all extensions of a list of declarations. -/
def run (ds : List Declaration) : State :=
  (ds.filter Declaration.isExtension).foldl fold (start ds)

/-- The declarations with extensions folded: what is no extension, in order, then the extensions
kept, in the order of their names' first appearance. -/
def mergeExtensions (ds : List Declaration) : List Declaration :=
  (run ds).base ++ (run ds).external

end ApiPages.Merge
