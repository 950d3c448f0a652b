import ApiPages.Declaration.Basic

/-!
# Visible declarations

What a least access level leaves of a tree: a declaration below the level goes with all that is in
it. An extension is there for its members only, so one without visible members goes too.
-/

namespace ApiPages.Declaration

mutual

/-- What is visible of a declaration. -/
def visible? (least : Access) : Declaration → Option Declaration
  | ⟨kind, name, access, signature, comment, inheritance, members, location⟩ =>
    if access.meets least then
      let shown := visible least members
      if kind = .typeExtension ∧ shown = [] then none
      else some ⟨kind, name, access, signature, comment, inheritance, shown, location⟩
    else none

/-- What is visible of a list of declarations. -/
def visible (least : Access) : List Declaration → List Declaration
  | [] => []
  | d :: ds =>
    match visible? least d with
    | some d => d :: visible least ds
    | none => visible least ds

end

end ApiPages.Declaration
