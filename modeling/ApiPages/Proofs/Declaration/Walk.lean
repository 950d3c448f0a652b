import ApiPages.Proofs.Declaration.Nodes

/-!
# Walks through a tree

The declarations of a tree in their order, each with its depth: a parent comes before its members,
which are one level deeper. A walk meets every declaration once, in the order of `nodes`.
-/

namespace ApiPages.Declaration

mutual

/-- The declarations of a tree with their depths, the root first, which is at the given depth. -/
def walk (depth : Nat) : Declaration → List (Nat × Declaration)
  | ⟨kind, name, access, signature, comment, inheritance, members, location⟩ =>
    (depth, ⟨kind, name, access, signature, comment, inheritance, members, location⟩) ::
      walkAll (depth + 1) members

/-- The declarations of the trees of a list with their depths. -/
def walkAll (depth : Nat) : List Declaration → List (Nat × Declaration)
  | [] => []
  | d :: ds => d.walk depth ++ walkAll depth ds

end

theorem walk_eq (depth : Nat) (d : Declaration) :
    d.walk depth = (depth, d) :: walkAll (depth + 1) d.members := by
  cases d
  rw [walk]

theorem walkAll_eq_flatMap (depth : Nat) (ds : List Declaration) :
    walkAll depth ds = ds.flatMap (walk depth) := by
  induction ds with
  | nil => rfl
  | cons d ds ih => rw [walkAll, ih, List.flatMap_cons]

/-- A walk leaves no declaration out and meets none twice. -/
theorem map_snd_walk (depth : Nat) (d : Declaration) : (d.walk depth).map (·.2) = d.nodes := by
  induction d using induct generalizing depth with
  | step d ih =>
    rw [walk_eq, nodes_eq, List.map_cons, walkAll_eq_flatMap, nodesAll_eq_flatMap,
      List.map_flatMap]
    exact congrArg _ (List.flatMap_congr fun m hm => ih m hm (depth + 1))

theorem map_snd_walkAll (depth : Nat) (ds : List Declaration) :
    (walkAll depth ds).map (·.2) = nodesAll ds := by
  rw [walkAll_eq_flatMap, nodesAll_eq_flatMap, List.map_flatMap]
  exact List.flatMap_congr fun d _ => map_snd_walk depth d

end ApiPages.Declaration
