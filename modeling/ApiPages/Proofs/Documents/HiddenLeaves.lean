import ApiPages.Proofs.Declaration.Placement
import ApiPages.Proofs.Documents.DocumentSet
import ApiPages.Proofs.Merge.Pruned

/-!
# Hidden leaves leave no trace

Declarations give the same documents with and without the functions, variables, type aliases and
cases that are below the least access level: the merge does the same with what is left, and what is
visible of it is the same.
-/

namespace ApiPages

open Declaration (prune pruneAll checkStructure)

variable {ds : List Declaration}

theorem Declaration.Sound.prune {d : Declaration} (h : d.Sound) (least : Access) :
    (prune least d).Sound where
  named := by
    rw [prune_name]
    exact h.named
  placed := by
    intro x hx
    rw [prune_members] at hx
    obtain ⟨m, hm, -, rfl⟩ := mem_pruneAll.1 hx
    rw [prune_kind, prune_kind]
    exact h.placed m hm

/-- Without hidden leaves there are no faults where there were none. -/
theorem Declaration.checkStructure_pruneAll (least : Access) (hds : checkStructure ds = .ok ()) :
    checkStructure (pruneAll least ds) = .ok () := by
  rw [checkStructure_eq_ok_iff] at hds ⊢
  refine ⟨fun x hx => ?_, everywhere_pruneAll (fun d hd => hd.prune least) hds.2⟩
  obtain ⟨d, hd, -, rfl⟩ := mem_pruneAll.1 hx
  rw [prune_kind]
  exact hds.1 d hd

theorem catalogOf_pruneAll (settings : Settings) (ds : List Declaration) :
    catalogOf settings (pruneAll settings.minAccess ds) = catalogOf settings ds := by
  rw [catalogOf, Merge.mergeExtensions_pruneAll, Declaration.visible_pruneAll, catalogOf]

/-- **Hidden leaves do not show in the documents.** Without the functions, variables, type aliases
and cases that have no members and are below the least access level, at the top level and at any
depth, also in extensions, declarations give the same documents. -/
theorem generate_pruneAll (settings : Settings) (time : Option String)
    (hds : checkStructure ds = .ok ()) :
    ∃ docs, Documents.generate settings time ds = .ok docs ∧
      Documents.generate settings time (pruneAll settings.minAccess ds) = .ok docs :=
  Documents.generate_congr time hds (Declaration.checkStructure_pruneAll _ hds)
    (catalogOf_pruneAll settings ds).symm

/-- A private variable in front of a struct, and private members in front of what is nested in the
struct and of what an extension brings to it. -/
def hiddenBetween : List Declaration :=
  [{ Declaration.bare .property "top" [] with access := .privateLevel },
    .bare .structType "Foo"
      [{ Declaration.bare .function "first()" [] with access := .privateLevel },
        .bare .structType "Bar" []],
    .bare .typeExtension "Foo"
      [{ Declaration.bare .property "second" [] with access := .privateLevel },
        .bare .structType "Baz" []],
    .bare .typeExtension "Foo.Bar" [.bare .function "f()" []],
    .bare .typeExtension "Foo.Baz" [.bare .function "g()" []]]

/-- Without them the struct is the first declaration, with its nested structs only. -/
theorem generate_hiddenBetween :
    checkStructure hiddenBetween = .ok () ∧
    pruneAll .publicLevel hiddenBetween =
      [.bare .structType "Foo" [.bare .structType "Bar" []],
        .bare .typeExtension "Foo" [.bare .structType "Baz" []],
        .bare .typeExtension "Foo.Bar" [.bare .function "f()" []],
        .bare .typeExtension "Foo.Baz" [.bare .function "g()" []]] ∧
    ∃ docs, Documents.generate .standard none hiddenBetween = .ok docs ∧
      Documents.generate .standard none
        [.bare .structType "Foo" [.bare .structType "Bar" []],
          .bare .typeExtension "Foo" [.bare .structType "Baz" []],
          .bare .typeExtension "Foo.Bar" [.bare .function "f()" []],
          .bare .typeExtension "Foo.Baz" [.bare .function "g()" []]] = .ok docs := by
  have hds : checkStructure hiddenBetween = .ok () := rfl
  exact ⟨hds, rfl, generate_pruneAll .standard none hds⟩

end ApiPages
