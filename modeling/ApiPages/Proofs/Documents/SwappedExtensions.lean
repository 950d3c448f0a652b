import ApiPages.Proofs.Catalog.Rivals
import ApiPages.Proofs.Documents.InputOrder
import ApiPages.Proofs.Merge.Completeness
import ApiPages.Proofs.Merge.Swapped

/-!
# Swapped extensions

Two extensions that stand side by side may be swapped if they extend different types and bring no
types themselves: a merge makes the same of the other declarations and keeps the same extensions, in
another order perhaps, which does not show in the documents (`swap_extensions`).
-/

namespace ApiPages

open Merge (BringsNoTypes mergeExtensions run)

variable {ds ds' : List Declaration} {e₁ e₂ : Declaration}

/-- The catalog does not depend on the order of the extensions kept. -/
theorem Merge.Agrees.catalogOf_eq (h : Merge.Agrees (run ds) (run ds')) (settings : Settings) :
    catalogOf settings ds = catalogOf settings ds' := by
  have hexternal : (Declaration.visible settings.minAccess (run ds).external).Perm
      (Declaration.visible settings.minAccess (run ds').external) := by
    rw [Declaration.visible_eq_filterMap, Declaration.visible_eq_filterMap]
    exact h.external.filterMap _
  rw [catalogOf, catalogOf, mergeExtensions, mergeExtensions, Declaration.visible_append,
    Declaration.visible_append, h.base]
  exact Catalog.ofList_append_of_perm ((Catalog.distinct_external ds).visible _) hexternal _

/-- **Swapped extensions do not show.** Two extensions of different names, side by side among other
declarations and without types among their members, can be swapped: the declarations that are no
extensions come out of a merge the same, the extensions kept are the same in some order, and if
there is no fault the documents are the same. -/
theorem swap_extensions (before after : List Declaration) (h₁ : e₁.isExtension = true)
    (h₂ : e₂.isExtension = true) (hname : e₁.name ≠ e₂.name) (he₁ : BringsNoTypes e₁)
    (he₂ : BringsNoTypes e₂) :
    (mergeExtensions (before ++ [e₁, e₂] ++ after)).filter (fun d => !d.isExtension) =
      (mergeExtensions (before ++ [e₂, e₁] ++ after)).filter (fun d => !d.isExtension) ∧
    ((mergeExtensions (before ++ [e₁, e₂] ++ after)).filter Declaration.isExtension).Perm
      ((mergeExtensions (before ++ [e₂, e₁] ++ after)).filter Declaration.isExtension) ∧
    ∀ settings time, Declaration.checkStructure (before ++ [e₁, e₂] ++ after) = .ok () →
      Declaration.checkStructure (before ++ [e₂, e₁] ++ after) = .ok () ∧
      ∃ docs, Documents.generate settings time (before ++ [e₁, e₂] ++ after) = .ok docs ∧
        Documents.generate settings time (before ++ [e₂, e₁] ++ after) = .ok docs := by
  have hagrees := Merge.agrees_run_swap before after h₁ h₂ hname he₁ he₂
  have hperm : (before ++ [e₁, e₂] ++ after).Perm (before ++ [e₂, e₁] ++ after) :=
    ((List.Perm.swap e₂ e₁ []).append_left before).append_right after
  refine ⟨?_, ?_, fun settings time hds => ?_⟩
  · rw [Merge.filter_mergeExtensions, Merge.filter_mergeExtensions, hagrees.base]
  · rw [← Merge.extensions, ← Merge.extensions, Merge.extensions_mergeExtensions,
      Merge.extensions_mergeExtensions]
    exact hagrees.external
  · have hds' := Declaration.checkStructure_of_perm hperm hds
    exact ⟨hds', Documents.generate_congr time hds hds' (hagrees.catalogOf_eq settings)⟩

/-- A struct and an extension that brings another struct into it. -/
def broughtStruct : List Declaration :=
  [.bare .structType "Foo" [], .bare .typeExtension "Foo" [.bare .structType "Bar" []]]

/-- An extension of the outer struct. -/
def extendsOuter : Declaration :=
  .bare .typeExtension "Foo" [.bare .function "f()" []]

/-- An extension of the inner one. -/
def extendsInner : Declaration :=
  .bare .typeExtension "Foo.Bar" [.bare .function "g()" []]

/-- The places where these two are folded are one below the other. -/
theorem swap_outer_inner :
    extendsOuter.isExtension = true ∧ extendsInner.isExtension = true ∧
    extendsOuter.name ≠ extendsInner.name ∧
    BringsNoTypes extendsOuter ∧ BringsNoTypes extendsInner ∧
    (mergeExtensions (broughtStruct ++ [extendsInner, extendsOuter] ++ [])).filter
        (fun d => !d.isExtension) =
      [.bare .structType "Foo"
        [.bare .structType "Bar" [.bare .function "g()" []], .bare .function "f()" []]] ∧
    Declaration.checkStructure (broughtStruct ++ [extendsOuter, extendsInner] ++ []) = .ok () ∧
    ∃ docs,
      Documents.generate .standard none (broughtStruct ++ [extendsOuter, extendsInner] ++ []) =
        .ok docs ∧
      Documents.generate .standard none (broughtStruct ++ [extendsInner, extendsOuter] ++ []) =
        .ok docs := by
  have houter : extendsOuter.isExtension = true := rfl
  have hinner : extendsInner.isExtension = true := rfl
  have hname : extendsOuter.name ≠ extendsInner.name := by decide
  have houterTypes : BringsNoTypes extendsOuter := List.forall_mem_singleton.2 rfl
  have hinnerTypes : BringsNoTypes extendsInner := List.forall_mem_singleton.2 rfl
  have hds : Declaration.checkStructure (broughtStruct ++ [extendsOuter, extendsInner] ++ []) =
      .ok () := rfl
  obtain ⟨hbase, -, hdocs⟩ :=
    swap_extensions broughtStruct [] houter hinner hname houterTypes hinnerTypes
  refine ⟨houter, hinner, hname, houterTypes, hinnerTypes, ?_, hds, (hdocs .standard none hds).2⟩
  rw [← hbase]
  rfl

end ApiPages
