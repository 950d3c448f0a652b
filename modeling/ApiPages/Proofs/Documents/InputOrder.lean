import ApiPages.Proofs.Catalog.Distinct
import ApiPages.Proofs.Declaration.Placement
import ApiPages.Proofs.Documents.DocumentSet
import ApiPages.Proofs.Merge.InputOrder

/-!
# The order of declarations

The documents are the same in whichever order the declarations come, as long as extensions stay in
their order among themselves: the catalog orders by name what a merge gives, and where the
declarations that are no extensions have their own pages and their own type names, a merge gives the
same declarations (`generate_rearranged`).
-/

namespace ApiPages

open Merge (Rearranged NamesApart mergeExtensions)

variable {ds ds' : List Declaration}

/-! ## Pages after a merge -/

/-- Extensions get no page of something else. -/
theorem Declaration.isExtension_eq_of_samePage {d e : Declaration} (h : d.SamePage e) :
    d.isExtension = e.isExtension := by
  obtain ⟨c, hd, he, -⟩ := h
  rw [isExtension, isExtension, Category.ofKind?_inj hd he]

namespace Catalog

theorem Distinct.of_map_head_eq (hds : Distinct ds)
    (h : ds'.map Declaration.head = ds.map Declaration.head) : Distinct ds' := by
  -- the page of a declaration is given by its head
  have hheads : ∀ xs, Distinct xs ↔ (xs.map Declaration.head).Pairwise fun g h =>
      ¬ ∃ c, Category.ofKind? g.kind = some c ∧ Category.ofKind? h.kind = some c ∧
        g.name = h.name := by
    intro xs
    rw [List.pairwise_map]
    rfl
  rw [hheads, h, ← hheads]
  exact hds

/-- Extensions that are kept have pages of their own. -/
theorem distinct_external (ds : List Declaration) : Distinct (Merge.run ds).external := by
  have hnodup : ((Merge.run ds).external.map (·.name)).Nodup := by
    rw [(Merge.accounted_run ds).external]
    exact Merge.nodup_keepAll _
  refine (List.pairwise_map.1 hnodup).imp ?_
  rintro d e hne ⟨-, -, -, hname⟩
  exact hne hname

/-- What is no extension keeps its page in a merge, and extensions that are kept have pages of their
own. -/
theorem Distinct.mergeExtensions (h : Distinct (ds.filter fun d => !d.isExtension)) :
    Distinct (mergeExtensions ds) := by
  have hbase := h.of_map_head_eq (Merge.map_head_base ds)
  refine List.pairwise_append.2 ⟨hbase, distinct_external ds, ?_⟩
  intro d hd e he hsame
  have hkind := Declaration.isExtension_eq_of_samePage hsame
  rw [Merge.isExtension_of_mem_base hd, Merge.isExtension_of_mem_external he] at hkind
  cases hkind

end Catalog

/-! ## Documents -/

/-- Faults do not depend on the order. -/
theorem Declaration.checkStructure_of_perm (h : ds.Perm ds') (hds : checkStructure ds = .ok ()) :
    checkStructure ds' = .ok () := by
  rw [checkStructure_eq_ok_iff, everywhere_iff_forall] at hds ⊢
  exact ⟨fun d hd => hds.1 d (h.mem_iff.2 hd), fun d hd => hds.2 d (h.mem_iff.2 hd)⟩

theorem Merge.Rearranged.catalogOf_eq (h : Rearranged ds ds')
    (hpages : Catalog.Distinct (ds.filter fun d => !d.isExtension))
    (hnames : NamesApart (ds.filter fun d => !d.isExtension)) (settings : Settings) :
    catalogOf settings ds = catalogOf settings ds' := by
  have hpages' := hpages.of_perm (h.perm.filter fun d => !d.isExtension)
  refine Catalog.ofList_eq_of_mem_iff (hpages.mergeExtensions.visible _)
    (hpages'.mergeExtensions.visible _) fun d => ?_
  rw [Declaration.mem_visible, Declaration.mem_visible]
  simp only [h.mem_mergeExtensions_iff hnames]

/-- **The order of declarations does not show in the documents.** Declarations that differ in the
order of those that are no extensions, wherever extensions stand between them, give the same
documents, if those that are no extensions have different pages and no type name in common. -/
theorem generate_rearranged (settings : Settings) (time : Option String) (h : Rearranged ds ds')
    (hds : Declaration.checkStructure ds = .ok ())
    (hpages : Catalog.Distinct (ds.filter fun d => !d.isExtension))
    (hnames : NamesApart (ds.filter fun d => !d.isExtension)) :
    ∃ docs, Documents.generate settings time ds = .ok docs ∧
      Documents.generate settings time ds' = .ok docs :=
  Documents.generate_congr time hds (Declaration.checkStructure_of_perm h.perm hds)
    (h.catalogOf_eq hpages hnames settings)

/-- A struct, a class, an extension that brings a nested struct and one of that struct. -/
def typesFirst : List Declaration :=
  [.bare .structType "Foo" [], .bare .classType "Dog" [],
    .bare .typeExtension "Foo" [.bare .structType "Bar" []],
    .bare .typeExtension "Foo.Bar" [.bare .function "f()" []]]

/-- The same declarations, with an extension in front of all types and the struct after all of its
extensions. -/
def extensionsFirst : List Declaration :=
  [.bare .typeExtension "Foo" [.bare .structType "Bar" []], .bare .classType "Dog" [],
    .bare .typeExtension "Foo.Bar" [.bare .function "f()" []], .bare .structType "Foo" []]

/-- Both orders give the same documents. -/
theorem generate_extensionsFirst :
    Rearranged typesFirst extensionsFirst ∧
    Declaration.checkStructure typesFirst = .ok () ∧
    Catalog.Distinct (typesFirst.filter fun d => !d.isExtension) ∧
    NamesApart (typesFirst.filter fun d => !d.isExtension) ∧
    ∃ docs, Documents.generate .standard none typesFirst = .ok docs ∧
      Documents.generate .standard none extensionsFirst = .ok docs := by
  have hrearranged : Rearranged typesFirst extensionsFirst := by
    refine ⟨?_, rfl⟩
    exact (@List.perm_append_comm _ [Declaration.bare .structType "Foo" []] _).trans (.swap ..)
  have hds : Declaration.checkStructure typesFirst = .ok () := rfl
  have hpages : Catalog.Distinct (typesFirst.filter fun d => !d.isExtension) := by
    refine List.pairwise_pair.2 ?_
    rintro ⟨c, hstruct, hclass, -⟩
    cases hstruct
    cases hclass
  have hnames : NamesApart (typesFirst.filter fun d => !d.isExtension) :=
    List.pairwise_pair.2 (List.disjoint_left.2 (by decide +kernel))
  exact ⟨hrearranged, hds, hpages, hnames,
    generate_rearranged .standard none hrearranged hds hpages hnames⟩

end ApiPages
