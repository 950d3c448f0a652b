import ApiPages.Proofs.Catalog.Distinct
import ApiPages.Proofs.Documents.Pages

/-!
# Lower access levels

A least access level that admits more keeps every page, and so every document. Where the merged
declarations would all get different pages, it also keeps what a page is about: the wider page
describes a declaration of which the narrower page describes the visible part.
-/

namespace ApiPages

open Merge (mergeExtensions)
open Declaration (visible?)

variable {ds : List Declaration} {a b : Access} {c : Category} {n : String} {settings : Settings}

/-- What is visible at a level is, with more members perhaps, visible at a wider one. -/
theorem Declaration.visible?_widens (hab : b.rank ≤ a.rank) {d d' : Declaration}
    (h : visible? a d = some d') :
    ∃ e, visible? b d = some e ∧ visible? a e = some d' ∧ e.head = d'.head := by
  rw [← visible?_of_wider hab, Option.bind_eq_some_iff] at h
  obtain ⟨e, he, hd'⟩ := h
  exact ⟨e, he, hd', (head_of_visible? hd').symm⟩

/-- A category has a declaration of a name at the wider level where it has one at the narrower. -/
theorem Catalog.exists_mem_group_widens (hab : b.rank ≤ a.rank)
    (h : ∃ d ∈ (ofList (Declaration.visible a ds)).group c, d.name = n) :
    ∃ d ∈ (ofList (Declaration.visible b ds)).group c, d.name = n := by
  rw [exists_mem_group_iff] at h ⊢
  obtain ⟨d, hd, hc, hname⟩ := h
  obtain ⟨m, hm, hvis⟩ := Declaration.mem_visible.1 hd
  obtain ⟨e, he, -, hhead⟩ := Declaration.visible?_widens hab hvis
  refine ⟨e, Declaration.mem_visible.2 ⟨m, hm, he⟩, ?_, ?_⟩
  · rw [Declaration.kind_eq_of_head hhead, hc]
  · rw [Declaration.name_eq_of_head hhead, hname]

/-- A page of distinct declarations describes at the narrower level what that level leaves of the
declaration that the page describes at the wider one. -/
theorem Catalog.declaration?_widens (hab : b.rank ≤ a.rank) (hds : Distinct ds) {d : Declaration}
    (h : (ofList (Declaration.visible a ds)).declaration? c n = some d) :
    ∃ e, (ofList (Declaration.visible b ds)).declaration? c n = some e ∧
      visible? a e = some d := by
  obtain ⟨hd, hname⟩ := declaration?_eq_some_iff.1 h
  obtain ⟨hmem, hc⟩ := (mem_group_iff (hds.visible a)).1 hd
  obtain ⟨m, hm, hvis⟩ := Declaration.mem_visible.1 hmem
  obtain ⟨e, he, hed, hhead⟩ := Declaration.visible?_widens hab hvis
  refine ⟨e, declaration?_eq_some_iff.2 ⟨(mem_group_iff (hds.visible b)).2 ⟨?_, ?_⟩, ?_⟩, hed⟩
  · exact Declaration.mem_visible.2 ⟨m, hm, he⟩
  · rw [Declaration.kind_eq_of_head hhead, hc]
  · rw [Declaration.name_eq_of_head hhead, hname]

/-- Every page is, in the same place, a page at the wider level. -/
theorem exists_page_widens (settings : Settings) (hab : b.rank ≤ a.rank) {p : Page}
    (hp : p ∈ (indexOf { settings with minAccess := a } ds).pages) :
    ∃ q ∈ (indexOf { settings with minAccess := b } ds).pages,
      q.identity = p.identity ∧ q.path = p.path := by
  obtain ⟨hd, hpath⟩ := exists_page_iff.1 ⟨p, hp, rfl, rfl⟩
  exact exists_page_iff.2 ⟨Catalog.exists_mem_group_widens hab hd, hpath⟩

/-- **A wider access level only adds.** Its documents are at all paths that those of the narrower
level are at, its pages are among others those of the narrower level, and where the merged
declarations are distinct the narrower level shows on each of its pages what it leaves of the
declaration that the wider level shows there. -/
theorem generate_widens (settings : Settings) (time : Option String) (hab : b.rank ≤ a.rank)
    (hds : Declaration.checkStructure ds = .ok ()) :
    ∃ narrow wide,
      Documents.generate { settings with minAccess := a } time ds = .ok narrow ∧
      Documents.generate { settings with minAccess := b } time ds = .ok wide ∧
      (∀ path ∈ narrow.paths, path ∈ wide.paths) ∧
      (Catalog.Distinct (mergeExtensions ds) →
        ∀ p ∈ (indexOf { settings with minAccess := a } ds).pages,
          ∃ q ∈ (indexOf { settings with minAccess := b } ds).pages, q.identity = p.identity ∧
            ∃ d e,
              (catalogOf { settings with minAccess := a } ds).declaration? p.category p.name =
                some d ∧
              (catalogOf { settings with minAccess := b } ds).declaration? p.category p.name =
                some e ∧
              visible? a e = some d) := by
  obtain ⟨narrow, hnarrow, hpaths⟩ :=
    Documents.generate_paths { settings with minAccess := a } time hds
  obtain ⟨wide, hwide, hwidePaths⟩ :=
    Documents.generate_paths { settings with minAccess := b } time hds
  refine ⟨narrow, wide, hnarrow, hwide, ?_, ?_⟩
  · intro path hpath
    rcases (hpaths path).1 hpath with rfl | ⟨p, hp, rfl⟩
    · exact (hwidePaths _).2 (.inl rfl)
    · obtain ⟨q, hq, -, hqpath⟩ := exists_page_widens settings hab hp
      exact (hwidePaths _).2 (.inr ⟨q, hq, hqpath⟩)
  · intro hdistinct p hp
    obtain ⟨q, hq, hidentity, -⟩ := exists_page_widens settings hab hp
    obtain ⟨⟨d, hd, hname⟩, -⟩ := exists_page_iff.1 ⟨p, hp, rfl, rfl⟩
    have hshown : (catalogOf { settings with minAccess := a } ds).declaration? p.category p.name =
        some d := Catalog.declaration?_eq_some_iff.2 ⟨hd, hname⟩
    obtain ⟨e, he, hed⟩ := Catalog.declaration?_widens hab hdistinct hshown
    exact ⟨q, hq, hidentity, d, e, hshown, he, hed⟩

/-- A struct with a public and an internal method, and an extension with an internal one. -/
def mixedLevels : List Declaration :=
  [.bare .structType "Foo"
      [.bare .function "a()" [],
        { Declaration.bare .function "b()" [] with access := .internalLevel }],
    .bare .typeExtension "Array"
      [{ Declaration.bare .function "c()" [] with access := .internalLevel }]]

/-- The internal level adds a method to the page of the struct and the page of the extension. -/
theorem mixedLevels_widen :
    Access.internalLevel.rank ≤ Access.publicLevel.rank ∧
    Declaration.checkStructure mixedLevels = .ok () ∧
    Catalog.Distinct (mergeExtensions mixedLevels) ∧
    ∃ narrow wide,
      Documents.generate .standard none mixedLevels = .ok narrow ∧
      Documents.generate { Settings.standard with minAccess := .internalLevel } none mixedLevels =
        .ok wide ∧
      (∀ path ∈ narrow.paths, path ∈ wide.paths) ∧
      ∃ d e,
        (catalogOf .standard mixedLevels).declaration? .structs "Foo" = some d ∧
        (catalogOf { Settings.standard with minAccess := .internalLevel }
          mixedLevels).declaration? .structs "Foo" = some e ∧
        visible? .publicLevel e = some d := by
  have hrank : Access.internalLevel.rank ≤ Access.publicLevel.rank := by decide
  have hds : Declaration.checkStructure mixedLevels = .ok () := rfl
  have hdistinct : Catalog.Distinct (mergeExtensions mixedLevels) := by
    refine List.pairwise_pair.2 ?_
    rintro ⟨c, hstruct, hextension, -⟩
    cases hstruct
    cases hextension
  obtain ⟨narrow, wide, hnarrow, hwide, hpaths, hpages⟩ :=
    generate_widens .standard none hrank hds
  have hpage : (⟨"Foo", .structs, "structs/Foo.md", none⟩ : Page) ∈
      (indexOf { Settings.standard with minAccess := .publicLevel } mixedLevels).pages := by
    decide +kernel
  obtain ⟨-, -, -, d, e, hd, he, hed⟩ := hpages hdistinct _ hpage
  exact ⟨hrank, hds, hdistinct, narrow, wide, hnarrow, hwide, hpaths, d, e, hd, he, hed⟩

end ApiPages
