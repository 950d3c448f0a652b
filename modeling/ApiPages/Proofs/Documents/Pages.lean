import ApiPages.Proofs.Documents.DocumentSet

/-!
# Pages and documents

The index has one page for each declaration of the catalog, known by its category and its name, and
every page is in a document: besides the index there are no others (`generate_paths`).
-/

namespace ApiPages

variable {settings : Settings} {ds : List Declaration}

/-- What a page is known by. -/
def Page.identity (p : Page) : Category × String :=
  (p.category, p.name)

namespace PageIndex

theorem collapsedPages_identity (settings : Settings) (c : Category) (a : Anchors)
    (es : List Declaration) :
    (collapsedPages settings c a es).map (fun p => (p.identity, p.path)) =
      es.map fun d => ((c, d.name), pagePath c d.name true) := by
  induction es generalizing a with
  | nil => rfl
  | cons d es ih =>
    rw [collapsedPages, List.map_cons, ih, List.map_cons]
    rfl

theorem categoryPages_identity (settings : Settings) (c : Category) (es : List Declaration) :
    (categoryPages settings c es).map (fun p => (p.identity, p.path)) =
      es.map fun d => ((c, d.name), pagePath c d.name settings.collapse) := by
  unfold categoryPages
  cases hcollapse : settings.collapse with
  | true => exact collapsedPages_identity settings c .empty es
  | false => simp [Page.identity]

theorem category_of_mem_categoryPages {c : Category} {p : Page} {es : List Declaration}
    (h : p ∈ categoryPages settings c es) : p.category = c := by
  have hmem := List.mem_map_of_mem (f := fun p => (p.identity, p.path)) h
  rw [categoryPages_identity, List.mem_map] at hmem
  obtain ⟨d, -, hd⟩ := hmem
  exact (congrArg (·.1.1) hd).symm

/-- The pages of a catalog are those of its entries, in their order. -/
theorem pages_identity (settings : Settings) (k : Catalog) :
    (ofCatalog settings k).pages.map (fun p => (p.identity, p.path)) =
      k.entries.map fun e => ((e.1, e.2.name), pagePath e.1 e.2.name settings.collapse) := by
  simp only [ofCatalog, Catalog.entries, List.map_flatMap, categoryPages_identity, List.map_map]
  rfl

/-- A page stands for the declaration of its category and name. -/
theorem exists_mem_pages_iff {c : Category} {n path : String} :
    (∃ p ∈ (ofCatalog settings (.ofList ds)).pages, p.identity = (c, n) ∧ p.path = path) ↔
      (∃ d ∈ (Catalog.ofList ds).group c, d.name = n) ∧
        path = pagePath c n settings.collapse := by
  have hpages := pages_identity settings (.ofList ds)
  have hmem : ((c, n), path) ∈
      (ofCatalog settings (.ofList ds)).pages.map (fun p => (p.identity, p.path)) ↔
      ((c, n), path) ∈ (Catalog.ofList ds).entries.map fun e =>
        ((e.1, e.2.name), pagePath e.1 e.2.name settings.collapse) := by
    rw [hpages]
  simp only [List.mem_map, Prod.mk.injEq] at hmem
  rw [hmem]
  constructor
  · rintro ⟨⟨c', d⟩, hd, ⟨rfl, rfl⟩, rfl⟩
    exact ⟨⟨d, Catalog.mem_entries.1 hd, rfl⟩, rfl⟩
  · rintro ⟨⟨d, hd, rfl⟩, rfl⟩
    exact ⟨(c, d), Catalog.mem_entries.2 hd, ⟨rfl, rfl⟩, rfl⟩

end PageIndex

theorem exists_page_iff {c : Category} {n path : String} :
    (∃ p ∈ (indexOf settings ds).pages, p.identity = (c, n) ∧ p.path = path) ↔
      (∃ d ∈ (catalogOf settings ds).group c, d.name = n) ∧
        path = pagePath c n settings.collapse :=
  PageIndex.exists_mem_pages_iff

/-- The path of a page is that of its category and name. -/
theorem path_of_mem_pages {p : Page} (h : p ∈ (indexOf settings ds).pages) :
    p.path = pagePath p.category p.name settings.collapse :=
  (exists_page_iff.1 ⟨p, h, rfl, rfl⟩).2

/-- A category or, without collapsing, a declaration has a document where it has pages. -/
theorem mem_pageDocuments_iff {path : String} :
    path ∈ (pageDocuments settings (catalogOf settings ds) (indexOf settings ds)).map (·.1) ↔
      ∃ p ∈ (indexOf settings ds).pages, p.path = path := by
  cases hcollapse : settings.collapse with
  | false =>
    rw [indexOf, pageDocuments_of_separate hcollapse, PageIndex.pages_ofCatalog hcollapse]
    simp
  | true =>
    rw [pageDocuments_of_collapse hcollapse, List.map_map, List.mem_map]
    constructor
    · rintro ⟨g, hg, rfl⟩
      obtain ⟨heq, hne⟩ := Catalog.mem_groups.1 hg
      obtain ⟨d, hd⟩ := List.exists_mem_of_ne_nil _ hne
      obtain ⟨p, hp, -, hpath⟩ := exists_page_iff.2
        ⟨⟨d, heq ▸ hd, rfl⟩, (rfl : pagePath g.1 d.name settings.collapse = _)⟩
      refine ⟨p, hp, hpath.trans ?_⟩
      rw [hcollapse]
      rfl
    · rintro ⟨p, hp, rfl⟩
      obtain ⟨⟨d, hd, -⟩, hpath⟩ := exists_page_iff.1 ⟨p, hp, rfl, rfl⟩
      refine ⟨(p.category, _), Catalog.mem_groups.2 ⟨rfl, List.ne_nil_of_mem hd⟩, ?_⟩
      rw [hpath, hcollapse]
      rfl

namespace Documents

theorem paths_stamp (docs : Documents) (time : Option String) :
    (docs.stamp time).paths = docs.paths := by
  cases time with
  | none => rfl
  | some t => simp [stamp, paths]

/-- **The documents are the index and those that pages are in**, also with a time written in
them. -/
theorem generate_paths (settings : Settings) (time : Option String)
    (hds : Declaration.checkStructure ds = .ok ()) :
    ∃ docs, generate settings time ds = .ok docs ∧
      ∀ path, path ∈ docs.paths ↔
        path = readmePath ∨ ∃ p ∈ (indexOf settings ds).pages, p.path = path := by
  refine ⟨_, generate_eq_stamp time hds, fun path => ?_⟩
  rw [paths_stamp, (paths_perm_cons settings ds).mem_iff, List.mem_cons, mem_pageDocuments_iff]

end Documents

end ApiPages
