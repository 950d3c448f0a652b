import ApiPages.Proofs.Documents.PageLookup

/-!
# The lists of the index document

The pages of a category stand together in the index, so its document, which is written page by page,
has one list for each category with declarations: under the heading of the category, one line for
each of its declarations, in the order of their names (`renderReadme_lists`).
-/

namespace ApiPages

variable {x : PageIndex} {settings : Settings} {ds : List Declaration} {c : Category}
  {ps : List Page} {p : Page}

/-- The page of a declaration by its category and its name. -/
def PageIndex.pageIn? (x : PageIndex) (c : Category) (name : String) : Option Page :=
  x.pages.find? fun p => p.identity = (c, name)

/-- The line that the index document has for a category and a name: a link to its page. -/
def readmeLine (x : PageIndex) (c : Category) (name : String) : String :=
  "- [" ++ name ++ "](" ++ (((x.pageIn? c name).map fun p => x.link p readmePath).getD "") ++ ")\n"

/-- The list of a category under its heading; a category without declarations has none. -/
def readmeList (x : PageIndex) (c : Category) (ds : List Declaration) : String :=
  if ds.isEmpty then ""
  else "\n## " ++ c.title ++ "\n\n" ++ String.join (ds.map fun d => readmeLine x c d.name)

/-! ## Pages of one category -/

/-- Pages of the category of the page before them have no heading. -/
theorem pageLines_append_same (h : ∀ p ∈ ps, p.category = c) (x : PageIndex) (rest : List Page) :
    pageLines x (some c) (ps ++ rest) = ps.map (pageLine x) ++ pageLines x (some c) rest := by
  induction ps with
  | nil => rfl
  | cons p ps ih =>
    rw [List.forall_mem_cons] at h
    rw [List.cons_append, pageLines, if_pos (congrArg some h.1.symm), h.1, ih h.2]
    rfl

/-- Pages of another category than the page before them have the heading of theirs. -/
theorem pageLines_append_other {current : Option Category} (hne : ps ≠ [])
    (h : ∀ p ∈ ps, p.category = c) (hc : current ≠ some c) (x : PageIndex) (rest : List Page) :
    pageLines x current (ps ++ rest) =
      c.readmeHeading :: ps.map (pageLine x) ++ pageLines x (some c) rest := by
  obtain ⟨p, ps, rfl⟩ := List.exists_cons_of_ne_nil hne
  rw [List.forall_mem_cons] at h
  rw [List.cons_append, pageLines, h.1, if_neg hc, pageLines_append_same h.2]
  rfl

/-- **Pages that stand together by category are listed by category**, whatever the order of the
categories. -/
theorem pageLines_flatMap {pagesOf : Category → List Page} {cs : List Category}
    {current : Option Category} (hnodup : cs.Nodup) (hne : ∀ c ∈ cs, pagesOf c ≠ [])
    (h : ∀ c, ∀ p ∈ pagesOf c, p.category = c) (hcurrent : ∀ c ∈ cs, current ≠ some c) :
    pageLines x current (cs.flatMap pagesOf) =
      cs.flatMap fun c => c.readmeHeading :: (pagesOf c).map (pageLine x) := by
  induction cs generalizing current with
  | nil => rfl
  | cons c cs ih =>
    rw [List.nodup_cons] at hnodup
    rw [List.forall_mem_cons] at hne hcurrent
    have hnext : ∀ d ∈ cs, some c ≠ some d := by
      rintro d hd heq
      cases heq
      exact hnodup.1 hd
    rw [List.flatMap_cons, List.flatMap_cons, pageLines_append_other hne.1 (h c) hcurrent.1,
      ih hnodup.2 hne.2 hnext]

/-! ## The pages of a catalog -/

namespace PageIndex

theorem map_identity_categoryPages (settings : Settings) (c : Category) (ds : List Declaration) :
    (categoryPages settings c ds).map Page.identity = ds.map fun d => (c, d.name) := by
  have hpages := congrArg (List.map Prod.fst) (categoryPages_identity settings c ds)
  rw [List.map_map, List.map_map] at hpages
  exact hpages

/-- The pages of a catalog stand together by category. -/
theorem pages_eq_flatMap (settings : Settings) (ds : List Declaration) :
    (ofCatalog settings (.ofList ds)).pages =
      (Category.all.filter fun c => (Catalog.ofList ds).group c ≠ []).flatMap
        fun c => categoryPages settings c ((Catalog.ofList ds).group c) := by
  rw [ofCatalog, Catalog.groups_ofList, List.flatMap_map]

/-- A page is the one of its category and its name. -/
theorem pageIn?_of_mem (h : (x.pages.map Page.identity).Nodup) (hp : p ∈ x.pages) :
    x.pageIn? p.category p.name = some p := by
  obtain ⟨q, hq⟩ : ∃ q, x.pageIn? p.category p.name = some q := by
    rw [← Option.isSome_iff_exists, pageIn?, List.find?_isSome]
    exact ⟨p, hp, by simp [Page.identity]⟩
  have hidentity : q.identity = (p.category, p.name) := by simpa using List.find?_some hq
  rw [hq, List.inj_on_of_nodup_map h (List.mem_of_find?_eq_some hq) hp hidentity]

theorem pageLine_eq (h : (x.pages.map Page.identity).Nodup) (hp : p ∈ x.pages) :
    pageLine x p = readmeLine x p.category p.name := by
  rw [pageLine, readmeLine, pageIn?_of_mem h hp]
  rfl

/-- The lines of pages depend on their categories and names only. -/
theorem map_pageLine (h : (x.pages.map Page.identity).Nodup) (hps : ∀ p ∈ ps, p ∈ x.pages) :
    ps.map (pageLine x) = (ps.map Page.identity).map fun i => readmeLine x i.1 i.2 := by
  rw [List.map_map]
  exact List.map_congr_left fun p hp => pageLine_eq h (hps p hp)

end PageIndex

/-! ## The document -/

theorem readmeHeading_eq (c : Category) : c.readmeHeading = "\n## " ++ c.title ++ "\n\n" := by
  simp [Category.readmeHeading, Heading.line, Heading.text, ← String.toList_inj]

/-- Headings and lines of the categories that have declarations are the lists of all categories. -/
theorem join_readmeLists (x : PageIndex) (groups : Category → List Declaration)
    (cs : List Category) :
    String.join ((cs.filter fun c => groups c ≠ []).flatMap fun c =>
        c.readmeHeading :: (groups c).map fun d => readmeLine x c d.name) =
      String.join (cs.map fun c => readmeList x c (groups c)) := by
  induction cs with
  | nil => rfl
  | cons c cs ih =>
    rw [List.map_cons, String.join_cons, ← ih, readmeList]
    by_cases hc : groups c = []
    · rw [List.filter_cons_of_neg (by simpa using hc), hc]
      simp
    · rw [List.filter_cons_of_pos (by simpa using hc), List.flatMap_cons, String.join_append,
        String.join_cons, readmeHeading_eq, if_neg (by simpa using hc)]

/-- The lines of an index document are those of the declarations of each category, under their
headings. -/
theorem pageLines_ofCatalog (settings : Settings) (ds : List Declaration) :
    pageLines (.ofCatalog settings (.ofList ds)) none
        (PageIndex.ofCatalog settings (.ofList ds)).pages =
      (Category.all.filter fun c => (Catalog.ofList ds).group c ≠ []).flatMap fun c =>
        c.readmeHeading :: ((Catalog.ofList ds).group c).map fun d =>
          readmeLine (.ofCatalog settings (.ofList ds)) c d.name := by
  have hnodup := PageIndex.nodup_identities (PageIndex.pairwise_pages settings ds)
  have hpages := PageIndex.pages_eq_flatMap settings ds
  generalize hx : PageIndex.ofCatalog settings (.ofList ds) = x at *
  rw [hpages, pageLines_flatMap]
  · refine List.flatMap_congr fun c hc => congrArg _ ?_
    have hmem : ∀ p ∈ PageIndex.categoryPages settings c ((Catalog.ofList ds).group c),
        p ∈ x.pages := by
      intro p hp
      rw [hpages]
      exact List.mem_flatMap.2 ⟨c, hc, hp⟩
    rw [PageIndex.map_pageLine hnodup hmem, PageIndex.map_identity_categoryPages, List.map_map]
    rfl
  · exact List.Nodup.filter _ (by decide)
  · intro c hc hempty
    have hidentity := PageIndex.map_identity_categoryPages settings c ((Catalog.ofList ds).group c)
    rw [hempty] at hidentity
    have hgroup : (Catalog.ofList ds).group c = [] := List.map_eq_nil_iff.1 hidentity.symm
    simp [hgroup] at hc
  · exact fun c p hp => PageIndex.category_of_mem_categoryPages hp
  · simp

/-- **The index document lists every page once, under its own category.** Behind the title it has
nothing but a list for each category with declarations, in a fixed order of categories, with one
line for each declaration, in the order of the bytes of their names; the line links to the page of
that category and name, and those are all pages that there are. -/
theorem renderReadme_lists (settings : Settings) (ds : List Declaration) :
    Category.all.map Category.title = ["Classes", "Structs", "Enums", "Protocols", "Extensions",
      "Type Aliases", "Methods", "Global Variables"] ∧
    (∀ c, ((Catalog.ofList ds).group c).Pairwise fun d e => Text.bytes d.name < Text.bytes e.name) ∧
    (PageIndex.ofCatalog settings (.ofList ds)).pages.map Page.identity =
      (Catalog.ofList ds).entries.map (fun e => (e.1, e.2.name)) ∧
    (∀ c, ∀ d ∈ (Catalog.ofList ds).group c,
      ∃ p ∈ (PageIndex.ofCatalog settings (.ofList ds)).pages,
        (PageIndex.ofCatalog settings (.ofList ds)).pageIn? c d.name = some p ∧
        p.path = pagePath c d.name settings.collapse ∧
        ∀ q ∈ (PageIndex.ofCatalog settings (.ofList ds)).pages,
          q.identity = (c, d.name) ↔ q = p) ∧
    renderReadme (.ofCatalog settings (.ofList ds)) settings =
      "# " ++ settings.title ++ "\n" ++ String.join (Category.all.map fun c =>
        readmeList (.ofCatalog settings (.ofList ds)) c ((Catalog.ofList ds).group c)) := by
  have hnodup := PageIndex.nodup_identities (PageIndex.pairwise_pages settings ds)
  refine ⟨by decide, fun c => (Catalog.ordered_group ds c).bytes, PageIndex.map_identity settings _,
    fun c d hd => ?_, ?_⟩
  · obtain ⟨p, hp, hidentity, hpath⟩ := PageIndex.exists_mem_pages_iff.2
      ⟨⟨d, hd, rfl⟩, (rfl : pagePath c d.name settings.collapse = _)⟩
    have hfound := PageIndex.pageIn?_of_mem hnodup hp
    have honly : ∀ q ∈ (PageIndex.ofCatalog settings (.ofList ds)).pages,
        q.identity = (c, d.name) ↔ q = p := by
      intro q hq
      rw [← hidentity]
      exact ⟨List.inj_on_of_nodup_map hnodup hq hp, fun h => congrArg _ h⟩
    obtain ⟨rfl, hname⟩ := Prod.mk.inj hidentity
    exact ⟨p, hp, hname ▸ hfound, hpath, honly⟩
  · have htitle : Heading.line ⟨1, settings.title, false⟩ = "# " ++ settings.title := by
      simp [Heading.line, Heading.text]
    rw [renderReadme, String.join_cons, String.join_cons, htitle, pageLines_ofCatalog,
      join_readmeLists, String.append_assoc, String.append_assoc, String.append_assoc]

/-- Two protocols that share a document, in the order of their names, behind a class. -/
theorem renderReadme_protocols :
    Declaration.bare .protocolType "Pet" [] ∈
      (Catalog.ofList [.bare .protocolType "Pet" [], .bare .classType "Person" [],
        .bare .protocolType "Animal" []]).group .protocols ∧
    (∃ p, (PageIndex.ofCatalog { Settings.standard with collapse := true }
        (.ofList [.bare .protocolType "Pet" [], .bare .classType "Person" [],
          .bare .protocolType "Animal" []])).pageIn? .protocols "Pet" = some p ∧
      p.path = "protocols.md") ∧
    renderReadme (.ofCatalog { Settings.standard with collapse := true }
        (.ofList [.bare .protocolType "Pet" [], .bare .classType "Person" [],
          .bare .protocolType "Animal" []])) { Settings.standard with collapse := true } =
      "# Reference Documentation\n\n## Classes\n\n- [Person](classes.md#person)\n\n" ++
        "## Protocols\n\n- [Animal](protocols.md#animal)\n- [Pet](protocols.md#pet)\n" := by
  obtain ⟨-, -, -, hpages, hdocument⟩ :=
    renderReadme_lists { Settings.standard with collapse := true }
      [.bare .protocolType "Pet" [], .bare .classType "Person" [], .bare .protocolType "Animal" []]
  have hmem : Declaration.bare .protocolType "Pet" [] ∈
      (Catalog.ofList [.bare .protocolType "Pet" [], .bare .classType "Person" [],
        .bare .protocolType "Animal" []]).group .protocols :=
    .tail _ (.head _)
  obtain ⟨p, -, hp, hpath, -⟩ := hpages .protocols _ hmem
  exact ⟨hmem, ⟨p, hp, hpath⟩, by rw [hdocument]; decide +kernel⟩

end ApiPages
