import ApiPages.Proofs.Declaration.Nodes
import ApiPages.Proofs.Documents.Ordered

/-!
# Which documents there are

Declarations without a fault give the index and, beside it, one document for each entry of the
catalog or, with pages collapsed, one for each category that has declarations. No document takes the
place of another one, so they can be put in in any order.
-/

namespace ApiPages

variable {settings : Settings} {ds : List Declaration} {docs : Documents}

/-- The index of the pages of some declarations. -/
def indexOf (settings : Settings) (ds : List Declaration) : PageIndex :=
  .ofCatalog settings (catalogOf settings ds)

/-- Whether documents are the index and one document for each declaration of the catalog. -/
structure OneForEachPage (settings : Settings) (ds : List Declaration) (docs : Documents) :
    Prop where
  paths : docs.paths.Perm
    (readmePath :: (catalogOf settings ds).entries.map fun e => pagePath e.1 e.2.name false)
  distinct : docs.paths.Nodup
  count : docs.paths.length = (catalogOf settings ds).size + 1
  /-- A declaration is found at the path that its category and its name give. -/
  page : ∀ c, ∀ d ∈ (catalogOf settings ds).group c,
    docs.get? (pagePath c d.name false) =
      some (renderPage (indexOf settings ds) settings (pagePath c d.name false) d)
  /-- No other declaration has the path. -/
  only : ∀ c, ∀ d ∈ (catalogOf settings ds).group c, ∀ c', ∀ d' ∈ (catalogOf settings ds).group c',
    pagePath c d.name false = pagePath c' d'.name false → c = c' ∧ d = d'

/-- Whether documents are the index and one document for each category with declarations. -/
structure OneForEachCategory (settings : Settings) (ds : List Declaration) (docs : Documents) :
    Prop where
  paths : docs.paths.Perm (readmePath :: (catalogOf settings ds).groups.map fun g => g.1.path)
  distinct : docs.paths.Nodup
  categories : ∀ c : Category, c.path ∈ docs.paths ↔ (catalogOf settings ds).group c ≠ []
  document : ∀ c, (catalogOf settings ds).group c ≠ [] →
    docs.get? c.path =
      some (renderCollapsed (indexOf settings ds) settings c.path ((catalogOf settings ds).group c))
  /-- The declarations of a document are ordered by name. -/
  order : ∀ c, Text.Ordered (·.name) ((catalogOf settings ds).group c)

namespace Documents

/-- All documents of declarations, with their paths. -/
def allOf (settings : Settings) (ds : List Declaration) : List (String × String) :=
  pageDocuments settings (catalogOf settings ds) (indexOf settings ds) ++
    [(readmePath, renderReadme (indexOf settings ds) settings)]

/-- No document is at the path of the index. -/
theorem readmePath_not_mem (settings : Settings) (ds : List Declaration) :
    readmePath ∉ (pageDocuments settings (catalogOf settings ds) (indexOf settings ds)).map
      (·.1) := by
  intro h
  obtain ⟨e, he, hpath⟩ := List.mem_map.1 h
  cases hcollapse : settings.collapse with
  | false =>
    rw [indexOf, pageDocuments_of_separate hcollapse] at he
    obtain ⟨entry, -, rfl⟩ := List.mem_map.1 he
    exact pagePath_ne_readmePath _ _ hpath
  | true =>
    rw [pageDocuments_of_collapse hcollapse] at he
    obtain ⟨g, -, rfl⟩ := List.mem_map.1 he
    exact g.1.path_ne_readmePath hpath

theorem nodup_allOf (settings : Settings) (ds : List Declaration) :
    ((allOf settings ds).map (·.1)).Nodup := by
  rw [allOf, List.map_append, List.map_singleton, List.nodup_append_comm, List.singleton_append,
    List.nodup_cons]
  exact ⟨readmePath_not_mem settings ds, nodup_pageDocuments settings ds⟩

/-- Declarations without a fault give their documents, stamped with the time if there is one. -/
theorem generate_eq_stamp (time : Option String) (hds : Declaration.checkStructure ds = .ok ()) :
    generate settings time ds = .ok ((ofList (allOf settings ds)).stamp time) := by
  rw [generate, hds, allOf, ofList_append_singleton]
  rfl

theorem generate_eq (hds : Declaration.checkStructure ds = .ok ()) :
    generate settings none ds = .ok (ofList (allOf settings ds)) :=
  generate_eq_stamp none hds

/-- Declarations are written by what is in the catalog: others with the same catalog give the same
documents. -/
theorem generate_congr {es : List Declaration} (time : Option String)
    (hds : Declaration.checkStructure ds = .ok ()) (hes : Declaration.checkStructure es = .ok ())
    (h : catalogOf settings ds = catalogOf settings es) :
    ∃ docs, generate settings time ds = .ok docs ∧ generate settings time es = .ok docs := by
  refine ⟨_, generate_eq_stamp time hds, ?_⟩
  rw [generate_eq_stamp time hes, allOf, allOf, indexOf, indexOf, h]

theorem paths_perm (settings : Settings) (ds : List Declaration) :
    (ofList (allOf settings ds)).paths.Perm ((allOf settings ds).map (·.1)) :=
  (perm_ofList (nodup_allOf settings ds)).map _

/-- A document is found at its path. -/
theorem get?_of_mem {path content : String} (h : (path, content) ∈ allOf settings ds) :
    (ofList (allOf settings ds)).get? path = some content := by
  rw [get?_ofList (nodup_allOf settings ds), lookup_eq_some_iff (nodup_allOf settings ds)]
  exact h

/-- The paths, the index first. -/
theorem paths_perm_cons (settings : Settings) (ds : List Declaration) :
    (ofList (allOf settings ds)).paths.Perm (readmePath ::
      (pageDocuments settings (catalogOf settings ds) (indexOf settings ds)).map (·.1)) := by
  refine (paths_perm settings ds).trans ?_
  rw [allOf, List.map_append, List.map_singleton]
  exact List.perm_append_comm

theorem oneForEachPage (hcollapse : settings.collapse = false) (ds : List Declaration) :
    OneForEachPage settings ds (ofList (allOf settings ds)) := by
  have hperm := paths_perm_cons settings ds
  rw [indexOf, pageDocuments_of_separate hcollapse, List.map_map] at hperm
  refine ⟨hperm, (ordered_ofList _).nodup, ?_, ?_, ?_⟩
  · rw [hperm.length_eq, List.length_cons, List.length_map, Catalog.size]
  · intro c d hd
    refine get?_of_mem (List.mem_append_left _ ?_)
    rw [indexOf, pageDocuments_of_separate hcollapse]
    exact List.mem_map.2 ⟨(c, d), Catalog.mem_entries.2 hd, rfl⟩
  · intro c d hd c' d' hd' hpath
    obtain ⟨hc, hname⟩ := pagePath_inj hpath
    have hentry := Catalog.entry_eq (Catalog.mem_entries.2 hd) (Catalog.mem_entries.2 hd') hc hname
    exact Prod.mk.inj hentry

theorem oneForEachCategory (hcollapse : settings.collapse = true) (ds : List Declaration) :
    OneForEachCategory settings ds (ofList (allOf settings ds)) := by
  have hperm := paths_perm_cons settings ds
  rw [pageDocuments_of_collapse hcollapse, List.map_map] at hperm
  refine ⟨hperm, (ordered_ofList _).nodup, ?_, ?_, Catalog.ordered_group _⟩
  · intro c
    have hgroups : c ∈ (catalogOf settings ds).groups.map (·.1) ↔
        (catalogOf settings ds).group c ≠ [] := Catalog.mem_map_groups
    rw [← hgroups, hperm.mem_iff]
    constructor
    · intro h
      rcases List.mem_cons.1 h with h | h
      · exact absurd h c.path_ne_readmePath
      · obtain ⟨g, hg, hpath⟩ := List.mem_map.1 h
        exact List.mem_map.2 ⟨g, hg, Category.path_inj hpath⟩
    · intro h
      obtain ⟨g, hg, rfl⟩ := List.mem_map.1 h
      exact List.mem_cons_of_mem _ (List.mem_map.2 ⟨g, hg, rfl⟩)
  · intro c hc
    refine get?_of_mem (List.mem_append_left _ ?_)
    rw [pageDocuments_of_collapse hcollapse]
    exact List.mem_map.2 ⟨(c, _), Catalog.mem_groups.2 ⟨rfl, hc⟩, rfl⟩

/-- **Declarations without a fault give exactly the documents of their catalog**, and the same ones
for every order in which the documents of the pages are put in. -/
theorem generate_documentSet (settings : Settings) (hds : Declaration.checkStructure ds = .ok ()) :
    ∃ docs, generate settings none ds = .ok docs ∧
      docs.get? readmePath = some (renderReadme (indexOf settings ds) settings) ∧
      (settings.collapse = false → OneForEachPage settings ds docs) ∧
      (settings.collapse = true → OneForEachCategory settings ds docs) ∧
      ∀ rendered : List (String × String),
        rendered.Perm (pageDocuments settings (catalogOf settings ds) (indexOf settings ds)) →
        (ofList rendered).insert readmePath (renderReadme (indexOf settings ds) settings) =
          docs := by
  refine ⟨_, generate_eq hds, get?_of_mem (List.mem_append_right _ (List.mem_singleton.2 rfl)),
    fun hcollapse => oneForEachPage hcollapse ds,
    fun hcollapse => oneForEachCategory hcollapse ds, ?_⟩
  intro rendered hperm
  have hall : (rendered ++ [(readmePath, renderReadme (indexOf settings ds) settings)]).Perm
      (allOf settings ds) := hperm.append_right _
  rw [ofList_eq_of_perm (nodup_allOf settings ds) hall.symm, ofList_append_singleton]

/-- The functions `/` and `%2F` are kept apart. -/
theorem generate_separators :
    Declaration.checkStructure [.bare .function "/" [], .bare .function "%2F" []] = .ok () ∧
    ∃ docs, generate .standard none [.bare .function "/" [], .bare .function "%2F" []] = .ok docs ∧
      docs.paths.Perm ["README.md", "methods/%252F.md", "methods/%2F.md"] ∧
      docs.get? "methods/%2F.md" = some (renderPage
        (indexOf .standard [.bare .function "/" [], .bare .function "%2F" []]) .standard
        "methods/%2F.md" (.bare .function "/" [])) := by
  have hds : Declaration.checkStructure [.bare .function "/" [], .bare .function "%2F" []] =
      .ok () := rfl
  obtain ⟨docs, hdocs, -, hseparate, -, -⟩ := generate_documentSet .standard hds
  have hall := hseparate rfl
  have hgroup : (catalogOf .standard
      [.bare .function "/" [], .bare .function "%2F" []]).group .methods =
        [.bare .function "%2F" [], .bare .function "/" []] := by rfl
  refine ⟨hds, docs, hdocs, hall.paths, ?_⟩
  exact hall.page .methods (.bare .function "/" []) (by rw [hgroup]; simp)

end Documents

end ApiPages
