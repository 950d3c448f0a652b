import ApiPages.Proofs.Catalog.LastOfName
import ApiPages.Proofs.Documents.Pages
import ApiPages.Proofs.Page.Supertypes

/-!
# Finding pages by name

The pages of an index are in the order of their categories, and within a category in the order of
the bytes of their names. A name that several categories share belongs to the first of them, and it
is to this page that the supertypes in the documents lead (`resolves_ofCatalog`).
-/

namespace ApiPages

open Declaration (walk walkAll)

/-- The place of a category in the order of the index. -/
def Category.rank (c : Category) : Nat :=
  all.idxOf c

theorem Category.rank_inj {c d : Category} (h : c.rank = d.rank) : c = d :=
  (List.idxOf_inj (mem_all c)).1 h

/-- Whether a page is before another one in the order of the index. -/
def Page.Before (p q : Page) : Prop :=
  p.category.rank < q.category.rank ∨
    p.category = q.category ∧ Text.bytes p.name < Text.bytes q.name

namespace PageIndex

/-- Whether an index finds the pages of a catalog as they should be found by their names. -/
structure Resolves (x : PageIndex) (k : Catalog) : Prop where
  order : x.pages.Pairwise Page.Before
  nodup : (x.pages.map Page.identity).Nodup
  page?_eq_none_iff : ∀ n, x.page? n = none ↔ ∀ c, ∀ d ∈ k.group c, d.name ≠ n
  page?_eq_some_iff : ∀ n p, x.page? n = some p ↔ p ∈ x.pages ∧ p.name = n ∧
    ∀ q ∈ x.pages, q.name = n → p.category.rank ≤ q.category.rank

variable {x : PageIndex} {settings : Settings} {ds : List Declaration} {c : Category} {n : String}
  {p q : Page}

/-! ## The order of pages -/

theorem map_identity (settings : Settings) (k : Catalog) :
    (ofCatalog settings k).pages.map Page.identity = k.entries.map fun e => (e.1, e.2.name) := by
  have hpages := congrArg (List.map Prod.fst) (pages_identity settings k)
  rw [List.map_map, List.map_map] at hpages
  exact hpages

/-- The entries of the catalog are in the order of their categories and names. -/
theorem pairwise_entries (ds : List Declaration) :
    (Catalog.ofList ds).entries.Pairwise fun e f => e.1.rank < f.1.rank ∨
      e.1 = f.1 ∧ Text.bytes e.2.name < Text.bytes f.2.name := by
  have hranks : Category.all.Pairwise fun c d => c.rank < d.rank := by decide
  rw [Catalog.entries, Catalog.groups_ofList, List.flatMap_map, List.pairwise_flatMap]
  constructor
  · intro c _
    rw [List.pairwise_map]
    exact (Catalog.ordered_group ds c).bytes.imp fun h => .inr ⟨rfl, h⟩
  · refine (hranks.filter _).imp fun hrank e he f hf => .inl ?_
    obtain ⟨d, -, rfl⟩ := List.mem_map.1 he
    obtain ⟨d', -, rfl⟩ := List.mem_map.1 hf
    exact hrank

theorem pairwise_pages (settings : Settings) (ds : List Declaration) :
    (ofCatalog settings (.ofList ds)).pages.Pairwise Page.Before := by
  have hentries := pairwise_entries ds
  have hpages : ((ofCatalog settings (.ofList ds)).pages.map Page.identity).Pairwise
      fun i j => i.1.rank < j.1.rank ∨ i.1 = j.1 ∧ Text.bytes i.2 < Text.bytes j.2 := by
    rw [map_identity, List.pairwise_map]
    exact hentries
  rw [List.pairwise_map] at hpages
  exact hpages

theorem nodup_identities (h : x.pages.Pairwise Page.Before) :
    (x.pages.map Page.identity).Nodup := by
  refine List.pairwise_map.2 (h.imp ?_)
  rintro p q hpq heq
  obtain ⟨hcategory, hname⟩ := Prod.mk.inj heq
  rcases hpq with hrank | ⟨-, hbytes⟩
  · rw [hcategory] at hrank
    exact lt_irrefl _ hrank
  · rw [hname] at hbytes
    exact lt_irrefl _ (Text.bytes_lt_iff.1 hbytes)

/-! ## The page of a name -/

/-- Pages of one name are in the order of their categories, so the one that is found is of the
first. -/
theorem rank_le_of_page? (h : x.pages.Pairwise Page.Before) (hp : x.page? n = some p)
    (hq : q ∈ x.pages) (hname : q.name = n) : p.category.rank ≤ q.category.rank := by
  obtain ⟨-, before, after, hpages, hbefore⟩ := List.find?_eq_some_iff_append.1 hp
  rw [hpages, List.mem_append, List.mem_cons] at hq
  rcases hq with hq | rfl | hq
  · have hno := hbefore q hq
    simp [hname] at hno
  · exact le_refl _
  · rw [hpages, List.pairwise_append, List.pairwise_cons] at h
    rcases h.2.1.1 q hq with hrank | ⟨hcategory, -⟩
    · exact hrank.le
    · rw [hcategory]

theorem page?_eq_some_iff_first (h : x.pages.Pairwise Page.Before) :
    x.page? n = some p ↔ p ∈ x.pages ∧ p.name = n ∧
      ∀ q ∈ x.pages, q.name = n → p.category.rank ≤ q.category.rank := by
  constructor
  · intro hp
    have hname : p.name = n := by simpa using List.find?_some hp
    exact ⟨List.mem_of_find?_eq_some hp, hname, fun q hq hqn => rank_le_of_page? h hp hq hqn⟩
  · rintro ⟨hp, hname, hfirst⟩
    -- the page that is found is of the same category, and there is no other one
    obtain ⟨q, hq⟩ : ∃ q, x.page? n = some q := by
      rw [← Option.isSome_iff_exists, page?, List.find?_isSome]
      exact ⟨p, hp, by simpa using hname⟩
    have hqmem := List.mem_of_find?_eq_some hq
    have hqname : q.name = n := by simpa using List.find?_some hq
    have hrank : p.category.rank = q.category.rank :=
      le_antisymm (hfirst q hqmem hqname) (rank_le_of_page? h hq hp hname)
    have hidentity : q.identity = p.identity :=
      Prod.ext (Category.rank_inj hrank.symm) (hqname.trans hname.symm)
    rw [hq, List.inj_on_of_nodup_map (nodup_identities h) hqmem hp hidentity]

theorem page?_eq_none_iff_absent :
    (ofCatalog settings (.ofList ds)).page? n = none ↔
      ∀ c, ∀ d ∈ (Catalog.ofList ds).group c, d.name ≠ n := by
  rw [page?, List.find?_eq_none]
  constructor
  · intro hnone c d hd hname
    have hpage : ∃ p ∈ (ofCatalog settings (.ofList ds)).pages,
        p.identity = (c, n) ∧ p.path = pagePath c n settings.collapse :=
      exists_mem_pages_iff.2 ⟨⟨d, hd, hname⟩, rfl⟩
    obtain ⟨p, hp, hidentity, -⟩ := hpage
    obtain ⟨-, hpname⟩ := Prod.mk.inj hidentity
    exact hnone p hp (by simpa using hpname)
  · intro habsent p hp hname
    obtain ⟨⟨d, hd, hdname⟩, -⟩ := exists_mem_pages_iff.1 ⟨p, hp, rfl, rfl⟩
    exact habsent p.category d hd (hdname.trans (by simpa using hname))

/-- **A name is a link exactly when it has a page, and then to the page of the first category.** In
every document the supertypes of all declarations are written so, at any depth. -/
theorem resolves_ofCatalog (settings : Settings) (ds : List Declaration) :
    (ofCatalog settings (.ofList ds)).Resolves (.ofList ds) ∧
    (∀ path d, ∀ e ∈ d.walk 1, e.2.inheritance ≠ [] →
      ListsSupertypes (ofCatalog settings (.ofList ds)) settings.collapsible path
        (renderPage (ofCatalog settings (.ofList ds)) settings path d) e.1 e.2) ∧
    ∀ path es, ∀ e ∈ walkAll 1 es, e.2.inheritance ≠ [] →
      ListsSupertypes (ofCatalog settings (.ofList ds)) settings.collapsible path
        (renderCollapsed (ofCatalog settings (.ofList ds)) settings path es) e.1 e.2 := by
  have hpages := pairwise_pages settings ds
  exact ⟨⟨hpages, nodup_identities hpages, fun n => page?_eq_none_iff_absent,
      fun n p => page?_eq_some_iff_first hpages⟩,
    fun path d e he hne => listsSupertypes_renderPage _ settings path he hne,
    fun path es e he hne => listsSupertypes_renderCollapsed _ settings path he hne⟩

/-- A struct with a supertype that two declarations share and one that is declared nowhere. -/
def dog : Declaration :=
  { Declaration.bare .structType "Dog" [] with inheritance := ["Pet", "Animal"] }

/-- A protocol and a class with one name: on the page of a struct the name leads to the class. -/
theorem resolves_pets :
    (ofCatalog .standard (.ofList [.bare .protocolType "Pet" [], dog,
      .bare .classType "Pet" []])).page? "Pet" = some ⟨"Pet", .classes, "classes/Pet.md", none⟩ ∧
    (ofCatalog .standard (.ofList [.bare .protocolType "Pet" [], dog,
      .bare .classType "Pet" []])).page? "Animal" = none ∧
    ListsSupertypes (ofCatalog .standard (.ofList [.bare .protocolType "Pet" [], dog,
        .bare .classType "Pet" []])) false "structs/Dog.md"
      (renderPage (ofCatalog .standard (.ofList [.bare .protocolType "Pet" [], dog,
        .bare .classType "Pet" []])) .standard "structs/Dog.md" dog) 1 dog := by
  obtain ⟨hpages, hlists, -⟩ := resolves_ofCatalog .standard
    [.bare .protocolType "Pet" [], dog, .bare .classType "Pet" []]
  refine ⟨(hpages.page?_eq_some_iff _ _).2 ⟨by decide +kernel, rfl, by decide +kernel⟩,
    (hpages.page?_eq_none_iff _).2 fun c => ?_,
    hlists "structs/Dog.md" dog (1, dog) (by simp [Declaration.walk_eq]) (by simp [dog])⟩
  cases c <;> decide +kernel

end PageIndex

end ApiPages
