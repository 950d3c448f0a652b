import ApiPages.Documents
import ApiPages.Proofs.Catalog.Entries
import ApiPages.Proofs.Page.Paths

/-!
# Finding documents

Which document stands at a path, for each step that documents are put together in.
-/

namespace ApiPages

/-- Nothing is found under a key that is not there. -/
theorem lookup_eq_none {α β : Type} [BEq α] [LawfulBEq α] {k : α} {es : List (α × β)}
    (h : k ∉ es.map (·.1)) : es.lookup k = none := by
  rw [List.lookup_eq_none_iff]
  intro e he
  rw [bne_iff_ne]
  rintro rfl
  exact h (List.mem_map_of_mem he)

namespace Documents

variable {docs : Documents} {p q : String}

theorem lookup_place (p content q : String) (es : List (String × String)) :
    (place p content es).lookup q = if q = p then some content else es.lookup q := by
  induction es with
  | nil =>
    by_cases hq : q = p
    · simp [place, hq]
    · have hne : (q == p) = false := by simpa using hq
      simp [place, List.lookup_cons, hq, hne]
  | cons e es ih =>
    rw [place]
    by_cases hq : q = p
    · -- the path itself: the entry in front is the one, or it is passed over
      subst hq
      rw [if_pos rfl] at ih ⊢
      by_cases he : q = e.1
      · simp [he]
      · have hne : (q == e.1) = false := by simpa using he
        rw [if_neg he]
        split
        · simp
        · rw [List.lookup_cons, hne]
          exact ih
    · -- another path: what is new or replaced is passed over
      have hne : (q == p) = false := by simpa using hq
      rw [if_neg hq] at ih ⊢
      split
      · next hp =>
        rw [List.lookup_cons, hne, List.lookup_cons, ← hp, hne]
      · split
        · rw [List.lookup_cons, hne]
        · rw [List.lookup_cons, List.lookup_cons, ih]

theorem get?_insert (docs : Documents) (p content q : String) :
    (docs.insert p content).get? q = if q = p then some content else docs.get? q :=
  lookup_place p content q docs.entries

/-- The content of a document with a footer, if there is a time to write in it. -/
def stamped (content : String) : Option String → String
  | none => content
  | some time => content ++ "\n" ++ footer time

theorem get?_stamp (docs : Documents) (time : Option String) (p : String) :
    (docs.stamp time).get? p = (docs.get? p).map fun content => stamped content time := by
  cases time with
  | none => simp [stamp, stamped]
  | some t =>
    rw [stamp, get?, get?]
    induction docs.entries with
    | nil => rfl
    | cons e es ih =>
      rw [List.map_cons, List.lookup_cons, List.lookup_cons, ih]
      split <;> rfl

/-- Documents at different paths are all there. -/
theorem get?_ofList {es : List (String × String)} (h : (es.map (·.1)).Nodup) (p : String) :
    (ofList es).get? p = es.lookup p := by
  have hfrom : ∀ docs : Documents, (es.foldl (fun docs e => docs.insert e.1 e.2) docs).get? p =
      (es.lookup p).or (docs.get? p) := by
    induction es with
    | nil => exact fun _ => rfl
    | cons e es ih =>
      intro docs
      rw [List.map_cons, List.nodup_cons] at h
      rw [List.foldl_cons, ih h.2, get?_insert, List.lookup_cons]
      by_cases hp : p = e.1
      · -- no other document is at this path
        subst hp
        rw [lookup_eq_none h.1, if_pos rfl, BEq.rfl]
        rfl
      · have hne : (p == e.1) = false := by simpa using hp
        rw [if_neg hp, hne]
  rw [ofList, hfrom]
  simp [get?]

end Documents

/-! ## One document for each category -/

/-- A document of a category is found by the category. -/
theorem lookup_map_path {α : Type} (f : Category → List Declaration → α) (c : Category)
    (gs : List (Category × List Declaration)) :
    (gs.map fun g => (g.1.path, f g.1 g.2)).lookup c.path = (gs.lookup c).map (f c) := by
  induction gs with
  | nil => rfl
  | cons g gs ih =>
    rw [List.map_cons, List.lookup_cons, List.lookup_cons, ih]
    by_cases hc : c = g.1
    · subst hc
      simp
    · have hpath : (c.path == g.1.path) = false := by
        rw [beq_eq_false_iff_ne]
        intro h
        exact hc (Category.path_inj h)
      have hne : (c == g.1) = false := by simpa using hc
      rw [hpath, hne]

/-! ## The documents of pages -/

/-- Without collapsing, the index has the entries of the catalog in their order. -/
theorem PageIndex.pages_ofCatalog {settings : Settings} (hcollapse : settings.collapse = false)
    (k : Catalog) :
    (ofCatalog settings k).pages = k.entries.map fun e =>
      ⟨e.2.name, e.1, pagePath e.1 e.2.name false, none⟩ := by
  simp only [ofCatalog, categoryPages, hcollapse, Catalog.entries, List.map_flatMap, List.map_map]
  rfl

/-- Without collapsing, every entry of the catalog has its page as a document. -/
theorem pageDocuments_of_separate {settings : Settings} (hcollapse : settings.collapse = false)
    (k : Catalog) :
    pageDocuments settings k (.ofCatalog settings k) =
      k.entries.map fun e => (pagePath e.1 e.2.name false,
        renderPage (.ofCatalog settings k) settings (pagePath e.1 e.2.name false) e.2) := by
  rw [pageDocuments, if_neg (by simp [hcollapse]), PageIndex.pages_ofCatalog hcollapse,
    ← List.map_prod_left_eq_zip, List.map_map]
  rfl

theorem pageDocuments_of_collapse {settings : Settings} (hcollapse : settings.collapse = true)
    (k : Catalog) (x : PageIndex) :
    pageDocuments settings k x =
      k.groups.map fun g => (g.1.path, renderCollapsed x settings g.1.path g.2) := by
  rw [pageDocuments, if_pos hcollapse]

/-- **No two pages that are documents have the same path**, and neither have two categories. -/
theorem nodup_pageDocuments (settings : Settings) (ds : List Declaration) :
    ((pageDocuments settings (catalogOf settings ds)
      (.ofCatalog settings (catalogOf settings ds))).map (·.1)).Nodup := by
  cases hcollapse : settings.collapse with
  | false =>
    rw [pageDocuments_of_separate hcollapse, List.map_map]
    refine (Catalog.nodup_entries _).map_on fun e₁ h₁ e₂ h₂ h => ?_
    obtain ⟨hc, hname⟩ := pagePath_inj h
    exact Catalog.entry_eq h₁ h₂ hc hname
  | true =>
    rw [pageDocuments_of_collapse hcollapse, List.map_map]
    have hpaths := (Catalog.nodup_groups
      (Declaration.visible settings.minAccess (Merge.mergeExtensions ds))).map_on
        fun c _ d _ h => Category.path_inj h
    rw [List.map_map] at hpaths
    exact hpaths

/-- **With pages collapsed, a category has a document if it has declarations**, and that document
holds all of their pages. -/
theorem Documents.get?_generate {settings : Settings} (hcollapse : settings.collapse = true)
    {ds : List Declaration} (hds : Declaration.checkStructure ds = .ok ()) (time : Option String) :
    ∃ docs, generate settings time ds = .ok docs ∧ ∀ c : Category, docs.get? c.path =
      ((catalogOf settings ds).groups.lookup c).map fun es =>
        stamped (renderCollapsed (PageIndex.ofCatalog settings (catalogOf settings ds)) settings
          c.path es) time := by
  refine ⟨_, by rw [generate, hds], fun c => ?_⟩
  generalize hx : PageIndex.ofCatalog settings (catalogOf settings ds) = x
  have hnodup := nodup_pageDocuments settings ds
  rw [hx] at hnodup
  rw [get?_stamp, get?_insert, if_neg c.path_ne_readmePath, get?_ofList hnodup,
    pageDocuments_of_collapse hcollapse,
    lookup_map_path fun c es => renderCollapsed x settings c.path es, Option.map_map]
  rfl

end ApiPages
