import ApiPages.Proofs.Declaration.Visible
import ApiPages.Proofs.Documents.Pages
import ApiPages.Proofs.Merge.Everywhere
import ApiPages.Proofs.Page.TopAnchors

/-!
# Anchors in the documents

The index gives every page of a collapsed document its anchor before the document is written. In the
document that is generated these are the anchors of the pages' headings, counted over all headings
from the top, if the texts of the declarations bring no headings and no blocks of code with them.
-/

namespace ApiPages

open Declaration (Everywhere)
open Text (marks)

variable {settings : Settings} {ds : List Declaration}

/-- The top headings of a document with the anchors that they get when all its headings outside
blocks of code claim one, in their order. -/
def pageAnchors (document : String) : List (String × Option String) :=
  (Anchors.empty.topAnchors (outline document)).map fun h => (h.1, some h.2)

/-- A declaration that brings no marks with it and whose name has no blanks around it. -/
def Declaration.Tidy (d : Declaration) : Prop :=
  d.Plain ∧ d.Trimmed

theorem Declaration.tidy_bare {kind : Kind} {name : String} {members : List Declaration}
    (hname : '\n' ∉ name.toList) (hsignature : .fence ∉ marks name.toList)
    (htrim : Text.trim name = name) : (bare kind name members).Tidy :=
  ⟨plain_bare hname hsignature, htrim⟩

/-! ## From the declarations to the catalog -/

theorem Declaration.plain_absorb (d e : Declaration) (hd : d.Plain) (he : e.Plain) :
    (Merge.absorb d e).Plain := by
  refine ⟨hd.name, ?_, hd.signature, hd.comment⟩
  -- only the supertypes are new, and each is one of either
  intro n hn
  rw [Merge.absorb_inheritance, mem_unionNames] at hn
  rcases hn with hn | hn
  · exact hd.inheritance n hn
  · exact he.inheritance n hn

theorem Declaration.plain_members (d : Declaration) (ms : List Declaration) (hd : d.Plain) :
    Plain { d with members := ms } :=
  ⟨hd.name, hd.inheritance, hd.signature, hd.comment⟩

theorem Declaration.tidy_absorb (d e : Declaration) (hd : d.Tidy) (he : e.Tidy) :
    (Merge.absorb d e).Tidy :=
  ⟨plain_absorb d e hd.1 he.1, hd.2⟩

theorem Declaration.tidy_members (d : Declaration) (ms : List Declaration) (hd : d.Tidy) :
    Tidy { d with members := ms } :=
  ⟨plain_members d ms hd.1, hd.2⟩

theorem everywhere_group {P : Declaration → Prop}
    (hmembers : ∀ d ms, P d → P { d with members := ms })
    (habsorb : ∀ d e, P d → P e → P (Merge.absorb d e)) (h : Everywhere P ds) (c : Category) :
    Everywhere P ((catalogOf settings ds).group c) := by
  have hmerged := Merge.everywhere_mergeExtensions hmembers habsorb h
  have hvisible : Everywhere P
      (Declaration.visible settings.minAccess (Merge.mergeExtensions ds)) :=
    Declaration.everywhere_visible hmembers hmerged
  rw [catalogOf, Catalog.group_ofList]
  rw [Declaration.everywhere_iff_forall] at hvisible ⊢
  intro d hd
  exact hvisible d (Catalog.mem_of_mem_groupOf hd).1

/-! ## The pages of a category -/

theorem PageIndex.categoryPages_nil (settings : Settings) (c : Category) :
    categoryPages settings c [] = [] := by
  unfold categoryPages
  split <;> rfl

/-- The pages of a category are those of its group. -/
theorem PageIndex.filter_category (settings : Settings) (c : Category)
    {gs : List (Category × List Declaration)} (h : (gs.map (·.1)).Nodup) :
    (gs.flatMap fun g => categoryPages settings g.1 g.2).filter (fun p => p.category = c) =
      categoryPages settings c ((gs.lookup c).getD []) := by
  induction gs with
  | nil => exact (categoryPages_nil settings c).symm
  | cons g gs ih =>
    rw [List.map_cons, List.nodup_cons] at h
    rw [List.flatMap_cons, List.filter_append, ih h.2, List.lookup_cons]
    by_cases hc : c = g.1
    · -- the other groups are of other categories
      have hnone : gs.lookup c = none := lookup_eq_none (hc ▸ h.1)
      have hall : (categoryPages settings g.1 g.2).filter (fun p => p.category = c) =
          categoryPages settings g.1 g.2 := by
        rw [List.filter_eq_self]
        intro p hp
        rw [category_of_mem_categoryPages hp, hc]
        simp
      rw [hnone, hall, hc, BEq.rfl]
      simp [categoryPages_nil]
    · have hne : (c == g.1) = false := by simpa using hc
      have hnil : (categoryPages settings g.1 g.2).filter (fun p => p.category = c) = [] := by
        rw [List.filter_eq_nil_iff]
        intro p hp
        rw [category_of_mem_categoryPages hp]
        simpa using Ne.symm hc
      rw [hne, hnil, List.nil_append]

theorem PageIndex.filter_ofCatalog (hcollapse : settings.collapse = true) (vs : List Declaration)
    (c : Category) :
    (ofCatalog settings (.ofList vs)).pages.filter (fun p => p.category = c) =
      collapsedPages settings c .empty ((Catalog.ofList vs).group c) := by
  rw [ofCatalog, filter_category settings c (Catalog.nodup_groups vs), categoryPages,
    if_pos hcollapse, Catalog.group]

theorem PageIndex.collapsedPages_eq_nil {c : Category} {a : Anchors} {es : List Declaration} :
    collapsedPages settings c a es = [] ↔ es = [] := by
  cases es <;> simp [collapsedPages]

/-! ## Documents -/

/-- What stands in a document of several pages, with or without a footer. -/
theorem pageAnchors_renderCollapsed {x : PageIndex} (hx : x.OneLine) {es : List Declaration}
    (h : Everywhere Declaration.Tidy es) (c : Category) (path : String) (time : Option Instant) :
    pageAnchors (Documents.stamped (renderCollapsed x settings path es) (time.map Instant.text)) =
      (PageIndex.collapsedPages settings c .empty es).map
        fun p => ("\x60" ++ p.name ++ "\x60", p.anchor) := by
  have houtline : outline (Documents.stamped (renderCollapsed x settings path es)
      (time.map Instant.text)) = outline (renderCollapsed x settings path es) := by
    cases time with
    | none => rfl
    | some t => exact outline_stamped (newline_not_mem_text t) _
  rw [pageAnchors, houtline, outline_renderCollapsed hx settings path fun d hd => (h d hd).1]
  exact Anchors.topAnchors_pages settings c .empty fun d hd => (h d hd).2

/-- **The anchors that the index gives to collapsed pages are those of the documents.** A category
has a document just when it has pages, and the top headings of the document are those of the pages,
in their order and with their anchors. -/
theorem pageAnchors_generate (hcollapse : settings.collapse = true)
    (hstart : '\n' ∉ settings.linkStart.toList) (hend : '\n' ∉ settings.linkEnd.toList)
    (hds : Declaration.checkStructure ds = .ok ()) (htidy : Everywhere Declaration.Tidy ds)
    (time : Option Instant) :
    ∃ docs, Documents.generate settings (time.map Instant.text) ds = .ok docs ∧
      ∀ c : Category, ∀ pages, pages =
          (PageIndex.ofCatalog settings (catalogOf settings ds)).pages.filter
            (fun p => p.category = c) →
        (pages = [] → docs.get? c.path = none) ∧
        (pages ≠ [] → ∃ document, docs.get? c.path = some document ∧
          pageAnchors document = pages.map fun p => ("\x60" ++ p.name ++ "\x60", p.anchor)) := by
  obtain ⟨docs, hdocs, hget⟩ := Documents.get?_generate hcollapse hds (time.map Instant.text)
  refine ⟨docs, hdocs, fun c pages hpages => ?_⟩
  have hx := PageIndex.oneLine_ofCatalog (catalogOf settings ds) hstart hend
  have hgroup : Everywhere Declaration.Tidy ((catalogOf settings ds).group c) :=
    everywhere_group Declaration.tidy_members Declaration.tidy_absorb htidy c
  rw [catalogOf, PageIndex.filter_ofCatalog hcollapse, ← catalogOf] at hpages
  rw [Catalog.group] at hpages hgroup
  rw [hget]
  cases hes : (catalogOf settings ds).groups.lookup c with
  | none =>
    rw [hes] at hpages
    exact ⟨fun _ => rfl, fun hne => absurd hpages hne⟩
  | some es =>
    rw [hes, Option.getD_some] at hpages hgroup
    have hne : es ≠ [] := by
      rw [catalogOf, Catalog.lookup_ofList] at hes
      split at hes
      · next hgroupOf => exact Option.some.inj hes ▸ hgroupOf
      · cases hes
    refine ⟨fun hnil => ?_, fun _ => ⟨_, rfl, ?_⟩⟩
    · rw [hpages, PageIndex.collapsedPages_eq_nil] at hnil
      exact absurd hnil hne
    · rw [hpages]
      exact pageAnchors_renderCollapsed hx hgroup c c.path time

/-- A member `wheel` before the page of `Wheel` leaves the second of two anchors to the page. -/
theorem pageAnchors_beside_member :
    ∃ docs document,
      Documents.generate { Settings.standard with collapse := true, contents := true } none
        [.bare .classType "Wheel" [],
          { Declaration.bare .classType "Car" [.bare .property "wheel" []] with
            inheritance := ["Wheel"] }] = .ok docs ∧
      docs.get? "classes.md" = some document ∧
      pageAnchors document = [("\x60Car\x60", some "car"), ("\x60Wheel\x60", some "wheel-1")] := by
  have hwheel : (Declaration.bare .classType "Wheel" []).Tidy :=
    Declaration.tidy_bare (by decide) (by decide +kernel) (by decide +kernel)
  have hmember : (Declaration.bare .property "wheel" []).Tidy :=
    Declaration.tidy_bare (by decide) (by decide +kernel) (by decide +kernel)
  have hcar : Declaration.Tidy
      { Declaration.bare .classType "Car" [.bare .property "wheel" []] with
        inheritance := ["Wheel"] } :=
    ⟨⟨by decide, by decide, by decide +kernel, by simp [Declaration.bare]⟩,
      show Text.trim "Car" = "Car" by decide +kernel⟩
  have hmembers := Declaration.everywhere_cons.2
    ⟨hmember, Declaration.everywhere_nil, Declaration.everywhere_nil⟩
  have htidy := Declaration.everywhere_cons.2 ⟨hwheel, Declaration.everywhere_nil,
    Declaration.everywhere_cons.2 ⟨hcar, hmembers, Declaration.everywhere_nil⟩⟩
  have hcollapse : ({ Settings.standard with collapse := true, contents := true } :
    Settings).collapse = true := rfl
  obtain ⟨docs, hdocs, hall⟩ :=
    pageAnchors_generate hcollapse (by decide) (by decide) rfl htidy none
  have hpages := hall .classes [⟨"Car", .classes, "classes.md", some "car"⟩,
    ⟨"Wheel", .classes, "classes.md", some "wheel-1"⟩] (by decide +kernel)
  obtain ⟨document, hget, hanchors⟩ := hpages.2 (by simp)
  exact ⟨docs, document, hdocs, hget, hanchors⟩

end ApiPages
