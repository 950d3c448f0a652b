import ApiPages.Page.Index
import ApiPages.Proofs.Page.PageOutline

/-!
# Anchors of collapsed pages

The index claims the anchors of pages that share a document before the document is written. Reading
the headings of the document from the top and giving each its anchor leads to the same anchors for
the pages, whatever stands between them.
-/

namespace ApiPages

open Text (HeadingLine)
open Declaration (Everywhere)

/-- Headings with the anchors that they get one after the other. -/
def Anchors.claimLines (a : Anchors) (hs : List HeadingLine) : List (HeadingLine × String) :=
  hs.zip (a.claimAll (hs.map (·.text))).1

/-- The texts of the headings that are asked for, with their anchors. -/
def Anchors.anchorsWhere (p : HeadingLine → Bool) (a : Anchors) (hs : List HeadingLine) :
    List (String × String) :=
  ((a.claimLines hs).filter fun h => p h.1).map fun h => (h.1.text, h.2)

/-- The texts of the headings of the first level, with their anchors. -/
def Anchors.topAnchors (a : Anchors) (hs : List HeadingLine) : List (String × String) :=
  ((a.claimLines hs).filter fun h => h.1.level = 1).map fun h => (h.1.text, h.2)

/-- The name of the declaration has no blanks around it. -/
def Declaration.Trimmed (d : Declaration) : Prop :=
  Text.trim d.name = d.name

variable {a : Anchors} {d : Declaration} {ds : List Declaration} {settings : Settings}
  {c : Category}

/-! ## Words and texts -/

/-- The words of a heading give its anchor. -/
def Heading.Faithful (h : Heading) : Prop :=
  slug h.text = slug h.words

theorem faithful_nameHeading (level : Nat) (hd : d.Trimmed) :
    Heading.Faithful ⟨level, d.name, true⟩ :=
  slug_quoted hd

theorem forall_sectionHeadings (level : Nat) (ts : List Section) :
    ∀ h ∈ ts.map fun t => (⟨level + 1, t.title, false⟩ : Heading),
      h.Faithful ∧ level + 1 ≤ h.level := by
  intro h hh
  obtain ⟨t, -, rfl⟩ := List.mem_map.1 hh
  exact ⟨rfl, Nat.le_refl _⟩

/-- Headings below a declaration are deeper than it. -/
theorem forall_memberHeadings (level : Nat) (hd : d.Trimmed)
    (hm : Everywhere Declaration.Trimmed d.members) :
    ∀ h ∈ d.memberHeadings level, h.Faithful ∧ level ≤ h.level := by
  induction d using Declaration.induct generalizing level with
  | step d ih =>
    intro h hh
    rw [Declaration.memberHeadings_eq, List.mem_append, Declaration.ownHeadings,
      List.mem_cons] at hh
    rcases hh with (rfl | hh) | hh
    · exact ⟨faithful_nameHeading level hd, Nat.le_refl _⟩
    · have hsection := forall_sectionHeadings level _ h hh
      exact ⟨hsection.1, by omega⟩
    · rw [Declaration.membersHeadings_eq_flatMap, List.mem_flatMap] at hh
      obtain ⟨m, hmem, hh⟩ := hh
      obtain ⟨htrim, hmembers⟩ := Declaration.everywhere_iff_forall.1 hm m hmem
      have hmember := ih m hmem (level + 1) htrim hmembers h hh
      exact ⟨hmember.1, by omega⟩

/-- What stands below the heading of a declaration is deeper than it. -/
theorem forall_furtherHeadings (level : Nat) (ts : List Section)
    (hm : Everywhere Declaration.Trimmed ds) :
    ∀ h ∈ (ts.map fun t => (⟨level + 1, t.title, false⟩ : Heading)) ++
        Declaration.membersHeadings (level + 1) ds, h.Faithful ∧ level + 1 ≤ h.level := by
  intro h hh
  rcases List.mem_append.1 hh with hh | hh
  · exact forall_sectionHeadings level _ h hh
  · rw [Declaration.membersHeadings_eq_flatMap, List.mem_flatMap] at hh
    obtain ⟨m, hmem, hh⟩ := hh
    obtain ⟨htrim, hmembers⟩ := Declaration.everywhere_iff_forall.1 hm m hmem
    exact forall_memberHeadings (level + 1) htrim hmembers h hh

theorem exists_headings_eq (contents : Bool)
    (hm : Everywhere Declaration.Trimmed d.members) :
    ∃ rest, d.headings contents = ⟨1, d.name, true⟩ :: rest ∧
      ∀ h ∈ rest, h.Faithful ∧ 2 ≤ h.level :=
  ⟨_, rfl, forall_furtherHeadings 1 _ hm⟩

theorem exists_memberHeadings_eq (level : Nat) (hm : Everywhere Declaration.Trimmed d.members) :
    ∃ rest, d.memberHeadings level = ⟨level, d.name, true⟩ :: rest ∧
      ∀ h ∈ rest, h.Faithful ∧ level + 1 ≤ h.level :=
  ⟨_, Declaration.memberHeadings_eq level d, forall_furtherHeadings level _ hm⟩

namespace Anchors

theorem claimAll_lines {hs : List Heading} (h : ∀ x ∈ hs, x.Faithful) (a : Anchors) :
    a.claimAll ((hs.map Heading.asLine).map (·.text)) = a.claimAll (hs.map Heading.words) := by
  refine claimAll_congr ?_ a
  rw [List.map_map, List.map_map, List.map_map]
  exact List.map_congr_left h

theorem claimHeadings_eq {hs : List Heading} (h : ∀ x ∈ hs, x.Faithful) (a : Anchors) :
    (a.claimHeadings hs).2 = (a.claimAll ((hs.map Heading.asLine).map (·.text))).2 := by
  rw [claimAll_lines h]
  rfl

/-! ## Some of the headings -/

variable {p : HeadingLine → Bool}

theorem anchorsWhere_append (p : HeadingLine → Bool) (a : Anchors) (xs ys : List HeadingLine) :
    a.anchorsWhere p (xs ++ ys) =
      a.anchorsWhere p xs ++ (a.claimAll (xs.map (·.text))).2.anchorsWhere p ys := by
  -- every heading of the first run has its anchor, so the two lists end together
  have hlength : xs.length = (a.claimAll (xs.map (·.text))).1.length := by
    rw [length_claimAll, List.length_map]
  simp only [anchorsWhere, claimLines, List.map_append, claimAll_append, List.zip_append hlength,
    List.filter_append]

theorem anchorsWhere_eq_nil {hs : List HeadingLine} (h : ∀ x ∈ hs, p x = false) (a : Anchors) :
    a.anchorsWhere p hs = [] := by
  have hfilter : (a.claimLines hs).filter (fun x => p x.1) = [] := by
    rw [List.filter_eq_nil_iff]
    rintro ⟨x, anchor⟩ hx
    rw [h x (List.of_mem_zip hx).1]
    exact Bool.false_ne_true
  rw [anchorsWhere, hfilter, List.map_nil]

/-- A heading that is asked for, before others that are not, has the anchor that the index claims
for it. -/
theorem anchorsWhere_headings {h : Heading} {hs : List Heading} (hp : p h.asLine = true)
    (hfaithful : h.Faithful) (hrest : ∀ x ∈ hs, p x.asLine = false) (a : Anchors) :
    a.anchorsWhere p ((h :: hs).map Heading.asLine) =
      [(h.text, (a.claimHeadings (h :: hs)).1)] := by
  have hclaim : a.claim h.asLine.text = a.claim h.words := claim_congr hfaithful a
  have hnil : ∀ b : Anchors, b.anchorsWhere p (hs.map Heading.asLine) = [] :=
    anchorsWhere_eq_nil (List.forall_mem_map.2 hrest)
  have hfirst : a.anchorsWhere p [h.asLine] = [(h.asLine.text, (a.claim h.asLine.text).1)] := by
    show List.map _ (List.filter _ [(h.asLine, (a.claim h.asLine.text).1)]) = _
    simp [hp]
  rw [List.map_cons, ← List.singleton_append, anchorsWhere_append, hfirst, hnil, hclaim]
  rfl

/-! ## Headings of the first level -/

theorem topAnchors_eq_anchorsWhere (a : Anchors) (hs : List HeadingLine) :
    a.topAnchors hs = a.anchorsWhere (fun h => h.level = 1) hs := rfl

theorem topAnchors_append (a : Anchors) (xs ys : List HeadingLine) :
    a.topAnchors (xs ++ ys) =
      a.topAnchors xs ++ (a.claimAll (xs.map (·.text))).2.topAnchors ys := by
  simp only [topAnchors_eq_anchorsWhere, anchorsWhere_append]

/-- Of a declaration the name is on the first level, and nothing else. -/
theorem topAnchors_headings (contents : Bool) (hd : d.Trimmed)
    (hm : Everywhere Declaration.Trimmed d.members) (a : Anchors) :
    a.topAnchors ((d.headings contents).map Heading.asLine) =
      [("\x60" ++ d.name ++ "\x60", (a.claimHeadings (d.headings contents)).1)] := by
  obtain ⟨rest, heq, hrest⟩ := exists_headings_eq contents hm
  have hdeeper : ∀ x ∈ rest, decide (x.asLine.level = 1) = false := by
    intro x hx
    have hlevel := (hrest x hx).2
    exact decide_eq_false (show ¬ min x.level 6 = 1 by omega)
  rw [heq, topAnchors_eq_anchorsWhere]
  exact anchorsWhere_headings (decide_eq_true rfl) (faithful_nameHeading 1 hd) hdeeper a

/-- **The anchors that the index claims for pages are those that their headings get.** -/
theorem topAnchors_pages (settings : Settings) (c : Category) (a : Anchors)
    (h : Everywhere Declaration.Trimmed ds) :
    (a.topAnchors (ds.flatMap fun d => (d.headings settings.contents).map Heading.asLine)).map
        (fun t => (t.1, some t.2)) =
      (PageIndex.collapsedPages settings c a ds).map
        fun p => ("\x60" ++ p.name ++ "\x60", p.anchor) := by
  induction ds generalizing a with
  | nil => rfl
  | cons d ds ih =>
    obtain ⟨hd, hm, hs⟩ := Declaration.everywhere_cons.1 h
    have hfaithful : ∀ x ∈ d.headings settings.contents, x.Faithful := by
      obtain ⟨rest, heq, hrest⟩ := exists_headings_eq settings.contents hm
      rw [heq, List.forall_mem_cons]
      exact ⟨faithful_nameHeading 1 hd, fun x hx => (hrest x hx).1⟩
    -- the index goes on from where the headings of the page have ended
    rw [List.flatMap_cons, topAnchors_append, topAnchors_headings settings.contents hd hm,
      ← claimHeadings_eq hfaithful, List.map_append, ih _ hs]
    rfl

end Anchors

/-! ## The index -/

namespace PageIndex

theorem not_mem_collapsedPages {ch : Char} (hch : slugChar? ch = none)
    (hdigit : ch.isDigit = false) (settings : Settings) (c : Category) (a : Anchors)
    (ds : List Declaration) : ∀ p ∈ collapsedPages settings c a ds, ∀ anchor,
      p.anchor = some anchor → ch ∉ anchor.toList := by
  induction ds generalizing a with
  | nil => simp [collapsedPages]
  | cons d ds ih =>
    intro p hp anchor hanchor
    rw [collapsedPages, List.mem_cons] at hp
    rcases hp with rfl | hp
    · obtain rfl := Option.some.inj hanchor
      exact Anchors.not_mem_claimHeadings hch hdigit a _
    · exact ih _ p hp anchor hanchor

theorem not_mem_anchor_ofCatalog {ch : Char} (hch : slugChar? ch = none)
    (hdigit : ch.isDigit = false) (settings : Settings) (k : Catalog) :
    ∀ p ∈ (ofCatalog settings k).pages, ∀ anchor, p.anchor = some anchor → ch ∉ anchor.toList := by
  intro p hp anchor hanchor
  obtain ⟨g, -, hp⟩ := List.mem_flatMap.1 hp
  unfold categoryPages at hp
  split at hp
  · exact not_mem_collapsedPages hch hdigit settings _ _ _ p hp anchor hanchor
  · obtain ⟨d, -, rfl⟩ := List.mem_map.1 hp
    cases hanchor

/-- Anchors bring nothing into the links of an index that a heading has besides letters, digits and
hyphens. -/
theorem without_ofCatalog {ch : Char} (hch : slugChar? ch = none) (hdigit : ch.isDigit = false)
    (k : Catalog) (hstart : ch ∉ settings.linkStart.toList)
    (hend : ch ∉ settings.linkEnd.toList) : (ofCatalog settings k).Without ch :=
  ⟨hstart, hend, not_mem_anchor_ofCatalog hch hdigit settings k⟩

/-- Links of an index stay in their line when what the settings add to them does. -/
theorem oneLine_ofCatalog (k : Catalog) (hstart : '\n' ∉ settings.linkStart.toList)
    (hend : '\n' ∉ settings.linkEnd.toList) : (ofCatalog settings k).OneLine :=
  have h := without_ofCatalog (by decide) (by decide) k hstart hend
  ⟨h.linkStart, h.linkEnd, h.anchors⟩

end PageIndex

end ApiPages
