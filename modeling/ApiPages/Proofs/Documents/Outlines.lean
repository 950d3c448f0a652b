import ApiPages.Proofs.Documents.CollapsedAnchors
import ApiPages.Proofs.Documents.Pages
import ApiPages.Proofs.Page.SharedDocument
import ApiPages.Proofs.Page.TreeOutline

/-!
# Outlines of the documents

The headings of every document that holds pages are the walk through the trees of its declarations,
if the texts of the declarations bring no headings and no blocks of code with them. Each declaration
of the catalog is in one document.
-/

namespace ApiPages

open Declaration (Everywhere Plain nodesAll treeOutline walkAll)
variable {settings : Settings} {ds : List Declaration}

/-- The documents beside the index by their paths, each with the declarations whose pages it
holds. -/
def pageTrees (settings : Settings) (k : Catalog) : List (String × List Declaration) :=
  if settings.collapse then k.groups.map fun g => (g.1.path, g.2)
  else k.entries.map fun e => (pagePath e.1 e.2.name false, [e.2])

theorem pageDocuments_eq_map (settings : Settings) (k : Catalog) :
    pageDocuments settings k (.ofCatalog settings k) = (pageTrees settings k).map fun e =>
      (e.1, renderCollapsed (.ofCatalog settings k) settings e.1 e.2) := by
  cases hcollapse : settings.collapse with
  | true =>
    rw [pageDocuments_of_collapse hcollapse, pageTrees, if_pos hcollapse, List.map_map]
    rfl
  | false =>
    rw [pageDocuments_of_separate hcollapse, pageTrees, if_neg (by simp [hcollapse]), List.map_map]
    simp [renderCollapsed_singleton]

/-- The documents share out the declarations of the catalog. -/
theorem flatMap_pageTrees (settings : Settings) (k : Catalog) :
    (pageTrees settings k).flatMap (·.2) = k.entries.map (·.2) := by
  unfold pageTrees
  split
  · simp [Catalog.entries, List.flatMap_map, List.map_flatMap]
  · rw [List.flatMap_map, List.map_eq_flatMap]

/-- The walks through the trees meet every declaration of the catalog, at any depth, and no other
one: each at one place, in the order of the catalog. -/
theorem flatMap_walk_pageTrees (settings : Settings) (k : Catalog) :
    ((pageTrees settings k).flatMap fun e => (walkAll 1 e.2).map (·.2)) =
      nodesAll (k.entries.map (·.2)) := by
  rw [← flatMap_pageTrees settings k, Declaration.nodesAll_eq_flatMap, List.flatMap_assoc]
  refine List.flatMap_congr fun e _ => ?_
  rw [Declaration.map_snd_walkAll, Declaration.nodesAll_eq_flatMap]

theorem plain_of_mem_pageTrees (hplain : Everywhere Plain ds) {e : String × List Declaration}
    (he : e ∈ pageTrees settings (catalogOf settings ds)) : Everywhere Plain e.2 := by
  have hgroup : ∀ c, Everywhere Plain ((catalogOf settings ds).group c) :=
    everywhere_group Declaration.plain_members Declaration.plain_absorb hplain
  unfold pageTrees at he
  split at he
  · obtain ⟨g, hg, rfl⟩ := List.mem_map.1 he
    rw [(Catalog.mem_groups.1 hg).1]
    exact hgroup g.1
  · obtain ⟨⟨c, d⟩, hd, rfl⟩ := List.mem_map.1 he
    obtain ⟨hplain, hmembers⟩ :=
      Declaration.everywhere_iff_forall.1 (hgroup c) d (Catalog.mem_entries.1 hd)
    exact Declaration.everywhere_cons.2 ⟨hplain, hmembers, Declaration.everywhere_nil⟩

/-- A document of pages has the headings of its trees, with or without a footer. -/
theorem outline_stamped_renderCollapsed {x : PageIndex} (hx : x.OneLine) {es : List Declaration}
    (h : Everywhere Plain es) (path : String) (time : Option Instant) :
    outline (Documents.stamped (renderCollapsed x settings path es) (time.map Instant.text)) =
      treeOutline settings.contents es := by
  rw [← Declaration.flatMap_headings, ← outline_renderCollapsed hx settings path h]
  cases time with
  | none => rfl
  | some t => exact outline_stamped (newline_not_mem_text t) _

/-- **The outline of every document is its declarations' trees.** Besides the index there are the
documents of `pageTrees`, and the headings of each are what the walk through its trees calls for.
No declaration of the catalog is left out of these walks or met twice. -/
theorem outline_generate (hstart : '\n' ∉ settings.linkStart.toList)
    (hend : '\n' ∉ settings.linkEnd.toList) (hds : Declaration.checkStructure ds = .ok ())
    (hplain : Everywhere Plain ds) (time : Option Instant) :
    ∃ docs, Documents.generate settings (time.map Instant.text) ds = .ok docs ∧
      docs.paths.Perm
        (readmePath :: (pageTrees settings (catalogOf settings ds)).map (·.1)) ∧
      ((pageTrees settings (catalogOf settings ds)).flatMap fun e =>
        (walkAll 1 e.2).map (·.2)) = nodesAll ((catalogOf settings ds).entries.map (·.2)) ∧
      ∀ e ∈ pageTrees settings (catalogOf settings ds), ∃ document,
        docs.get? e.1 = some document ∧
          outline document = treeOutline settings.contents e.2 := by
  have hx := PageIndex.oneLine_ofCatalog (catalogOf settings ds) hstart hend
  have hdocuments := pageDocuments_eq_map settings (catalogOf settings ds)
  rw [← indexOf] at hdocuments
  refine ⟨_, Documents.generate_eq_stamp _ hds, ?_, flatMap_walk_pageTrees _ _, fun e he => ?_⟩
  · have hpaths := Documents.paths_perm_cons settings ds
    rw [hdocuments, List.map_map] at hpaths
    rw [Documents.paths_stamp]
    exact hpaths
  · have hmem : (e.1, renderCollapsed (indexOf settings ds) settings e.1 e.2) ∈
        Documents.allOf settings ds := by
      rw [Documents.allOf, hdocuments]
      exact List.mem_append_left _ (List.mem_map.2 ⟨e, he, rfl⟩)
    refine ⟨_, by rw [Documents.get?_stamp, Documents.get?_of_mem hmem, Option.map_some], ?_⟩
    exact outline_stamped_renderCollapsed hx (plain_of_mem_pageTrees hplain he) e.1 time

/-- A function with a parameter and an error, as a member of a type that is a member of a class with
a superclass. The comment has a `#` in the middle of a line. -/
def Declaration.carWithWheels : Declaration :=
  let turn := { bare .function "turn" [] with
    comment := some ⟨"Wheel #1 turns", none, [⟨"by", "degrees"⟩], none, some "Never"⟩ }
  { bare .classType "Car" [.bare .property "speed" [], .bare .structType "Wheels" [turn]] with
    inheritance := ["Vehicle"] }

theorem outline_of_carWithWheels :
    ∃ docs document,
      Documents.generate { Settings.standard with contents := true, collapsible := true } none
        [.carWithWheels] = .ok docs ∧
      docs.get? "classes/Car.md" = some document ∧
      outline document =
        [⟨1, "\x60Car\x60"⟩, ⟨2, "Inheritance"⟩, ⟨2, "Contents"⟩, ⟨2, "\x60speed\x60"⟩,
          ⟨2, "\x60Wheels\x60"⟩, ⟨3, "\x60turn\x60"⟩, ⟨4, "Parameters"⟩, ⟨4, "Throws"⟩] := by
  have hplain : Everywhere Plain [.carWithWheels] := by
    have hnone := @Declaration.everywhere_nil Plain
    refine Declaration.everywhere_cons.2 ⟨?_, Declaration.everywhere_cons.2 ⟨?_, hnone,
      Declaration.everywhere_cons.2 ⟨?_, Declaration.everywhere_cons.2 ⟨?_, hnone, hnone⟩, hnone⟩⟩,
      hnone⟩
    · exact ⟨by decide, by decide, by decide +kernel, by simp [Declaration.carWithWheels,
        Declaration.bare]⟩
    · exact Declaration.plain_bare (by decide) (by decide +kernel)
    · exact Declaration.plain_bare (by decide) (by decide +kernel)
    · refine ⟨by decide, by decide, by decide +kernel, ?_⟩
      rintro _ ⟨⟩
      refine ⟨by decide +kernel, by simp, by decide +kernel, by simp, ?_⟩
      rintro _ ⟨⟩
      decide +kernel
  obtain ⟨docs, hdocs, -, -, houtlines⟩ :=
    @outline_generate { Settings.standard with contents := true, collapsible := true } _
      (by decide) (by decide) rfl hplain none
  have htrees : pageTrees { Settings.standard with contents := true, collapsible := true }
      (catalogOf { Settings.standard with contents := true, collapsible := true }
        [.carWithWheels]) = [("classes/Car.md", [.carWithWheels])] := by
    rfl
  rw [htrees, List.forall_mem_singleton] at houtlines
  obtain ⟨document, hget, houtline⟩ := houtlines
  exact ⟨docs, document, hdocs, hget, houtline.trans (by decide +kernel)⟩

end ApiPages
