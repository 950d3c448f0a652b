import ApiPages.Proofs.Documents.CollapsedAnchors
import ApiPages.Proofs.Page.SharedDocument
import ApiPages.Proofs.Page.TreeOutline

/-!
# Lists of contents

The list of contents of a page is written before the members are, and it counts as a heading itself.
Its links lead to the headings that the members really get when all headings of the page claim their
anchors one after the other (`renderPage_contents`).
-/

namespace ApiPages

open Declaration (Everywhere membersHeadings walkAll)
open Text (HeadingLine isBlankText)

/-- Whether a heading of a page is that of a member of the page's declaration: these are one level
below the page's own, where names are written as code and titles of sections are not. -/
def memberHeading (h : HeadingLine) : Bool :=
  h.level = 2 && h.text.toList.head? = some '\x60'

/-- The headings of the members of the page's declaration with the anchors that they get when all
headings of the page outside blocks of code claim one, in their order. -/
def memberLinks (page : String) : List (String × String) :=
  Anchors.empty.anchorsWhere memberHeading (outline page)

/-- A link to a heading of the same document, as an item of a list. -/
def contentsItem (link : String × String) : String :=
  "- [" ++ link.1 ++ "](#" ++ link.2 ++ ")"

/-- Whether a page has one list of contents, behind the sections of its declaration and before the
members, with an item for each member that leads to the member's heading. -/
def ListsContents (page : String) (d : Declaration) : Prop :=
  ∃ before after,
    page = before ++ "## Contents\n\n" ++
      "\n".intercalate ((memberLinks page).map contentsItem) ++ "\n\n" ++ after ∧
    (memberLinks page).map (·.1) = d.members.map (fun m => "`" ++ m.name ++ "`") ∧
    outline before = d.headingLines false 1 ∧
    outline after = (walkAll 2 d.members).flatMap (fun e => e.2.headingLines false e.1) ∧
    outline page = outline before ++ ⟨2, "Contents"⟩ :: outline after ∧
    (outline page).filter (fun h => h.text = "Contents") = [⟨2, "Contents"⟩]

variable {x : PageIndex} {settings : Settings} {d : Declaration} {ds : List Declaration}

/-! ## Anchors of members -/

/-- The sections of a declaration stand before its members and are none of them. -/
theorem memberHeading_ownHeadings (contents : Bool) (d : Declaration) :
    ∀ h ∈ (d.ownHeadings contents 1).map Heading.asLine, memberHeading h = false := by
  intro h hh
  rw [Declaration.ownHeadings, List.map_cons, List.mem_cons] at hh
  rcases hh with rfl | hh
  · rfl
  · rw [List.map_map, List.mem_map] at hh
    obtain ⟨t, -, rfl⟩ := hh
    cases t <;> rfl

theorem faithful_ownHeadings (contents : Bool) (level : Nat) (hd : d.Trimmed) :
    ∀ h ∈ d.ownHeadings contents level, h.Faithful := by
  rw [Declaration.ownHeadings, List.forall_mem_cons]
  exact ⟨faithful_nameHeading level hd, fun h hh => (forall_sectionHeadings level _ h hh).1⟩

/-- The anchors that are put into the list of contents are those of the members' headings. -/
theorem anchorsWhere_membersHeadings (a : Anchors) (h : Everywhere Declaration.Trimmed ds) :
    a.anchorsWhere memberHeading ((membersHeadings 2 ds).map Heading.asLine) =
      (ds.zip (memberAnchors a ds)).map fun m => ("`" ++ m.1.name ++ "`", m.2) := by
  induction ds generalizing a with
  | nil => rfl
  | cons d ds ih =>
    obtain ⟨hd, hm, hs⟩ := Declaration.everywhere_cons.1 h
    obtain ⟨rest, heq, hrest⟩ := exists_memberHeadings_eq 2 hm
    have hfaithful : ∀ h ∈ d.memberHeadings 2, h.Faithful := by
      rw [heq, List.forall_mem_cons]
      exact ⟨faithful_nameHeading 2 hd, fun h hh => (hrest h hh).1⟩
    -- below the member all headings are deeper than those of members
    have hdeeper : ∀ h ∈ rest, memberHeading h.asLine = false := by
      intro h hh
      have hlevel := (hrest h hh).2
      have hne : ¬ h.asLine.level = 2 := by
        show ¬ min h.level 6 = 2
        omega
      rw [memberHeading, decide_eq_false hne, Bool.false_and]
    have hname : memberHeading (Heading.asLine ⟨2, d.name, true⟩) = true := by
      simp [memberHeading, Heading.asLine, Heading.text]
    have hfirst : a.anchorsWhere memberHeading ((d.memberHeadings 2).map Heading.asLine) =
        [("`" ++ d.name ++ "`", (a.claimHeadings (d.memberHeadings 2)).1)] := by
      rw [heq]
      exact Anchors.anchorsWhere_headings hname (faithful_nameHeading 2 hd) hdeeper a
    rw [membersHeadings, List.map_append, Anchors.anchorsWhere_append, hfirst,
      ← Anchors.claimHeadings_eq hfaithful, ih _ hs]
    rfl

/-- Every member has its anchor, so none is left out. -/
theorem map_fst_zip_memberAnchors (a : Anchors) (ds : List Declaration) :
    ((ds.zip (memberAnchors a ds)).map fun m => ("`" ++ m.1.name ++ "`", m.2)).map (·.1) =
      ds.map fun m => "`" ++ m.name ++ "`" := by
  induction ds generalizing a with
  | nil => rfl
  | cons d ds ih =>
    rw [memberAnchors, List.zip_cons_cons, List.map_cons, List.map_cons, ih, List.map_cons]

/-! ## The text of the list -/

/-- With a list of contents, its heading is the last before the members. -/
theorem map_asLine_ownHeadings_contents (h : d.members ≠ []) :
    (d.ownHeadings true 1).map Heading.asLine = d.headingLines false 1 ++ [⟨2, "Contents"⟩] := by
  have hown := Declaration.map_asLine_ownHeadings false 1 d
  have hmembers : d.members.isEmpty = false := by simpa using h
  rw [← hown, Declaration.ownHeadings, Declaration.ownHeadings, Declaration.sections_eq, hmembers]
  simp [Heading.asLine, Heading.text, Section.title]

/-- An item of the list as it is written. -/
theorem item_eq_contentsItem (name anchor : String) :
    "- " ++ ("[`" ++ name ++ "`](#" ++ anchor ++ ")") = contentsItem ("`" ++ name ++ "`", anchor) := by
  simp [contentsItem, ← String.toList_inj]

theorem text_bullets_members (ds : List Declaration) (anchors : List String) :
    (Block.bullets ((ds.zip anchors).map fun m => "[`" ++ m.1.name ++ "`](#" ++ m.2 ++ ")")).text =
      "\n".intercalate
        (((ds.zip anchors).map fun m => ("`" ++ m.1.name ++ "`", m.2)).map contentsItem) := by
  have hitems : ((ds.zip anchors).map fun m => "[`" ++ m.1.name ++ "`](#" ++ m.2 ++ ")").map
      ("- " ++ ·) =
      ((ds.zip anchors).map fun m => ("`" ++ m.1.name ++ "`", m.2)).map contentsItem := by
    rw [List.map_map, List.map_map]
    exact List.map_congr_left fun m _ => item_eq_contentsItem m.1.name m.2
  exact congrArg (String.intercalate "\n") hitems

/-- The page is put together from what stands before the list, the list, and the members. -/
theorem renderPage_eq_append (hcontents : settings.contents = true) (hmembers : d.members ≠ [])
    (x : PageIndex) (path : String) :
    renderPage x settings path d =
      Block.join (.heading ⟨1, d.name, true⟩ ::
        Scope.ownBlocks ⟨x, settings.collapsible, path, d.name⟩ 1 d) ++
      "## Contents\n\n" ++
      (Block.bullets ((d.members.zip
        (memberAnchors (Anchors.empty.claimHeadings (d.ownHeadings true 1)).2 d.members)).map
          fun m => "[`" ++ m.1.name ++ "`](#" ++ m.2 ++ ")")).text ++ "\n\n" ++
      Block.document
        (Scope.membersBlocks ⟨x, settings.collapsible, path, d.name⟩ 2 d.members) := by
  have hne : d.members.isEmpty = false := by simpa using hmembers
  have hblank : isBlankText (Block.join
      (Scope.membersBlocks ⟨x, settings.collapsible, path, d.name⟩ 2 d.members)) = false := by
    obtain ⟨m, ms, hcons⟩ := List.exists_cons_of_ne_nil hmembers
    rw [hcons, Scope.membersBlocks, Scope.memberBlocks_eq]
    exact Block.isBlankText_join_eq_false List.mem_cons_self (isBlankText_nameHeading 2 m.name)
  have hlist : contentsBlocks .empty true d = [.heading ⟨2, "Contents", false⟩,
      .bullets ((d.members.zip
        (memberAnchors (Anchors.empty.claimHeadings (d.ownHeadings true 1)).2 d.members)).map
          fun m => "[`" ++ m.1.name ++ "`](#" ++ m.2 ++ ")")] := by
    rw [contentsBlocks, hne]
    rfl
  rw [renderPage, pageBlocks, hcontents, hlist, Block.document_append hblank, Block.join_append]
  -- the list has two blocks, and what is in its items does not matter here
  generalize (d.members.zip _).map _ = items
  have hheading : (Block.heading ⟨2, "Contents", false⟩).text = "## Contents" := by decide
  have hjoin : Block.join [.heading ⟨2, "Contents", false⟩, .bullets items] =
      "## Contents\n\n" ++ (Block.bullets items).text ++ "\n\n" := by
    rw [Block.join_cons, Block.join_cons, hheading]
    simp [Block.join, ← String.toList_inj]
  rw [hjoin]
  simp only [String.append_assoc]

/-! ## The list -/

theorem text_ne_contents (depth : Nat) (d : Declaration) :
    ∀ h ∈ d.headingLines false depth, h.text ≠ "Contents" := by
  intro h hh
  rw [Declaration.headingLines, List.mem_cons, List.mem_map] at hh
  rcases hh with rfl | ⟨t, ht, rfl⟩
  · -- a name begins with a backtick
    intro htext
    have hhead := congrArg (fun s => s.toList.head?) htext
    simp at hhead
  · cases t with
    | contents => simp [Declaration.hasSection] at ht
    | _ => simp [Section.title]

/-- What stands before the list has the headings of the declaration itself. -/
theorem outline_join_ownBlocks (hx : x.OneLine) (collapsible : Bool) (path : String)
    (hd : d.Plain) :
    outline (Block.join (.heading ⟨1, d.name, true⟩ ::
      Scope.ownBlocks ⟨x, collapsible, path, d.name⟩ 1 d)) = d.headingLines false 1 := by
  have hclean : ∀ b ∈ Block.heading ⟨1, d.name, true⟩ ::
      Scope.ownBlocks ⟨x, collapsible, path, d.name⟩ 1 d, b.Clean := by
    rw [List.forall_mem_cons]
    exact ⟨clean_nameHeading Nat.one_pos hd.name, Scope.clean_ownBlocks hx hd 1⟩
  have hown := Declaration.map_asLine_ownHeadings false 1 d
  rw [Block.outline_join hclean, List.flatMap_cons, Scope.outline_ownBlocks, ← hown,
    Declaration.ownHeadings, List.map_cons, List.map_map]
  rfl

/-- What stands behind the list has the headings of the members. -/
theorem outline_document_membersBlocks (hx : x.OneLine) (collapsible : Bool) (path : String)
    (h : Everywhere Declaration.Plain ds) (current : String) :
    outline (Block.document (Scope.membersBlocks ⟨x, collapsible, path, current⟩ 2 ds)) =
      (walkAll 2 ds).flatMap fun e => e.2.headingLines false e.1 := by
  rw [Block.outline_document (Scope.clean_membersBlocks hx Nat.two_pos h),
    Scope.outline_membersBlocks, Declaration.map_asLine_membersHeadings false Nat.one_lt_two]

/-- Contents are a section of no other declaration than the page's own. -/
theorem filter_contents (d : Declaration) :
    (d.headingLines false 1 ++ ⟨2, "Contents"⟩ ::
      (walkAll 2 d.members).flatMap fun e => e.2.headingLines false e.1).filter
        (fun h => h.text = "Contents") = [⟨2, "Contents"⟩] := by
  have hbefore : (d.headingLines false 1).filter (fun h => h.text = "Contents") = [] := by
    rw [List.filter_eq_nil_iff]
    intro h hh
    simpa using text_ne_contents 1 d h hh
  have hafter : ((walkAll 2 d.members).flatMap fun e => e.2.headingLines false e.1).filter
      (fun h => h.text = "Contents") = [] := by
    rw [List.filter_eq_nil_iff]
    intro h hh
    obtain ⟨e, -, hh⟩ := List.mem_flatMap.1 hh
    simpa using text_ne_contents e.1 e.2 h hh
  rw [List.filter_append, hbefore, List.filter_cons_of_pos (by simp), hafter, List.nil_append]

/-- The links of the list are the members with the anchors that were claimed for them. -/
theorem memberLinks_renderPage (hcontents : settings.contents = true) (hx : x.OneLine)
    (path : String) (htidy : Everywhere Declaration.Tidy [d]) :
    memberLinks (renderPage x settings path d) =
      (d.members.zip (memberAnchors (Anchors.empty.claimHeadings (d.ownHeadings true 1)).2
        d.members)).map fun m => ("`" ++ m.1.name ++ "`", m.2) := by
  obtain ⟨⟨hplain, htrim⟩, hm, -⟩ := Declaration.everywhere_cons.1 htidy
  -- the headings before the members are those that the list is written behind, and itself
  rw [memberLinks, outline_renderPage hx settings path hplain fun m hmem => (hm m hmem).1,
    hcontents, Declaration.headings, List.map_append, Anchors.anchorsWhere_append,
    Anchors.anchorsWhere_eq_nil (memberHeading_ownHeadings true d),
    ← Anchors.claimHeadings_eq (faithful_ownHeadings true 1 htrim),
    anchorsWhere_membersHeadings _ fun m hmem => (hm m hmem).2, List.nil_append]

/-- **The list of contents of a page leads to the headings of the members**: they are listed in
their order, each with the anchor that its heading gets among all headings of the page. -/
theorem renderPage_contents (hcontents : settings.contents = true)
    (hstart : '\n' ∉ settings.linkStart.toList) (hend : '\n' ∉ settings.linkEnd.toList)
    (k : Catalog) (path : String) (hmembers : d.members ≠ [])
    (htidy : Everywhere Declaration.Tidy [d]) :
    ListsContents (renderPage (.ofCatalog settings k) settings path d) d := by
  have hx := PageIndex.oneLine_ofCatalog k hstart hend
  obtain ⟨⟨hplain, -⟩, hm, -⟩ := Declaration.everywhere_cons.1 htidy
  have hmPlain : Everywhere Declaration.Plain d.members := fun m hmem => (hm m hmem).1
  have hbefore := outline_join_ownBlocks hx settings.collapsible path hplain
  have hafter := outline_document_membersBlocks hx settings.collapsible path hmPlain d.name
  have hlinks := memberLinks_renderPage hcontents hx path htidy
  have houtline : outline (renderPage (.ofCatalog settings k) settings path d) =
      d.headingLines false 1 ++ ⟨2, "Contents"⟩ ::
        (walkAll 2 d.members).flatMap fun e => e.2.headingLines false e.1 := by
    rw [outline_renderPage hx settings path hplain hmPlain, hcontents, Declaration.headings,
      List.map_append, map_asLine_ownHeadings_contents hmembers,
      Declaration.map_asLine_membersHeadings false Nat.one_lt_two, List.append_assoc]
    rfl
  refine ⟨_, _, ?_, ?_, hbefore, hafter, ?_, ?_⟩
  · rw [hlinks, ← text_bullets_members]
    exact renderPage_eq_append hcontents hmembers _ path
  · rw [hlinks, map_fst_zip_memberAnchors]
  · rw [houtline, hbefore, hafter]
  · rw [houtline, filter_contents]

/-- A class two of whose members have the names of headings before theirs: that of a member of a
member, and that of the list. -/
def Declaration.carWithContents : Declaration :=
  bare .classType "Car" [bare .structType "Wheel" [bare .property "size" []],
    bare .property "size" [], bare .property "contents" []]

theorem renderPage_carWithContents :
    ∃ before after,
      renderPage (.ofCatalog { Settings.standard with contents := true } (.ofList [.carWithContents]))
        { Settings.standard with contents := true } "classes/Car.md" .carWithContents =
      before ++ "## Contents\n\n" ++
        "- [`Wheel`](#wheel)\n- [`size`](#size-1)\n- [`contents`](#contents-1)" ++ "\n\n" ++
        after ∧
      outline before = [⟨1, "`Car`"⟩] ∧
      outline after = [⟨2, "`Wheel`"⟩, ⟨3, "`size`"⟩, ⟨2, "`size`"⟩, ⟨2, "`contents`"⟩] := by
  have hcontents : ({ Settings.standard with contents := true } : Settings).contents = true := rfl
  have hmembers : Declaration.carWithContents.members ≠ [] := List.cons_ne_nil _ _
  have htidy : Everywhere Declaration.Tidy [.carWithContents] := by
    have hnone := @Declaration.everywhere_nil Declaration.Tidy
    have hsize : (Declaration.bare .property "size" []).Tidy :=
      Declaration.tidy_bare (by decide) (by decide +kernel) (by decide +kernel)
    refine Declaration.everywhere_cons.2 ⟨?_, Declaration.everywhere_cons.2 ⟨?_,
      Declaration.everywhere_cons.2 ⟨hsize, hnone, hnone⟩,
      Declaration.everywhere_cons.2 ⟨hsize, hnone,
        Declaration.everywhere_cons.2 ⟨?_, hnone, hnone⟩⟩⟩, hnone⟩
    all_goals exact Declaration.tidy_bare (by decide) (by decide +kernel) (by decide +kernel)
  obtain ⟨before, after, hpage, -, hbefore, hafter, -⟩ := renderPage_contents hcontents (by decide)
    (by decide) (.ofList [.carWithContents]) "classes/Car.md" hmembers htidy
  have hlinks : memberLinks (renderPage (.ofCatalog { Settings.standard with contents := true }
      (.ofList [.carWithContents])) { Settings.standard with contents := true } "classes/Car.md"
      .carWithContents) =
      [("`Wheel`", "wheel"), ("`size`", "size-1"), ("`contents`", "contents-1")] := by
    rw [memberLinks_renderPage hcontents (PageIndex.oneLine_ofCatalog _ (by decide) (by decide)) _
      htidy]
    decide +kernel
  have hitems : "\n".intercalate ([("`Wheel`", "wheel"), ("`size`", "size-1"),
      ("`contents`", "contents-1")].map contentsItem) =
      "- [`Wheel`](#wheel)\n- [`size`](#size-1)\n- [`contents`](#contents-1)" := by
    decide +kernel
  rw [hlinks, hitems] at hpage
  exact ⟨before, after, hpage, hbefore.trans (by decide +kernel), hafter.trans (by decide +kernel)⟩

end ApiPages
