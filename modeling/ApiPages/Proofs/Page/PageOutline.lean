import ApiPages.Page.Footer
import ApiPages.Proofs.Page.Plain

/-!
# The outline of a page

The headings that the index claims anchors for, before any page is written, are the headings that
the pages have. For one declaration both follow the tree; the blocks between the headings have no
part in the outline.
-/

namespace ApiPages

open Text (HeadingLine marks)
open Declaration (Everywhere Plain membersHeadings)

/-! ## Headings -/

namespace Declaration

theorem sections_eq (contents : Bool) (d : Declaration) :
    d.sections contents = d.sections false ++
      if contents && !d.members.isEmpty then [.contents] else [] := by
  simp [sections]

theorem memberHeadings_eq (level : Nat) (d : Declaration) :
    d.memberHeadings level =
      d.ownHeadings false level ++ membersHeadings (level + 1) d.members := by
  cases d
  rw [memberHeadings]

theorem membersHeadings_eq_flatMap (level : Nat) (ds : List Declaration) :
    membersHeadings level ds = ds.flatMap (memberHeadings level) := by
  induction ds with
  | nil => rfl
  | cons d ds ih => rw [membersHeadings, ih, List.flatMap_cons]

end Declaration

namespace Scope

variable {s : Scope} {level : Nat} {d : Declaration}

theorem outline_inheritanceBlocks (s : Scope) (level : Nat) (names : List String) :
    (s.inheritanceBlocks level names).flatMap Block.outline =
      (if names.isEmpty then [] else [Section.inheritance]).map
        fun t => Heading.asLine ⟨level + 1, t.title, false⟩ := by
  unfold inheritanceBlocks
  split <;> rfl

theorem outline_parameterBlocks (s : Scope) (level : Nat) (kind : Kind) (ps : List Parameter) :
    (s.parameterBlocks level kind ps).flatMap Block.outline =
      (if kind = .function ∧ ps ≠ [] then [Section.parameters] else []).map
        fun t => Heading.asLine ⟨level + 1, t.title, false⟩ := by
  unfold parameterBlocks
  split <;> rfl

theorem outline_textSection (s : Scope) (level : Nat) (title : Section) (text : Option String) :
    (s.textSection level title text).flatMap Block.outline =
      (if text.isSome then [title] else []).map
        fun t => Heading.asLine ⟨level + 1, t.title, false⟩ := by
  cases text <;> rfl

/-- The sections that are written before the members are those that the index knows. -/
theorem outline_ownBlocks (s : Scope) (level : Nat) (d : Declaration) :
    (s.ownBlocks level d).flatMap Block.outline =
      (d.sections false).map fun t => Heading.asLine ⟨level + 1, t.title, false⟩ := by
  -- the summary and the discussion have no headings of their own
  have hsummary : ∀ text : String, (if text.isEmpty then [] else
      [Block.prose (s.prose text)]).flatMap Block.outline = [] := by
    intro text
    split <;> rfl
  have hdiscussion : ∀ text : Option String,
      ((text.map fun t => Block.prose (s.prose t)).toList).flatMap Block.outline = [] := by
    intro text
    cases text <;> rfl
  simp only [ownBlocks, Declaration.sections, List.flatMap_append, List.map_append,
    outline_inheritanceBlocks, outline_parameterBlocks, outline_textSection, hsummary, hdiscussion,
    List.append_nil, Bool.false_and, Bool.false_eq_true, if_false]
  rfl

theorem outline_membersBlocks_of {ds : List Declaration} (h : ∀ m ∈ ds,
      (s.memberBlocks level m).flatMap Block.outline =
        (m.memberHeadings level).map Heading.asLine) :
    (s.membersBlocks level ds).flatMap Block.outline =
      (membersHeadings level ds).map Heading.asLine := by
  rw [membersBlocks_eq_flatMap, Declaration.membersHeadings_eq_flatMap, List.flatMap_assoc,
    List.map_flatMap]
  exact List.flatMap_congr h

/-- The headings of a member and of all below it are written in the order of the tree. -/
theorem outline_memberBlocks (s : Scope) (level : Nat) (d : Declaration) :
    (s.memberBlocks level d).flatMap Block.outline =
      (d.memberHeadings level).map Heading.asLine := by
  induction d using Declaration.induct generalizing level with
  | step d ih =>
    have hmembers := outline_membersBlocks_of fun m hm => ih m hm (level + 1)
    rw [memberBlocks_eq, Declaration.memberHeadings_eq, List.flatMap_cons, outline_folded,
      List.flatMap_append, outline_ownBlocks, hmembers, Declaration.ownHeadings, List.map_append,
      List.map_cons, List.map_map, List.cons_append]
    rfl

theorem outline_membersBlocks (s : Scope) (level : Nat) (ds : List Declaration) :
    (s.membersBlocks level ds).flatMap Block.outline =
      (membersHeadings level ds).map Heading.asLine :=
  outline_membersBlocks_of fun m _ => outline_memberBlocks s level m

end Scope

/-! ## Pages -/

variable {x : PageIndex} {d : Declaration} {ds : List Declaration}

theorem not_mem_memberAnchors {c : Char} (hc : slugChar? c = none) (hdigit : c.isDigit = false)
    (a : Anchors) (ds : List Declaration) :
    ∀ anchor ∈ memberAnchors a ds, c ∉ anchor.toList := by
  induction ds generalizing a with
  | nil => simp [memberAnchors]
  | cons d ds ih =>
    simp only [memberAnchors, List.forall_mem_cons]
    exact ⟨Anchors.not_mem_claimHeadings hc hdigit a _, ih _⟩

theorem clean_contentsBlocks (a : Anchors) (contents : Bool) (h : Everywhere Plain d.members) :
    ∀ b ∈ contentsBlocks a contents d, b.Clean := by
  simp only [contentsBlocks]
  split
  · intro b hb
    simp only [List.mem_cons, List.not_mem_nil, or_false] at hb
    rcases hb with rfl | rfl
    · exact clean_sectionHeading 1 _
    · -- an item of the contents begins with a dash and stays in its line
      refine Block.clean_bullets ?_
      intro item hitem
      obtain ⟨m, hm, rfl⟩ := List.mem_map.1 hitem
      obtain ⟨hmember, hanchor⟩ := List.of_mem_zip hm
      have hname := (Declaration.everywhere_iff_forall.1 h m.1 hmember).1.name
      have hline := not_mem_memberAnchors (c := '\n') (by decide) (by decide) _ _ m.2 hanchor
      have htext : ("- " ++ ("[\x60" ++ m.1.name ++ "\x60](#" ++ m.2 ++ ")")).toList =
          '-' :: (" [\x60".toList ++ m.1.name.toList ++ "\x60](#".toList ++ m.2.toList ++
            ")".toList) ++ [] := by
        simp
      rw [htext]
      exact Text.marks_of_plainStart (by decide) (by simp [hname, hline]) Text.marks_nil
  · simp

theorem outline_contentsBlocks (a : Anchors) (contents : Bool) (d : Declaration) :
    (contentsBlocks a contents d).flatMap Block.outline =
      (if contents && !d.members.isEmpty then [Section.contents] else []).map
        fun t => Heading.asLine ⟨1 + 1, t.title, false⟩ := by
  simp only [contentsBlocks]
  split <;> rfl

theorem clean_pageBlocks (hx : x.OneLine) (settings : Settings) (path : String) (a : Anchors)
    (hd : d.Plain) (hm : Everywhere Plain d.members) :
    ∀ b ∈ pageBlocks x settings path a d, b.Clean := by
  intro b hb
  simp only [pageBlocks, List.mem_append, List.mem_cons] at hb
  rcases hb with ((rfl | hb) | hb) | hb
  · exact clean_nameHeading Nat.one_pos hd.name
  · exact Scope.clean_ownBlocks hx hd 1 b hb
  · exact clean_contentsBlocks a _ hm b hb
  · exact Scope.clean_membersBlocks hx Nat.two_pos hm b hb

/-- **A page has the headings of its declaration.** -/
theorem outline_pageBlocks (x : PageIndex) (settings : Settings) (path : String) (a : Anchors)
    (d : Declaration) :
    (pageBlocks x settings path a d).flatMap Block.outline =
      (d.headings settings.contents).map Heading.asLine := by
  have hsections := Declaration.sections_eq settings.contents d
  simp only [pageBlocks, List.cons_append, List.flatMap_cons, List.flatMap_append,
    Scope.outline_ownBlocks, Scope.outline_membersBlocks, outline_contentsBlocks, Declaration.headings,
    Declaration.ownHeadings, hsections, List.map_append, List.map_cons, List.map_map]
  rfl

theorem outline_renderPage (hx : x.OneLine) (settings : Settings) (path : String)
    (hd : d.Plain) (hm : Everywhere Plain d.members) :
    outline (renderPage x settings path d) = (d.headings settings.contents).map Heading.asLine := by
  rw [renderPage, Block.outline_document (clean_pageBlocks hx settings path .empty hd hm),
    outline_pageBlocks]

/-! ## Pages that share a document -/

theorem clean_furtherBlocks (hx : x.OneLine) (settings : Settings) (path : String) (a : Anchors)
    (h : Everywhere Plain ds) : ∀ b ∈ furtherBlocks x settings path a ds, b.Clean := by
  induction ds generalizing a with
  | nil => simp [furtherBlocks]
  | cons d ds ih =>
    obtain ⟨hd, hm, hs⟩ := Declaration.everywhere_cons.1 h
    intro b hb
    simp only [furtherBlocks, List.mem_append, List.mem_cons] at hb
    rcases hb with (rfl | hb) | hb
    · exact Block.clean_rule
    · exact clean_pageBlocks hx settings path a hd hm b hb
    · exact ih _ hs b hb

theorem outline_furtherBlocks (x : PageIndex) (settings : Settings) (path : String) (a : Anchors)
    (ds : List Declaration) :
    (furtherBlocks x settings path a ds).flatMap Block.outline =
      ds.flatMap fun d => (d.headings settings.contents).map Heading.asLine := by
  induction ds generalizing a with
  | nil => rfl
  | cons d ds ih =>
    simp only [furtherBlocks, List.cons_append, List.flatMap_cons, List.flatMap_append, ih,
      outline_pageBlocks]
    rfl

/-- **The headings of a document of several pages** are those of its declarations, one after the
other. -/
theorem outline_renderCollapsed (hx : x.OneLine) (settings : Settings) (path : String)
    (h : Everywhere Plain ds) :
    outline (renderCollapsed x settings path ds) =
      ds.flatMap fun d => (d.headings settings.contents).map Heading.asLine := by
  have hclean := clean_furtherBlocks hx settings path .empty h
  rw [renderCollapsed, Block.outline_document fun b hb => hclean b (List.mem_of_mem_drop hb),
    ← outline_furtherBlocks x settings path .empty ds]
  -- the rule that is left out is no heading
  cases ds with
  | nil => rfl
  | cons d ds => rfl

/-! ## Footers -/

theorem newline_not_mem_padded (width n : Nat) : '\n' ∉ (padded width n).toList := by
  have hdigits := newline_not_mem_toDigits n
  simp [padded, hdigits]

theorem newline_not_mem_yearText (year : Int) : '\n' ∉ (yearText year).toList := by
  have hnegative := newline_not_mem_padded 4 year.natAbs
  have hpositive := newline_not_mem_padded 4 year.toNat
  have hdigits := newline_not_mem_toDigits year.toNat
  unfold yearText
  split
  · simp [hnegative]
  · split <;> simp [hpositive, hdigits]

theorem newline_not_mem_text (t : Instant) : '\n' ∉ t.text.toList := by
  simp [Instant.text, newline_not_mem_yearText, newline_not_mem_padded]

theorem marks_footer {time : String} (h : '\n' ∉ time.toList) :
    marks (footer time).toList = [] := by
  have hfirst : "---\n\nThis file was generated by ".toList = "---".toList ++
      '\n' :: ([] ++ '\n' :: 'T' :: "his file was generated by ".toList) := rfl
  have hlink : '\n' ∉ "[SourceDocs](https://github.com/sourcedocs/sourcedocs) on ".toList := by
    decide
  have hrule : marks "---".toList = [] := by
    rw [Text.marks_of_line (by decide)]
    rfl
  unfold footer
  rw [String.toList_append, String.toList_append, String.toList_append, hfirst]
  -- the text of the link stays closed from here on
  generalize "[SourceDocs](https://github.com/sourcedocs/sourcedocs) on ".toList = link at hlink
  simp only [List.append_assoc, List.cons_append, List.nil_append]
  rw [Text.marks_append_cons, hrule, Text.marks_cons_blank (by decide), List.nil_append,
    ← List.append_assoc, ← List.append_assoc, ← List.cons_append]
  exact Text.marks_of_plainStart (by decide) (by simp [hlink, h]) rfl

/-- A stamp keeps the outline of a document. -/
theorem outline_stamped {time : String} (h : '\n' ∉ time.toList) (content : String) :
    outline (content ++ "\n" ++ footer time) = outline content := by
  have htext : (content ++ "\n" ++ footer time).toList =
      content.toList ++ '\n' :: (footer time).toList := by
    simp
  rw [outline, htext, Text.marks_append_cons, marks_footer h, List.append_nil, outline]

end ApiPages
