import ApiPages.Page.Writer
import ApiPages.Proofs.Declaration.Nodes
import ApiPages.Proofs.Page.Assembly

/-!
# Pages that share a document

Without lists of contents nothing that is written of a declaration depends on what stands before it
in the document. So a document of several pages is its pages one after the other, with rules between
them (`renderCollapsed_append`).
-/

namespace ApiPages

open Text (isBlankText trimEnd)

variable {x : PageIndex} {settings : Settings} {path : String} {d : Declaration}
  {ds : List Declaration}

/-! ## Blocks of further pages -/

theorem contentsBlocks_of_without (a : Anchors) (d : Declaration) :
    contentsBlocks a false d = [] := by
  simp [contentsBlocks]

/-- Without contents a page is the same wherever it stands in its document. -/
theorem pageBlocks_congr (h : settings.contents = false) (x : PageIndex) (path : String)
    (a b : Anchors) (d : Declaration) :
    pageBlocks x settings path a d = pageBlocks x settings path b d := by
  rw [pageBlocks, pageBlocks, h, contentsBlocks_of_without, contentsBlocks_of_without]

/-- Further pages are pages as they stand alone, each behind a rule. -/
theorem furtherBlocks_eq_flatMap (h : settings.contents = false) (x : PageIndex) (path : String)
    (a : Anchors) (ds : List Declaration) :
    furtherBlocks x settings path a ds =
      ds.flatMap fun d => .rule :: pageBlocks x settings path .empty d := by
  induction ds generalizing a with
  | nil => rfl
  | cons d ds ih =>
    rw [List.flatMap_cons, ← ih (a.claimHeadings (d.headings settings.contents)).2,
      pageBlocks_congr h x path .empty a]
    rfl

theorem isBlankText_nameHeading (level : Nat) (name : String) :
    isBlankText (Block.heading ⟨level, name, true⟩).text = false := by
  have htick : '\x60' ∈ (Heading.line ⟨level, name, true⟩).toList := by
    simp [Heading.line, Heading.text]
  exact Text.isBlankText_of_mem htick rfl

theorem isBlankText_join_pageBlocks (x : PageIndex) (settings : Settings) (path : String)
    (a : Anchors) (d : Declaration) :
    isBlankText (Block.join (pageBlocks x settings path a d)) = false :=
  Block.isBlankText_join_eq_false (by simp [pageBlocks]) (isBlankText_nameHeading 1 d.name)

/-! ## Documents -/

/-- The document of one page is the page. -/
theorem renderCollapsed_singleton (x : PageIndex) (settings : Settings) (path : String)
    (d : Declaration) : renderCollapsed x settings path [d] = renderPage x settings path d := by
  simp [renderPage, renderCollapsed, furtherBlocks]

/-- **A document of several pages is its pages put together**: one more page stands behind a rule
as it is written alone, and before the rule are the other pages, with blank lines after them. -/
theorem renderCollapsed_append (hcontents : settings.contents = false) (x : PageIndex)
    (path : String) (hds : ds ≠ []) (d : Declaration) :
    (∃ gap, renderCollapsed x settings path (ds ++ [d]) =
        trimEnd (renderCollapsed x settings path ds) ++ gap ++ "---\n\n" ++
          renderPage x settings path d ∧
      isBlankText gap = true ∧ '\n' ∈ gap.toList) ∧
    renderCollapsed x settings path [d] = renderPage x settings path d := by
  refine ⟨?_, renderCollapsed_singleton x settings path d⟩
  have hpages := furtherBlocks_eq_flatMap hcontents x path .empty
  -- a document has the blocks of its pages but for the first rule
  obtain ⟨first, rest, rfl⟩ := List.exists_cons_of_ne_nil hds
  generalize hfront : pageBlocks x settings path .empty first ++
    rest.flatMap (fun d => .rule :: pageBlocks x settings path .empty d) = front
  have hshared : renderCollapsed x settings path (first :: rest) = Block.document front := by
    rw [renderCollapsed, hpages, List.flatMap_cons, ← hfront]
    rfl
  have hlonger : renderCollapsed x settings path (first :: rest ++ [d]) =
      Block.document (front ++ [.rule] ++ pageBlocks x settings path .empty d) := by
    rw [renderCollapsed, hpages, List.flatMap_append, List.flatMap_cons, ← hfront]
    simp
  have hne : front ≠ [] := by
    rw [← hfront]
    simp [pageBlocks]
  obtain ⟨gap, hgap, hblank, hline⟩ := Block.exists_join_eq hne
  refine ⟨gap, ?_, hblank, hline⟩
  have htrim : trimEnd (renderCollapsed x settings path (first :: rest)) =
      trimEnd (Block.join front) := by
    rw [hshared, Block.document, Text.trimEnd_append_blank (by decide), Text.trimEnd_trimEnd]
  rw [hlonger, Block.document_append (isBlankText_join_pageBlocks x settings path .empty d),
    Block.join_append, htrim, ← hgap]
  rfl

/-- The page of a class behind that of a protocol with a member. -/
theorem renderCollapsed_petAndDog :
    ∃ gap, renderCollapsed ⟨[], "", ".md"⟩ .standard "types.md"
        [.bare .protocolType "Pet" [.bare .property "name" []], .bare .classType "Dog" []] =
        trimEnd (renderCollapsed ⟨[], "", ".md"⟩ .standard "types.md"
          [.bare .protocolType "Pet" [.bare .property "name" []]]) ++
          gap ++ "---\n\n" ++ "# `Dog`\n\n```swift\nDog\n```\n" ∧
      isBlankText gap = true ∧ '\n' ∈ gap.toList := by
  have hcontents : Settings.standard.contents = false := rfl
  have hdog : renderPage ⟨[], "", ".md"⟩ .standard "types.md" (.bare .classType "Dog" []) =
      "# `Dog`\n\n```swift\nDog\n```\n" := by
    decide +kernel
  obtain ⟨happend, -⟩ := renderCollapsed_append hcontents ⟨[], "", ".md"⟩ "types.md"
    (List.cons_ne_nil (.bare .protocolType "Pet" [.bare .property "name" []]) [])
    (.bare .classType "Dog" [])
  rwa [hdog] at happend

end ApiPages
