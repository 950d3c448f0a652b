import ApiPages.Page.Block
import ApiPages.Proofs.Text.Trimmed

/-!
# Documents put together

A document is its blocks one after the other, trimmed at the end. So the blocks in front of one that
is not blank stand in the document as they are, and what comes behind them is a document by itself
(`document_append`).
-/

namespace ApiPages.Block

open Text (isBlankText trimEnd)

variable {b : Block} {bs cs : List Block}

theorem join_cons (b : Block) (bs : List Block) :
    join (b :: bs) = b.text ++ "\n\n" ++ join bs := by
  simp [join, String.join_cons]

theorem join_append (bs cs : List Block) : join (bs ++ cs) = join bs ++ join cs := by
  simp [join]

/-- Blocks are blank if all of them are. -/
theorem isBlankText_join_eq_false (hb : b ∈ bs) (h : isBlankText b.text = false) :
    isBlankText (join bs) = false := by
  obtain ⟨xs, ys, rfl⟩ := List.append_of_mem hb
  rw [join_append, join_cons]
  simp [Text.isBlankText_append, h]

/-- **A document begins with the blocks that stand in front of others** which are not blank, and
goes on as the document of these. -/
theorem document_append (h : isBlankText (join cs) = false) (bs : List Block) :
    document (bs ++ cs) = join bs ++ document cs := by
  rw [document, join_append, Text.trimEnd_append h, document, String.append_assoc]

/-- A document begins with the text of its first block, if that ends with no blank, and a line
end. -/
theorem exists_document_cons_eq (h : trimEnd b.text = b.text) (bs : List Block) :
    ∃ after, document (b :: bs) = b.text ++ "\n" ++ after := by
  have htrim : trimEnd (join (b :: bs)) = b.text ++ trimEnd ("\n\n" ++ join bs) := by
    rw [join_cons, String.append_assoc, Text.trimEnd_append_of_trimmed h]
  rw [document, htrim]
  cases hbs : isBlankText (join bs) with
  | true =>
    refine ⟨"", ?_⟩
    rw [Text.trimEnd_append_blank hbs, Text.trimEnd_of_blank (t := "\n\n") rfl]
    simp
  | false =>
    refine ⟨"\n" ++ trimEnd (join bs) ++ "\n", ?_⟩
    rw [Text.trimEnd_append hbs]
    simp [← String.toList_inj]

/-- Blocks end with empty lines. -/
theorem exists_join_eq (h : bs ≠ []) :
    ∃ gap, join bs = trimEnd (join bs) ++ gap ∧ isBlankText gap = true ∧ '\n' ∈ gap.toList := by
  obtain ⟨front, b, rfl⟩ := (List.eq_nil_or_concat' bs).resolve_left h
  have hjoin : join (front ++ [b]) = join front ++ b.text ++ "\n" ++ "\n" := by
    rw [join_append, join_cons]
    simp [join, String.append_assoc]
  -- the last line end is apart from what the others leave to trim
  obtain ⟨gap, hgap, hblank⟩ := Text.exists_trimEnd_append_eq (join front ++ b.text ++ "\n")
  refine ⟨gap ++ "\n", ?_, ?_, by simp⟩
  · rw [hjoin, Text.trimEnd_append_blank (by decide), ← String.append_assoc, hgap]
  · rw [Text.isBlankText_append, hblank]
    rfl

end ApiPages.Block
