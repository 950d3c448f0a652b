import ApiPages.Page.Block
import ApiPages.Proofs.Text.Marks

/-!
# The outline of a document

The outline of a text are its headings outside blocks of code. Each block of a document has a part
in the outline that does not depend on the others, as long as its own text brings no marks with it:
then a document has the headings that were written into it, and no others.
-/

namespace ApiPages

open Text (Mark HeadingLine marks isPlainStart)

/-- The headings among some marks that are not in a block of code, given whether one is open. -/
def outside : Bool → List Mark → List HeadingLine
  | _, [] => []
  | inCode, .fence :: ms => outside (!inCode) ms
  | true, .heading _ :: ms => outside true ms
  | false, .heading h :: ms => h :: outside false ms

/-- The headings of a text outside blocks of code. -/
def outline (text : String) : List HeadingLine :=
  outside false (marks text.toList)

/-- Marks that have some headings, whatever follows them: every block of code among them is
closed. -/
def Closed (ms : List Mark) (hs : List HeadingLine) : Prop :=
  ∀ more, outside false (ms ++ more) = hs ++ outside false more

namespace Closed

variable {ms ns : List Mark} {hs ks : List HeadingLine}

theorem nil : Closed [] [] :=
  fun _ => rfl

theorem append (h : Closed ms hs) (k : Closed ns ks) : Closed (ms ++ ns) (hs ++ ks) := by
  intro more
  rw [List.append_assoc, h, k, List.append_assoc]

theorem heading (h : HeadingLine) : Closed [.heading h] [h] :=
  fun _ => rfl

/-- Headings in a block of code do not count. -/
theorem code (h : .fence ∉ ms) : Closed (.fence :: ms ++ [.fence]) [] := by
  intro more
  show outside true (ms ++ [.fence] ++ more) = outside false more
  induction ms with
  | nil => rfl
  | cons m ms ih =>
    rw [List.mem_cons, not_or] at h
    cases m with
    | fence => exact absurd rfl h.1
    | heading _ => exact ih h.2

theorem outside_eq (h : Closed ms hs) : outside false ms = hs := by
  have hnil := h []
  rwa [List.append_nil, outside, List.append_nil] at hnil

end Closed

/-- A heading as it is read in a document. -/
def Heading.asLine (h : Heading) : HeadingLine :=
  ⟨min h.level 6, h.text⟩

namespace Block

/-- The part of a block in the outline. -/
def outline : Block → List HeadingLine
  | .heading h => [h.asLine]
  | _ => []

/-- A block whose text brings no marks with it. -/
def Clean (b : Block) : Prop :=
  Closed (marks b.text.toList) b.outline

variable {bs : List Block}

/-! ## Blocks -/

theorem clean_of_marks {b : Block} (ho : b.outline = []) (hm : marks b.text.toList = []) :
    b.Clean := by
  rw [Clean, ho, hm]
  exact Closed.nil

theorem clean_heading {h : Heading} (hlevel : 0 < h.level) (hline : '\n' ∉ h.text.toList)
    (htrim : Text.dropBlanks h.text.toList = h.text.toList) : (Block.heading h).Clean := by
  obtain ⟨n, hn⟩ : ∃ n, min h.level 6 = n + 1 := ⟨min h.level 6 - 1, by omega⟩
  have htext : (Block.heading h).text.toList =
      List.replicate (n + 1) '#' ++ ' ' :: h.text.toList := by
    show h.line.toList = _
    simp [Heading.line, hn]
  have hnl : '\n' ∉ (Block.heading h).text.toList := by
    rw [htext]
    simp [hline]
  have hmark : Text.mark? (Block.heading h).text.toList = some (.heading ⟨n + 1, h.text⟩) := by
    rw [htext, Text.mark?_of_heading n htrim, String.ofList_toList]
  rw [Clean, Text.marks_of_line hnl, hmark, Block.outline, Heading.asLine, hn]
  exact Closed.heading _

theorem clean_code {signature : String} (h : .fence ∉ marks signature.toList) :
    (Block.code signature).Clean := by
  have htext : (Block.code signature).text.toList = "```swift".toList ++
      '\n' :: ((Text.trimEnd signature).toList ++ '\n' :: "```".toList) := by
    show ("```swift\n" ++ Text.trimEnd signature ++ "\n```").toList = _
    simp
  have hopen : marks "```swift".toList = [.fence] := by
    rw [Text.marks_of_line (by decide)]
    rfl
  have hclose : marks "```".toList = [.fence] := by
    rw [Text.marks_of_line (by decide)]
    rfl
  rw [Clean, htext, Text.marks_append_cons, Text.marks_append_cons, hopen, hclose,
    Text.marks_trimEnd]
  exact Closed.code h

theorem clean_prose {text : String} (h : marks text.toList = []) : (Block.prose text).Clean :=
  clean_of_marks rfl h

theorem clean_bullets {items : List String}
    (h : ∀ item ∈ items, marks ("- " ++ item).toList = []) : (Block.bullets items).Clean := by
  refine clean_of_marks rfl ?_
  have htext : (Block.bullets items).text.toList =
      Text.joinPieces '\n' (items.map fun item => ("- " ++ item).toList) := by
    show ("\n".intercalate (items.map ("- " ++ ·))).toList = _
    rw [Text.toList_intercalate_newline, List.map_map]
    rfl
  rw [htext, Text.marks_joinPieces, List.flatMap_eq_nil_iff]
  intro line hline
  obtain ⟨item, hitem, rfl⟩ := List.mem_map.1 hline
  exact h item hitem

theorem clean_detailsStart {name : String} (h : '\n' ∉ name.toList) :
    (Block.detailsStart name).Clean := by
  refine clean_of_marks rfl ?_
  have htext : (Block.detailsStart name).text.toList = "<details>".toList ++
      '\n' :: ('<' :: ("summary><code>".toList ++ name.toList ++ "</code></summary>".toList) ++
        []) := by
    show ("<details>\n<summary><code>" ++ name ++ "</code></summary>").toList = _
    simp
  rw [htext, Text.marks_append_cons,
    Text.marks_of_plainStart (by decide) (by simp [h]) Text.marks_nil, List.append_nil,
    Text.marks_of_line (by decide)]
  rfl

theorem clean_detailsEnd : Block.detailsEnd.Clean := by
  refine clean_of_marks rfl ?_
  show marks "</details>".toList = []
  rw [Text.marks_of_line (by decide)]
  rfl

theorem clean_rule : Block.rule.Clean := by
  refine clean_of_marks rfl ?_
  show marks "---".toList = []
  rw [Text.marks_of_line (by decide)]
  rfl

/-! ## Documents -/

theorem toList_join (b : Block) (bs : List Block) :
    (join (b :: bs)).toList = b.text.toList ++ '\n' :: '\n' :: (join bs).toList := by
  simp [join, String.toList_join]

theorem closed_join (h : ∀ b ∈ bs, b.Clean) :
    Closed (marks (join bs).toList) (bs.flatMap Block.outline) := by
  induction bs with
  | nil => exact Closed.nil
  | cons b bs ih =>
    rw [List.forall_mem_cons] at h
    have hempty : '\n' :: (join bs).toList = [] ++ '\n' :: (join bs).toList := rfl
    rw [toList_join, Text.marks_append_cons, hempty, Text.marks_append_cons, Text.marks_nil,
      List.nil_append, List.flatMap_cons]
    exact h.1.append (ih h.2)

theorem outline_join (h : ∀ b ∈ bs, b.Clean) :
    ApiPages.outline (join bs) = bs.flatMap Block.outline :=
  (closed_join h).outside_eq

/-- **A document has the headings that its blocks are.** -/
theorem outline_document (h : ∀ b ∈ bs, b.Clean) :
    ApiPages.outline (document bs) = bs.flatMap Block.outline := by
  have htext : (document bs).toList = (Text.trimEnd (join bs)).toList ++ ['\n'] := by
    simp [document]
  rw [ApiPages.outline, htext, Text.marks_append_blank (by decide), Text.marks_trimEnd,
    ← outline_join h, ApiPages.outline]

end Block

end ApiPages
