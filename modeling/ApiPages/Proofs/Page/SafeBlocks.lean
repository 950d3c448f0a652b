import ApiPages.Proofs.Page.LinkedSpans
import ApiPages.Proofs.Text.FencedBlocks

/-!
# Blocks that are safe from linking

Linking counts fences, so a line in a block of code is left alone when the stray fences above it
come in pairs. Otherwise it is read as prose, and its code spans become links
(`keeps_inBlock_iff`).
-/

namespace ApiPages

open Text

variable {x : PageIndex} {source current : String} {target : Page} {p : CodeSpan}
  {line : List Char} {above below : List (List Char)} {ss : List Stretch}

/-! ## Lines that linking changes -/

namespace Stretch

/-- A line without links stays as it is. -/
theorem shownLine_eq (h : ∀ p target, ¬ LinksAt ss p target) (x : PageIndex) (source : String) :
    shownLine x source ss = writtenLine ss := by
  refine List.flatMap_congr fun s hs => ?_
  cases s with
  | kept cs => rfl
  | linked code target =>
    obtain ⟨ss₁, ss₂, hss⟩ := List.append_of_mem hs
    exact absurd ⟨ss₁, ss₂, hss, rfl, rfl⟩ (h ⟨writtenLine ss₁, code, writtenLine ss₂⟩ target)

theorem length_linked_lt (x : PageIndex) (source : String) (code : List Char) (target : Page) :
    (linked code target).written.length < ((linked code target).shown x source).length := by
  simp [written, shown, PageIndex.span, PageIndex.linkedSpan]

theorem length_writtenLine_le (x : PageIndex) (source : String) (ss : List Stretch) :
    (writtenLine ss).length ≤ (shownLine x source ss).length := by
  induction ss with
  | nil => exact Nat.le_refl 0
  | cons s ss ih =>
    have hs : s.written.length ≤ (s.shown x source).length := by
      cases s with
      | kept cs => exact Nat.le_refl _
      | linked code target => exact (length_linked_lt x source code target).le
    rw [writtenLine_cons, shownLine_cons, List.length_append, List.length_append]
    exact Nat.add_le_add hs ih

/-- A link makes its line longer. -/
theorem LinksAt.length_lt (h : LinksAt ss p target) (x : PageIndex) (source : String) :
    (writtenLine ss).length < (shownLine x source ss).length := by
  obtain ⟨ss₁, ss₂, rfl, -, -⟩ := h
  have hfirst := length_writtenLine_le x source ss₁
  have hlink := length_linked_lt x source p.code target
  have hlast := length_writtenLine_le x source ss₂
  have hwritten : writtenLine (ss₁ ++ linked p.code target :: ss₂) =
      writtenLine ss₁ ++ ((linked p.code target).written ++ writtenLine ss₂) := by
    rw [writtenLine, List.flatMap_append, List.flatMap_cons]
    rfl
  have hshown : shownLine x source (ss₁ ++ linked p.code target :: ss₂) =
      shownLine x source ss₁ ++
        ((linked p.code target).shown x source ++ shownLine x source ss₂) := by
    rw [shownLine, List.flatMap_append, List.flatMap_cons]
    rfl
  rw [hwritten, hshown]
  simp only [List.length_append]
  omega

end Stretch

namespace PageIndex

/-- A line of prose stays as it is just when none of its code spans is to become a link. -/
theorem linkLine_eq_self_iff :
    linkLine (x.spanLink? source current) line = line ↔
      ∀ (p : CodeSpan) (target : Page), p.In line → ¬ p.Names x current target := by
  rw [← Stretch.shownLine_ofLine]
  constructor
  · intro hsame p target hin hnames
    have hlt := (Stretch.linksAt_ofLine_iff.2 ⟨hin, hnames⟩).length_lt x source
    rw [hsame, Stretch.writtenLine_ofLine] at hlt
    exact Nat.lt_irrefl _ hlt
  · intro hnone
    rw [Stretch.shownLine_eq fun p target hlinks => ?_, Stretch.writtenLine_ofLine]
    obtain ⟨hin, hnames⟩ := Stretch.linksAt_ofLine_iff.1 hlinks
    exact hnone p target hin hnames

theorem exists_page?_classIndex (name : String) :
    ∃ target, (classIndex name).page? name = some target :=
  ⟨⟨name, .classes, pagePath .classes name false, none⟩, by
    have hpages : (classIndex name).pages =
        [⟨name, .classes, pagePath .classes name false, none⟩] := rfl
    simp [page?, hpages]⟩

/-- A line is left alone by every index, wherever it stands and whatever is described there, just
when all its code spans are the text of links. -/
theorem linkLine_eq_self_forall_iff :
    (∀ (x : PageIndex) (source current : String),
        linkLine (x.spanLink? source current) line = line) ↔
      ∀ p : CodeSpan, p.In line → isLinkText p.before p.after = true := by
  simp only [linkLine_eq_self_iff]
  constructor
  · intro h p hin
    by_contra hlink
    -- a class may have the name in the span
    obtain ⟨target, htarget⟩ := exists_page?_classIndex (String.ofList p.code)
    have hother : String.ofList p.code ≠ String.ofList ('x' :: p.code) := by
      intro heq
      simpa using congrArg List.length (String.ofList_injective heq)
    exact h _ "" _ p target hin ⟨htarget, hother, Bool.eq_false_iff.2 hlink⟩
  · intro h x source current p target hin hnames
    cases hnames.notLinkText.symm.trans (h p hin)

/-- **Which lines of a block are safe from linking.** A line inside a block of code is left alone by
every index when it begins like a fence itself, when the stray fences above it come in pairs, or
when all its code spans are the text of links; and only then. -/
theorem keeps_inBlock_iff {text : String}
    (htext : pieces '\n' text.toList = above ++ line :: below) (hblock : InBlock above line) :
    (∀ (x : PageIndex) (source current : String),
        (x.linkedLines source current text)[above.length]? = some line) ↔
      isFence line = true ∨ Even (strays none above) ∨
        ∀ p : CodeSpan, p.In line → isLinkText p.before p.after = true := by
  have hline : ∀ (x : PageIndex) (source current : String),
      (x.linkedLines source current text)[above.length]? = some line ↔
        (IsCode above line ∨ linkLine (x.spanLink? source current) line = line) := by
    intro x source current
    rw [linkedLines, htext, getElem?_linkLines, Option.some_inj]
    split
    · next hcode => simp [hcode]
    · next hcode => simp [hcode]
  simp only [hline]
  rw [← or_assoc, ← isCode_iff_of_inBlock hblock, ← linkLine_eq_self_forall_iff]
  by_cases hcode : IsCode above line <;> simp [hcode]

/-- Two short fences in a block with longer ones keep its lines safe. -/
theorem keeps_behind_shortFences :
    pieces '\n' "\x60\x60\x60\x60\n\x60\x60\x60\n\x60\x60\x60\n\x60Dog\x60".toList =
      ["\x60\x60\x60\x60".toList, fenceMark, fenceMark] ++ "\x60Dog\x60".toList :: [] ∧
    InBlock ["\x60\x60\x60\x60".toList, fenceMark, fenceMark] "\x60Dog\x60".toList ∧
    ∀ (x : PageIndex) (source current : String),
      (x.linkedLines source current
          "\x60\x60\x60\x60\n\x60\x60\x60\n\x60\x60\x60\n\x60Dog\x60")[3]? =
        some "\x60Dog\x60".toList := by
  have htext : pieces '\n' "\x60\x60\x60\x60\n\x60\x60\x60\n\x60\x60\x60\n\x60Dog\x60".toList =
      ["\x60\x60\x60\x60".toList, fenceMark, fenceMark] ++ "\x60Dog\x60".toList :: [] := by
    decide +kernel
  have hblock : InBlock ["\x60\x60\x60\x60".toList, fenceMark, fenceMark] "\x60Dog\x60".toList :=
    ⟨4, by decide +kernel, by decide +kernel⟩
  exact ⟨htext, hblock, (keeps_inBlock_iff htext hblock).2 (.inr (.inl (by decide +kernel)))⟩

/-- A single short fence in such a block lets the code spans behind it become links. -/
theorem not_keeps_behind_shortFence :
    ¬ ∀ (text : String) (above : List (List Char)) (line : List Char) (below : List (List Char)),
      pieces '\n' text.toList = above ++ line :: below → InBlock above line →
        ∀ (x : PageIndex) (source current : String),
          (x.linkedLines source current text)[above.length]? = some line := by
  intro h
  have hkept := h "\x60\x60\x60\x60\n\x60\x60\x60\n\x60Dog\x60\n\x60\x60\x60\x60"
    ["\x60\x60\x60\x60".toList, fenceMark] "\x60Dog\x60".toList ["\x60\x60\x60\x60".toList]
    (by decide +kernel) ⟨4, by decide +kernel, by decide +kernel⟩ (classIndex "Dog") "README.md" ""
  exact absurd hkept (by decide +kernel)

end PageIndex

end ApiPages
