import ApiPages.Page.Link
import ApiPages.Proofs.Text.Pieces
import Mathlib.Algebra.Ring.Parity

/-!
# Code spans

The backticks of a line are paired from the left, and what stands between the two of a pair is a
code span. A span is taken with the whole of its line, which says whether it is the text of a
link.
-/

namespace ApiPages

open Text

/-- A code span with the rest of its line. -/
structure CodeSpan where
  before : List Char
  code : List Char
  after : List Char

namespace CodeSpan

/-- The line of a code span. -/
def line (p : CodeSpan) : List Char :=
  p.before ++ PageIndex.span p.code ++ p.after

/-- The span is one of the line: its backticks are a pair when pairs are made from the left. -/
structure In (p : CodeSpan) (line : List Char) : Prop where
  line_eq : p.line = line
  closed : '\x60' ∉ p.code
  paired : Even (p.before.count '\x60')

/-- The span may become a link to the page in prose about `current`. -/
structure Names (p : CodeSpan) (x : PageIndex) (current : String) (target : Page) : Prop where
  page : x.page? (String.ofList p.code) = some target
  notCurrent : String.ofList p.code ≠ current
  notLinkText : PageIndex.isLinkText p.before p.after = false

/-- The span as one of a longer line, which goes on in front of it. -/
def behind (front : List Char) (p : CodeSpan) : CodeSpan :=
  { p with before := front ++ p.before }

end CodeSpan

variable {x : PageIndex} {current : String} {target : Page} {p : CodeSpan}
  {before code tail line : List Char}

/-! ## Spans of a line -/

namespace CodeSpan

/-- A line with at most one backtick has no code span. -/
theorem not_in_of_count_le (h : line.count '\x60' ≤ 1) (p : CodeSpan) : ¬ p.In line := by
  rintro ⟨rfl, -, -⟩
  simp only [CodeSpan.line, PageIndex.span, List.count_append, List.count_cons] at h
  simp at h
  omega

/-- A pair of backticks in front of a line leaves its other pairs as they are. -/
theorem behind_in_iff (hbefore : '\x60' ∉ before) (hcode : '\x60' ∉ code) {q : CodeSpan} :
    (q.behind (before ++ PageIndex.span code)).In (before ++ PageIndex.span code ++ tail) ↔
      q.In tail := by
  have hline : (q.behind (before ++ PageIndex.span code)).line =
      before ++ PageIndex.span code ++ q.line := by
    simp [CodeSpan.line, behind]
  have hcount : (before ++ PageIndex.span code).count '\x60' = 2 := by
    simp [PageIndex.span, List.count_eq_zero.2 hbefore, List.count_eq_zero.2 hcode]
  have heven : Even ((q.behind (before ++ PageIndex.span code)).before.count '\x60') ↔
      Even (q.before.count '\x60') := by
    rw [behind, List.count_append, hcount]
    simp [Nat.even_add]
  constructor
  · rintro ⟨hin, hclosed, hpaired⟩
    exact ⟨List.append_cancel_left (hline.symm.trans hin), hclosed, heven.1 hpaired⟩
  · rintro ⟨rfl, hclosed, hpaired⟩
    exact ⟨hline, hclosed, heven.2 hpaired⟩

/-- A span of a line is the first one, or it stands behind the first two backticks. -/
theorem eq_or_behind (hbefore : '\x60' ∉ before) (hcode : '\x60' ∉ code)
    (h : p.In (before ++ PageIndex.span code ++ tail)) :
    p = ⟨before, code, tail⟩ ∨ ∃ q : CodeSpan, p = q.behind (before ++ PageIndex.span code) := by
  obtain ⟨pbefore, pcode, pafter⟩ := p
  obtain ⟨hline, hclosed, hpaired⟩ := h
  simp only [CodeSpan.line, PageIndex.span, List.append_assoc, List.cons_append,
    List.nil_append] at hline hclosed hpaired
  by_cases hfirst : '\x60' ∈ pbefore
  · right
    -- with the first backtick the second one stands before the span too
    obtain ⟨front, more, rfl, hfront⟩ := List.eq_append_cons_of_mem hfirst
    rw [List.append_assoc, List.cons_append] at hline
    obtain ⟨rfl, hbehind⟩ := append_cons_inj_of_not_mem_left hfront hbefore hline
    have hsecond : '\x60' ∈ more := by
      by_contra hnone
      rw [List.count_append, List.count_cons_self, List.count_eq_zero.2 hfront,
        List.count_eq_zero.2 hnone] at hpaired
      exact absurd hpaired (by decide)
    obtain ⟨inner, rear, rfl, hinner⟩ := List.eq_append_cons_of_mem hsecond
    rw [List.append_assoc, List.cons_append] at hbehind
    obtain ⟨rfl, -⟩ := append_cons_inj_of_not_mem_left hinner hcode hbehind
    exact ⟨⟨rear, pcode, pafter⟩, by simp [behind, PageIndex.span]⟩
  · left
    obtain ⟨rfl, hbehind⟩ := append_cons_inj_of_not_mem_left hfirst hbefore hline
    obtain ⟨rfl, rfl⟩ := append_cons_inj_of_not_mem_left hclosed hcode hbehind
    rfl

/-- **The first two backticks of a line are a pair**, and the other pairs are those of the line
behind them. -/
theorem in_cons_iff (hbefore : '\x60' ∉ before) (hcode : '\x60' ∉ code) :
    p.In (before ++ PageIndex.span code ++ tail) ↔
      p = ⟨before, code, tail⟩ ∨
        ∃ q : CodeSpan, q.In tail ∧ p = q.behind (before ++ PageIndex.span code) := by
  constructor
  · intro h
    refine (eq_or_behind hbefore hcode h).imp_right ?_
    rintro ⟨q, rfl⟩
    exact ⟨q, (behind_in_iff hbefore hcode).1 h, rfl⟩
  · rintro (rfl | ⟨q, hq, rfl⟩)
    · exact ⟨rfl, hcode, by simp [List.count_eq_zero.2 hbefore]⟩
    · exact (behind_in_iff hbefore hcode).2 hq

end CodeSpan

namespace PageIndex

/-- What is behind the next backtick does not make a span the text of a link. -/
theorem isLinkText_joinPieces (before after : List Char) (rest : List (List Char)) :
    isLinkText before (joinPieces '\x60' (after :: rest)) = isLinkText before after := by
  cases rest with
  | nil => rfl
  | cons piece rest =>
    rw [joinPieces_cons_cons, isLinkText, isLinkText]
    congr 1
    match after with
    | [] => simp [List.isPrefixOf]
    | [a] => simp [List.isPrefixOf]
    | a :: b :: cs => simp [List.isPrefixOf]

/-- A span before it does not make a span the text of a link. -/
theorem isLinkText_behind (front code before after : List Char) :
    isLinkText (front ++ span code ++ before) after = isLinkText before after := by
  rw [isLinkText, isLinkText]
  congr 1
  have hspan : (front ++ span code).getLast? = some '\x60' := by
    rw [span, ← List.append_assoc]
    exact List.getLast?_concat
  rw [List.getLast?_append, hspan]
  cases before.getLast? <;> simp

/-- The page that a code span leads to in prose about `current`. -/
def target? (x : PageIndex) (current : String) (code : List Char) : Option Page :=
  if String.ofList code = current then none else x.page? (String.ofList code)

theorem spanLink?_eq (x : PageIndex) (source current : String) (code : List Char) :
    x.spanLink? source current code =
      (x.target? current code).map fun target =>
        (x.linkedSpan target (String.ofList code) source).toList := by
  unfold spanLink? target?
  dsimp only
  split <;> rfl

end PageIndex

theorem CodeSpan.names_iff : p.Names x current target ↔
    PageIndex.isLinkText p.before p.after = false ∧ x.target? current p.code = some target := by
  constructor
  · rintro ⟨hpage, hcurrent, hlink⟩
    exact ⟨hlink, by rw [PageIndex.target?, if_neg hcurrent, hpage]⟩
  · rintro ⟨hlink, htarget⟩
    unfold PageIndex.target? at htarget
    split at htarget
    · cases htarget
    · next hcurrent => exact ⟨htarget, hcurrent, hlink⟩

/-- Which page a span names does not depend on a span in front of it. -/
theorem CodeSpan.names_behind_iff (front : List Char) :
    (p.behind (front ++ PageIndex.span code)).Names x current target ↔
      p.Names x current target := by
  rw [names_iff, names_iff]
  simp only [behind, PageIndex.isLinkText_behind]

end ApiPages
