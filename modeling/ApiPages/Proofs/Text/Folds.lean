import ApiPages.Text.Blank
import Mathlib.Data.List.Infix

/-!
# Folds of a text

The tags `<details>` and `</details>` enclose what can be folded away. A text is read tag by tag:
an opening tag begins a fold and a closing tag ends the fold that began last, so that a text whose
tags are balanced is a forest of folds. The reader accepts what is written of a forest and nothing
else (`readFolds_eq_some_iff`).
-/

namespace ApiPages.Text

/-! ## Tags -/

/-- A tag at an end of a fold. -/
inductive FoldTag where
  | opening
  | closing
deriving DecidableEq, Repr

/-- The tag as it is written. -/
def FoldTag.text : FoldTag → List Char
  | opening => "<details>".toList
  | closing => "</details>".toList

/-- The tag that a text begins with. -/
def tagAt? (cs : List Char) : Option FoldTag :=
  if FoldTag.opening.text.isPrefixOf cs then some .opening
  else if FoldTag.closing.text.isPrefixOf cs then some .closing
  else none

/-- A tag, or a character that belongs to none. -/
inductive FoldMark where
  | char (c : Char)
  | tag (t : FoldTag)
deriving DecidableEq, Repr

/-- The marks of a text behind the characters at its beginning that a tag has been read from. -/
def foldMarksFrom : (skipped : Nat) → List Char → List FoldMark
  | _, [] => []
  | n + 1, _ :: cs => foldMarksFrom n cs
  | 0, c :: cs =>
    match tagAt? (c :: cs) with
    | some t => .tag t :: foldMarksFrom (t.text.length - 1) cs
    | none => .char c :: foldMarksFrom 0 cs

/-- The tags of a text and the characters between them, in order. -/
def foldMarks (cs : List Char) : List FoldMark :=
  foldMarksFrom 0 cs

/-- Characters without a tag. -/
def plainMarks (cs : List Char) : List FoldMark :=
  cs.map .char

/-- The mark as it is written. -/
def FoldMark.text : FoldMark → List Char
  | char c => [c]
  | tag t => t.text

/-! ## Folds -/

/-- A part of a text: a character, or what stands between two tags that belong together. -/
inductive Fold where
  | char (c : Char)
  | block (inside : List Fold)
deriving Repr

namespace Fold

mutual

/-- The marks that a part of a text is read from. -/
def marks : Fold → List FoldMark
  | char c => [.char c]
  | block inside => .tag .opening :: marksAll inside ++ [.tag .closing]

/-- The marks that parts of a text are read from. -/
def marksAll : List Fold → List FoldMark
  | [] => []
  | f :: fs => f.marks ++ marksAll fs

end

/-- The text that consists of some parts. -/
def textAll (fs : List Fold) : List Char :=
  (marksAll fs).flatMap FoldMark.text

mutual

/-- What the folds of a part enclose, each with its depth: a fold comes before those in it, which
are one level deeper. -/
def enclosed (depth : Nat) : Fold → List (Nat × String)
  | char _ => []
  | block inside => (depth, String.ofList (textAll inside)) :: enclosedAll (depth + 1) inside

/-- What the folds among some parts enclose. -/
def enclosedAll (depth : Nat) : List Fold → List (Nat × String)
  | [] => []
  | f :: fs => f.enclosed depth ++ enclosedAll depth fs

end

end Fold

/-- The forest that marks are read as, given what has been read since the last fold began and, from
the innermost on, what had been read before each fold that is open. -/
def nest : (done : List Fold) → (outer : List (List Fold)) → List FoldMark → Option (List Fold)
  | done, [], [] => some done
  | _, _ :: _, [] => none
  | done, outer, .char c :: ms => nest (done ++ [.char c]) outer ms
  | done, outer, .tag .opening :: ms => nest [] (done :: outer) ms
  | done, before :: outer, .tag .closing :: ms => nest (before ++ [.block done]) outer ms
  | _, [], .tag .closing :: _ => none

/-- The folds of a text, unless its tags are not balanced. -/
def readFolds (cs : List Char) : Option (List Fold) :=
  nest [] [] (foldMarks cs)

/-- What the folds of a text enclose, in the order in which they begin and each with its depth, if
the tags of the text are balanced. The outermost folds are at the given depth. -/
def foldedTexts? (depth : Nat) (text : String) : Option (List (Nat × String)) :=
  (readFolds text.toList).map (Fold.enclosedAll depth)

variable {c : Char} {cs xs ys : List Char} {t : FoldTag} {fs gs done : List Fold}
  {outer : List (List Fold)} {ms : List FoldMark}

/-! ## What is read -/

namespace Fold

theorem marksAll_append (fs gs : List Fold) : marksAll (fs ++ gs) = marksAll fs ++ marksAll gs := by
  induction fs with
  | nil => rfl
  | cons f fs ih => rw [List.cons_append, marksAll, ih, marksAll, List.append_assoc]

theorem marksAll_chars (cs : List Char) : marksAll (cs.map .char) = plainMarks cs := by
  induction cs with
  | nil => rfl
  | cons c cs ih =>
    rw [List.map_cons, marksAll, ih]
    rfl

theorem marksAll_block (inside : List Fold) :
    marksAll [.block inside] = .tag .opening :: marksAll inside ++ [.tag .closing] := by
  rw [marksAll, marksAll, marks, List.append_nil]

theorem enclosedAll_append (depth : Nat) (fs gs : List Fold) :
    enclosedAll depth (fs ++ gs) = enclosedAll depth fs ++ enclosedAll depth gs := by
  induction fs with
  | nil => rfl
  | cons f fs ih => rw [List.cons_append, enclosedAll, ih, enclosedAll, List.append_assoc]

theorem enclosedAll_chars (depth : Nat) (cs : List Char) :
    enclosedAll depth (cs.map .char) = [] := by
  induction cs with
  | nil => rfl
  | cons c cs ih =>
    rw [List.map_cons, enclosedAll, ih]
    rfl

theorem enclosedAll_block (depth : Nat) (inside : List Fold) :
    enclosedAll depth [.block inside] =
      (depth, String.ofList (textAll inside)) :: enclosedAll (depth + 1) inside := by
  rw [enclosedAll, enclosedAll, enclosed, List.append_nil]

end Fold

section

open Fold (marksAll)

mutual

/-- What is written of a part is read as this part, with all folds in it closed. -/
theorem nest_marks (done : List Fold) (outer : List (List Fold)) (ms : List FoldMark) :
    (f : Fold) → nest done outer (f.marks ++ ms) = nest (done ++ [f]) outer ms
  | .char c => by
    rw [Fold.marks, List.singleton_append, nest]
  | .block inside => by
    rw [Fold.marks, List.append_assoc, List.cons_append, nest, nest_marksAll, List.nil_append,
      List.singleton_append, nest]

theorem nest_marksAll (done : List Fold) (outer : List (List Fold)) (ms : List FoldMark) :
    (fs : List Fold) → nest done outer (marksAll fs ++ ms) = nest (done ++ fs) outer ms
  | [] => by rw [marksAll, List.nil_append, List.append_nil]
  | f :: fs => by
    rw [marksAll, List.append_assoc, nest_marks, nest_marksAll, List.append_assoc,
      List.singleton_append]

end

/-- The marks that had been read when the innermost of some open folds began. -/
def openMarks (outer : List (List Fold)) : List FoldMark :=
  outer.reverse.flatMap fun before => marksAll before ++ [.tag .opening]

theorem openMarks_cons (before : List Fold) (outer : List (List Fold)) :
    openMarks (before :: outer) = openMarks outer ++ (marksAll before ++ [.tag .opening]) := by
  simp [openMarks]

/-- Reading loses no mark: what was read before, what is open and what follows make up the whole. -/
theorem marksAll_of_nest (h : nest done outer ms = some fs) :
    marksAll fs = openMarks outer ++ marksAll done ++ ms := by
  induction done, outer, ms using nest.induct with
  | case1 done =>
    rw [nest, Option.some.injEq] at h
    simp [openMarks, h]
  | case2 done before outer =>
    rw [nest] at h
    cases h
  | case3 done outer c ms ih =>
    rw [nest] at h
    rw [ih h, Fold.marksAll_append]
    simp [Fold.marksAll, Fold.marks]
  | case4 done outer ms ih =>
    rw [nest] at h
    rw [ih h, openMarks_cons]
    simp [Fold.marksAll]
  | case5 done before outer ms ih =>
    rw [nest] at h
    rw [ih h, openMarks_cons, Fold.marksAll_append, Fold.marksAll_block]
    simp
  | case6 done ms =>
    rw [nest] at h
    cases h

/-- **The reader accepts the marks of a forest and no others.** -/
theorem readFolds_eq_some_iff : readFolds cs = some fs ↔ foldMarks cs = marksAll fs := by
  constructor
  · intro h
    rw [marksAll_of_nest h]
    rfl
  · intro h
    have hread := nest_marksAll [] [] [] fs
    rw [List.append_nil, List.nil_append, ← h] at hread
    exact hread

end

/-! ## What is enclosed -/

/-- Marks that are balanced, with what the folds among them enclose. -/
def Encloses (depth : Nat) (ms : List FoldMark) (texts : List (Nat × String)) : Prop :=
  ∃ fs, ms = Fold.marksAll fs ∧ Fold.enclosedAll depth fs = texts

namespace Encloses

variable {depth : Nat} {ns : List FoldMark} {texts texts' : List (Nat × String)}

theorem plain (depth : Nat) (cs : List Char) : Encloses depth (plainMarks cs) [] :=
  ⟨cs.map .char, (Fold.marksAll_chars cs).symm, Fold.enclosedAll_chars depth cs⟩

theorem append (h : Encloses depth ms texts) (k : Encloses depth ns texts') :
    Encloses depth (ms ++ ns) (texts ++ texts') := by
  obtain ⟨fs, rfl, rfl⟩ := h
  obtain ⟨gs, rfl, rfl⟩ := k
  exact ⟨fs ++ gs, (Fold.marksAll_append fs gs).symm, Fold.enclosedAll_append depth fs gs⟩

/-- Tags around balanced marks make one more fold, which encloses the text of them all. -/
theorem block (h : Encloses (depth + 1) ms texts) :
    Encloses depth (.tag .opening :: ms ++ [.tag .closing])
      ((depth, String.ofList (ms.flatMap FoldMark.text)) :: texts) := by
  obtain ⟨fs, rfl, rfl⟩ := h
  exact ⟨[.block fs], (Fold.marksAll_block fs).symm, Fold.enclosedAll_block depth fs⟩

theorem foldedTexts? {text : String} (h : Encloses depth (foldMarks text.toList) texts) :
    foldedTexts? depth text = some texts := by
  obtain ⟨fs, hmarks, rfl⟩ := h
  rw [Text.foldedTexts?, readFolds_eq_some_iff.2 hmarks, Option.map_some]

end Encloses

example :
    foldedTexts? 2 "a <details>b<details></details></details><details>c</details>\n" =
      some [(2, "b<details></details>"), (3, ""), (2, "c")] := by
  decide +kernel

example : foldedTexts? 2 "<details></details></details>" = none := by
  decide +kernel

end ApiPages.Text
