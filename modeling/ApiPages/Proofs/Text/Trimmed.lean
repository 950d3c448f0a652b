import ApiPages.Proofs.Text.Pieces
import ApiPages.Text.Blank
import Mathlib.Data.List.DropRight
import Mathlib.Data.List.Induction

/-!
# Trimmed texts

Taking blanks off the two ends of a text, one blank at a time. What is left begins and ends with
something else, so it is blank only when nothing is left.
-/

namespace ApiPages.Text

variable {c : Char} {cs xs : List Char}

/-! ## One blank -/

theorem dropBlankStart_cons (h : isBlank c = true) (cs : List Char) :
    dropBlankStart (c :: cs) = dropBlankStart cs :=
  List.dropWhile_cons_of_pos h

theorem dropBlankStart_append_singleton (h : isBlank c = true) (cs : List Char) :
    dropBlankStart (cs ++ [c]) =
      if dropBlankStart cs = [] then [] else dropBlankStart cs ++ [c] := by
  rw [dropBlankStart, List.dropWhile_append, ← dropBlankStart]
  cases dropBlankStart cs with
  | nil => simp [h]
  | cons a cs => simp

theorem dropBlankEnd_append_singleton (h : isBlank c = true) (cs : List Char) :
    dropBlankEnd (cs ++ [c]) = dropBlankEnd cs := by
  simp [dropBlankEnd, dropEndWhile, h]

/-- One more character of a class at the end does not count when the class is taken off both
ends. -/
theorem dropEndWhile_dropWhile_append_singleton {p : Char → Bool} (h : p c = true)
    (cs : List Char) :
    dropEndWhile p ((cs ++ [c]).dropWhile p) = dropEndWhile p (cs.dropWhile p) := by
  rw [List.dropWhile_append]
  cases hcs : cs.dropWhile p with
  | nil => simp [h]
  | cons a as =>
    rw [List.isEmpty_cons, if_neg (by simp)]
    exact List.rdropWhile_concat_pos p _ c h

theorem dropBlanks_append_singleton (h : isBlank c = true) (cs : List Char) :
    dropBlanks (cs ++ [c]) = dropBlanks cs :=
  dropEndWhile_dropWhile_append_singleton h cs

theorem dropBlanks_cons (h : isBlank c = true) (cs : List Char) :
    dropBlanks (c :: cs) = dropBlanks cs := by
  rw [dropBlanks, dropBlankStart_cons h, dropBlanks]

/-! ## What stands before a blank -/

theorem dropBlankEnd_append_of_not (h : isBlank c = false) (cs : List Char) :
    dropBlankEnd (cs ++ [c]) = cs ++ [c] :=
  List.rdropWhile_concat_neg isBlank cs c (by simp [h])

/-- A text keeps everything up to its last character that is no blank. -/
theorem dropBlankEnd_append_cons (h : isBlank c = false) (xs cs : List Char) :
    dropBlankEnd (xs ++ c :: cs) = xs ++ c :: dropBlankEnd cs := by
  induction cs using List.reverseRecOn with
  | nil => exact dropBlankEnd_append_of_not h xs
  | append_singleton cs a ih =>
    rw [← List.cons_append, ← List.append_assoc]
    cases ha : isBlank a with
    | true => rw [dropBlankEnd_append_singleton ha, ih, dropBlankEnd_append_singleton ha]
    | false => rw [dropBlankEnd_append_of_not ha, dropBlankEnd_append_of_not ha]; simp

/-- Trimming leaves nothing of blanks alone. -/
theorem dropBlanks_eq_nil_iff : dropBlanks cs = [] ↔ ∀ c ∈ cs, isBlank c = true := by
  induction cs with
  | nil => simp [dropBlanks, dropBlankStart, dropBlankEnd, dropEndWhile]
  | cons c cs ih =>
    cases hc : isBlank c with
    | true => simp [dropBlanks_cons hc, ih, hc]
    | false =>
      have hstart : dropBlankStart (c :: cs) = c :: cs := List.dropWhile_cons_of_neg (by simp [hc])
      have hend : dropBlankEnd (c :: cs) = c :: dropBlankEnd cs := dropBlankEnd_append_cons hc [] cs
      simp [dropBlanks, hstart, hend, hc]

theorem trim_eq_empty_iff {s : String} : trim s = "" ↔ isBlankText s = true := by
  rw [trim, isBlankText, List.all_eq_true, ← dropBlanks_eq_nil_iff]
  exact String.ofList_eq_empty_iff

theorem dropBlankEnd_append_of_ne_nil (h : dropBlankEnd cs ≠ []) (xs : List Char) :
    dropBlankEnd (xs ++ cs) = xs ++ dropBlankEnd cs := by
  induction cs using List.reverseRecOn with
  | nil => exact absurd rfl h
  | append_singleton cs a ih =>
    rw [← List.append_assoc]
    cases ha : isBlank a with
    | true =>
      rw [dropBlankEnd_append_singleton ha] at h ⊢
      rw [ih h, dropBlankEnd_append_singleton ha]
    | false => rw [dropBlankEnd_append_of_not ha, dropBlankEnd_append_of_not ha, List.append_assoc]

theorem dropBlanks_dropBlankEnd (cs : List Char) :
    dropBlanks (dropBlankEnd cs) = dropBlanks cs := by
  induction cs using List.reverseRecOn with
  | nil => rfl
  | append_singleton cs a ih =>
    cases ha : isBlank a with
    | true => rw [dropBlankEnd_append_singleton ha, ih, dropBlanks_append_singleton ha]
    | false => rw [dropBlankEnd_append_of_not ha]

/-! ## What follows a character that is no blank -/

theorem dropBlankStart_append_of_ne_nil (h : dropBlankStart xs ≠ []) (cs : List Char) :
    dropBlankStart (xs ++ cs) = dropBlankStart xs ++ cs := by
  rw [dropBlankStart, List.dropWhile_append, if_neg (by simpa [dropBlankStart] using h),
    dropBlankStart]

/-- The two ends are trimmed in either order. -/
theorem dropBlankStart_dropBlankEnd (cs : List Char) :
    dropBlankStart (dropBlankEnd cs) = dropBlanks cs := by
  induction cs using List.reverseRecOn with
  | nil => rfl
  | append_singleton cs c ih =>
    cases hc : isBlank c with
    | true => rw [dropBlankEnd_append_singleton hc, ih, dropBlanks_append_singleton hc]
    | false =>
      rw [dropBlankEnd_append_of_not hc, dropBlanks, dropBlankStart, List.dropWhile_append]
      split
      · simp [hc, dropBlankEnd, dropEndWhile]
      · rw [dropBlankEnd_append_of_not hc]

/-! ## What is left -/

theorem dropBlankStart_dropBlankStart (cs : List Char) :
    dropBlankStart (dropBlankStart cs) = dropBlankStart cs :=
  List.dropWhile_idempotent isBlank cs

theorem dropBlankEnd_subset (cs : List Char) : dropBlankEnd cs ⊆ cs :=
  (List.rdropWhile_prefix isBlank cs).subset

theorem dropBlanks_subset (cs : List Char) : dropBlanks cs ⊆ cs :=
  List.Subset.trans (dropBlankEnd_subset _) (List.dropWhile_sublist isBlank).subset

theorem dropBlankEnd_dropBlankEnd (cs : List Char) :
    dropBlankEnd (dropBlankEnd cs) = dropBlankEnd cs :=
  List.rdropWhile_idempotent isBlank cs

theorem dropBlankStart_dropBlanks (cs : List Char) :
    dropBlankStart (dropBlanks cs) = dropBlanks cs := by
  rw [dropBlanks, dropBlankStart_dropBlankEnd, dropBlanks, dropBlankStart_dropBlankStart]

theorem dropBlanks_dropBlanks (cs : List Char) : dropBlanks (dropBlanks cs) = dropBlanks cs :=
  calc dropBlanks (dropBlanks cs)
      = dropBlankEnd (dropBlankStart (dropBlanks cs)) := rfl
    _ = dropBlankEnd (dropBlanks cs) := by rw [dropBlankStart_dropBlanks]
    _ = dropBlanks cs := dropBlankEnd_dropBlankEnd _

/-- Nothing is taken off the start of a text off which nothing is taken at both ends. -/
theorem dropBlankStart_of_trimmed (h : dropBlanks cs = cs) : dropBlankStart cs = cs := by
  have hstart := dropBlankStart_dropBlanks cs
  rwa [h] at hstart

theorem dropBlankEnd_of_trimmed (h : dropBlanks cs = cs) : dropBlankEnd cs = cs := by
  have hend : dropBlankEnd (dropBlanks cs) = dropBlanks cs := dropBlankEnd_dropBlankEnd _
  rwa [h] at hend

theorem dropBlanks_infix_dropBlankEnd (cs : List Char) : dropBlanks cs <:+: dropBlankEnd cs := by
  rw [← dropBlankStart_dropBlankEnd]
  exact (List.dropWhile_suffix isBlank).isInfix

/-- The last character that is left is no blank. -/
theorem isBlank_getLast_dropBlankEnd (h : dropBlankEnd cs ≠ []) :
    isBlank ((dropBlankEnd cs).getLast h) = false :=
  Bool.eq_false_iff.2 (List.rdropWhile_last_not isBlank cs h)

/-- A text of which trimming leaves something is not blank then. -/
theorem isBlankText_trimEnd {s : String} (h : trimEnd s ≠ "") :
    isBlankText (trimEnd s) = false := by
  have hne : dropBlankEnd s.toList ≠ [] := by
    intro hnil
    rw [trimEnd, hnil] at h
    exact h rfl
  -- the last character shows it
  have hlast := isBlank_getLast_dropBlankEnd hne
  rw [isBlankText, List.all_eq_false, trimEnd, String.toList_ofList]
  exact ⟨_, List.getLast_mem hne, by rw [hlast]; simp⟩

theorem isBlankText_trim {s : String} (h : trim s ≠ "") : isBlankText (trim s) = false := by
  have htrim : trim s = trimEnd (String.ofList (dropBlankStart s.toList)) := by
    rw [trim, trimEnd, String.toList_ofList, dropBlanks]
  rw [htrim] at h ⊢
  exact isBlankText_trimEnd h

/-! ## Texts put together -/

variable {s t : String}

theorem isBlankText_of_mem {c : Char} (hc : c ∈ s.toList) (h : isBlank c = false) :
    isBlankText s = false := by
  rw [isBlankText, List.all_eq_false]
  exact ⟨c, hc, by rw [h]; simp⟩

theorem dropBlankEnd_append_blanks {cs : List Char} (h : ∀ c ∈ cs, isBlank c = true)
    (xs : List Char) : dropBlankEnd (xs ++ cs) = dropBlankEnd xs := by
  induction cs using List.reverseRecOn with
  | nil => rw [List.append_nil]
  | append_singleton cs c ih =>
    rw [← List.append_assoc, dropBlankEnd_append_singleton (h c (by simp)),
      ih fun a ha => h a (by simp [ha])]

theorem trimEnd_append_blank (h : isBlankText t = true) (s : String) :
    trimEnd (s ++ t) = trimEnd s := by
  rw [isBlankText, List.all_eq_true] at h
  rw [trimEnd, String.toList_append, dropBlankEnd_append_blanks h, trimEnd]

theorem trimEnd_append (h : isBlankText t = false) (s : String) :
    trimEnd (s ++ t) = s ++ trimEnd t := by
  have hne : dropBlankEnd t.toList ≠ [] := by
    intro hnil
    rw [isBlankText, List.all_eq_false] at h
    obtain ⟨c, hc, hblank⟩ := h
    exact hblank (List.rdropWhile_eq_nil_iff.1 hnil c hc)
  rw [trimEnd, String.toList_append, dropBlankEnd_append_of_ne_nil hne, String.ofList_append,
    String.ofList_toList, trimEnd]

theorem trimEnd_trimEnd (s : String) : trimEnd (trimEnd s) = trimEnd s := by
  rw [trimEnd, trimEnd, String.toList_ofList, dropBlankEnd_dropBlankEnd]

/-- What trimming takes off the end of a text is blank. -/
theorem exists_trimEnd_append_eq (s : String) :
    ∃ gap, trimEnd s ++ gap = s ∧ isBlankText gap = true := by
  refine ⟨String.ofList (s.toList.rtakeWhile isBlank), ?_, ?_⟩
  · have hsplit : dropBlankEnd s.toList ++ s.toList.rtakeWhile isBlank = s.toList :=
      List.rdropWhile_append_rtakeWhile
    rw [trimEnd, ← String.ofList_append, hsplit, String.ofList_toList]
  · rw [isBlankText, List.all_eq_true, String.toList_ofList]
    exact fun c hc => List.mem_rtakeWhile_imp hc

theorem isBlankText_append (s t : String) :
    isBlankText (s ++ t) = (isBlankText s && isBlankText t) := by
  simp [isBlankText]

theorem trimEnd_of_blank (h : isBlankText t = true) : trimEnd t = "" := by
  rw [← String.empty_append (s := t), trimEnd_append_blank h]
  rfl

/-- What stands behind a text that ends with no blank is trimmed by itself. -/
theorem trimEnd_append_of_trimmed (hs : trimEnd s = s) (t : String) :
    trimEnd (s ++ t) = s ++ trimEnd t := by
  cases ht : isBlankText t with
  | false => exact trimEnd_append ht s
  | true => rw [trimEnd_append_blank ht, hs, trimEnd_of_blank ht, String.append_empty]

/-- Texts with something between them end with the last of them. -/
theorem exists_intercalate_eq_append (sep l : String) (ls : List String) :
    ∃ front, sep.intercalate (ls ++ [l]) = front ++ l := by
  cases ls with
  | nil => exact ⟨"", by rw [List.nil_append, String.intercalate_singleton, String.empty_append]⟩
  | cons first rest =>
    rw [String.intercalate_append_of_ne_nil (by simp) (by simp), String.intercalate_singleton]
    exact ⟨_, rfl⟩

theorem trimEnd_intercalate {sep l : String} (hl : trimEnd l = l) (hne : isBlankText l = false)
    (ls : List String) :
    trimEnd (sep.intercalate (ls ++ [l])) = sep.intercalate (ls ++ [l]) := by
  obtain ⟨front, hfront⟩ := exists_intercalate_eq_append sep l ls
  rw [hfront, trimEnd_append hne, hl]

theorem isBlankText_intercalate {sep l : String} (h : isBlankText l = false) (ls : List String) :
    isBlankText (sep.intercalate (ls ++ [l])) = false := by
  obtain ⟨front, hfront⟩ := exists_intercalate_eq_append sep l ls
  rw [hfront, isBlankText_append, h, Bool.and_false]

/-! ## The lines of a trimmed text -/

theorem dropBlankStart_joinPieces {sep : Char} {first : List Char} (h : dropBlankStart first ≠ [])
    (rest : List (List Char)) :
    dropBlankStart (joinPieces sep (first :: rest)) =
      joinPieces sep (dropBlankStart first :: rest) := by
  cases rest with
  | nil => rfl
  | cons next rest =>
    rw [joinPieces_cons_cons, joinPieces_cons_cons, dropBlankStart_append_of_ne_nil h]

/-- Trimming a text that ends with no blank takes the indentation off its first line. -/
theorem pieces_trim {s : String} {first : List Char} {rest : List (List Char)}
    (hs : trimEnd s = s) (hpieces : pieces '\n' s.toList = first :: rest)
    (hfirst : dropBlankStart first ≠ []) :
    pieces '\n' (trim s).toList = dropBlankStart first :: rest := by
  have hend : dropBlankEnd s.toList = s.toList := by
    simpa only [trimEnd, String.toList_ofList] using congrArg String.toList hs
  have hline : ∀ l ∈ first :: rest, '\n' ∉ l := by
    rw [← hpieces]
    exact fun l => not_mem_of_mem_pieces
  rw [List.forall_mem_cons] at hline
  have hstart : '\n' ∉ dropBlankStart first := fun hmem =>
    hline.1 ((List.dropWhile_sublist isBlank).subset hmem)
  have htrim : (trim s).toList = joinPieces '\n' (dropBlankStart first :: rest) := by
    rw [trim, String.toList_ofList, ← dropBlankStart_dropBlankEnd, hend,
      ← joinPieces_pieces '\n' s.toList, hpieces, dropBlankStart_joinPieces hfirst]
  rw [htrim, pieces_joinPieces (List.forall_mem_cons.2 ⟨hstart, hline.2⟩) (List.cons_ne_nil _ _)]

end ApiPages.Text
