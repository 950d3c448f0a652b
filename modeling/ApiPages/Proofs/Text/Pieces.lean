import ApiPages.Text.Lines

/-!
# Pieces of a text

How the pieces of a text that is put together follow from those of its parts. Cutting and joining
are the functions of the standard library.
-/

namespace ApiPages.Text

variable {sep : Char} {xs ys cs piece : List Char} {ps : List (List Char)}

theorem pieces_eq_splitOn (sep : Char) (cs : List Char) : pieces sep cs = cs.splitOn sep := by
  induction cs with
  | nil => simp [pieces, List.splitOn_nil]
  | cons c cs ih =>
    rw [pieces, ih, List.splitOn_cons_eq_if_modifyHead]
    by_cases hc : c = sep
    · simp [hc]
    · cases h : cs.splitOn sep with
      | nil => exact absurd h (List.splitOn_ne_nil sep cs)
      | cons p ps => simp [hc]

/-- A text has one piece more than cuts. -/
theorem length_pieces (sep : Char) (cs : List Char) :
    (pieces sep cs).length = cs.count sep + 1 := by
  induction cs with
  | nil => rfl
  | cons c cs ih =>
    rw [pieces, List.count_cons]
    split
    · next hc => simp [hc, ih]
    · next hc =>
      cases hcs : pieces sep cs with
      | nil => exact absurd hcs (pieces_ne_nil sep cs)
      | cons piece rest => simpa [hc, hcs] using ih

theorem joinPieces_cons_cons (sep : Char) (p q : List Char) (ps : List (List Char)) :
    joinPieces sep (p :: q :: ps) = p ++ sep :: joinPieces sep (q :: ps) := rfl

theorem joinPieces_append_cons (sep : Char) (xs p : List Char) (ps : List (List Char)) :
    joinPieces sep ((xs ++ p) :: ps) = xs ++ joinPieces sep (p :: ps) := by
  cases ps with
  | nil => rfl
  | cons q qs => rw [joinPieces_cons_cons, joinPieces_cons_cons, List.append_assoc]

theorem joinPieces_eq_intercalate (sep : Char) (ps : List (List Char)) :
    joinPieces sep ps = [sep].intercalate ps := by
  induction ps with
  | nil => rfl
  | cons p ps ih =>
    cases ps with
    | nil => simp [joinPieces]
    | cons q qs =>
      rw [joinPieces_cons_cons, ih]
      simp

/-- Every piece stands in the text that is joined from them. -/
theorem infix_intercalate (h : piece ∈ ps) (between : List Char) :
    piece <:+: between.intercalate ps := by
  induction ps with
  | nil => simp at h
  | cons p ps ih =>
    cases ps with
    | nil =>
      rw [List.intercalate_singleton]
      exact List.mem_singleton.1 h ▸ List.infix_rfl
    | cons q qs =>
      rw [List.intercalate_cons_cons]
      rcases List.mem_cons.1 h with rfl | h
      · rw [List.append_assoc]
        exact (List.prefix_append piece _).isInfix
      · exact (ih h).trans (List.suffix_append _ _).isInfix

theorem infix_joinPieces (h : piece ∈ ps) (sep : Char) : piece <:+: joinPieces sep ps := by
  rw [joinPieces_eq_intercalate]
  exact infix_intercalate h [sep]

theorem infix_toList_intercalate {text : String} {texts : List String} (h : text ∈ texts)
    (between : String) : text.toList <:+: (between.intercalate texts).toList := by
  rw [String.toList_intercalate]
  exact infix_intercalate (List.mem_map_of_mem h) between.toList

theorem toList_intercalate (sep : Char) (ls : List String) :
    ((String.singleton sep).intercalate ls).toList = joinPieces sep (ls.map String.toList) := by
  rw [joinPieces_eq_intercalate, String.toList_intercalate, String.toList_singleton]

theorem toList_intercalate_newline (ls : List String) :
    ("\n".intercalate ls).toList = joinPieces '\n' (ls.map String.toList) :=
  toList_intercalate '\n' ls

theorem pieces_append_cons (sep : Char) (xs ys : List Char) :
    pieces sep (xs ++ sep :: ys) = pieces sep xs ++ pieces sep ys := by
  simp only [pieces_eq_splitOn, List.splitOn_append_cons_self]

theorem pieces_of_not_mem (h : sep ∉ cs) : pieces sep cs = [cs] := by
  rw [pieces_eq_splitOn, List.splitOn_eq_singleton h]

theorem pieces_joinPieces (h : ∀ p ∈ ps, sep ∉ p) (hne : ps ≠ []) :
    pieces sep (joinPieces sep ps) = ps := by
  rw [pieces_eq_splitOn, joinPieces_eq_intercalate, List.splitOn_intercalate sep h hne]

/-- A text is known by what stands in front of its first cut and what stands behind it. -/
theorem append_cons_inj_of_not_mem_left {xs' ys' : List Char} (hxs : sep ∉ xs) (hxs' : sep ∉ xs')
    (h : xs ++ sep :: ys = xs' ++ sep :: ys') : xs = xs' ∧ ys = ys' := by
  have hpieces : xs :: pieces sep ys = xs' :: pieces sep ys' := by
    simpa [pieces_append_cons, pieces_of_not_mem, hxs, hxs'] using congrArg (pieces sep) h
  obtain ⟨rfl, hrest⟩ := List.cons.inj hpieces
  exact ⟨rfl, by rw [← joinPieces_pieces sep ys, ← joinPieces_pieces sep ys', hrest]⟩

/-- What stands before the first cut belongs to the first piece. -/
theorem pieces_append_of_not_mem (h : sep ∉ xs) (cs : List Char) :
    pieces sep (xs ++ cs) = (pieces sep cs).modifyHead (xs ++ ·) := by
  induction xs with
  | nil => cases hcs : pieces sep cs <;> simp [hcs]
  | cons x xs ih =>
    rw [List.mem_cons, not_or] at h
    rw [List.cons_append, pieces_eq_splitOn, List.splitOn_cons_eq_if_modifyHead,
      ← pieces_eq_splitOn, ih h.2, if_neg (by simpa using Ne.symm h.1)]
    cases pieces sep cs <;> rfl

/-- No piece has a character cut at, and its characters are those of the text. -/
theorem forall_mem_pieces (sep : Char) (cs : List Char) :
    ∀ piece ∈ pieces sep cs, ∀ c ∈ piece, c ≠ sep ∧ c ∈ cs := by
  induction cs with
  | nil =>
    intro piece hp c hc
    simp [pieces] at hp
    simp [hp] at hc
  | cons x cs ih =>
    intro piece hp c hc
    rw [pieces_eq_splitOn, List.splitOn_cons_eq_if_modifyHead, ← pieces_eq_splitOn] at hp
    split at hp
    · -- a cut: an empty piece comes first
      rcases List.mem_cons.1 hp with rfl | hp
      · simp at hc
      · have h := ih piece hp c hc
        exact ⟨h.1, by simp [h.2]⟩
    · -- the character goes to the first piece
      next hx =>
      have hx' : x ≠ sep := by simpa using hx
      obtain ⟨q, qs, hqs⟩ := List.exists_cons_of_ne_nil (pieces_ne_nil sep cs)
      rw [hqs] at hp ih
      rcases List.mem_cons.1 hp with rfl | hp
      · rcases List.mem_cons.1 hc with rfl | hc
        · exact ⟨hx', List.mem_cons_self⟩
        · have h := ih q List.mem_cons_self c hc
          exact ⟨h.1, by simp [h.2]⟩
      · have h := ih piece (List.mem_cons_of_mem _ hp) c hc
        exact ⟨h.1, by simp [h.2]⟩

theorem not_mem_of_mem_pieces (h : piece ∈ pieces sep cs) : sep ∉ piece := by
  intro hmem
  exact (forall_mem_pieces sep cs piece h sep hmem).1 rfl

theorem dropCarriageReturn_subset (line : List Char) : dropCarriageReturn line ⊆ line := by
  unfold dropCarriageReturn
  split
  · exact List.dropLast_subset line
  · exact List.Subset.refl line

theorem not_mem_of_mem_closedLines {c : Char} {line : List Char} (h : ∀ l ∈ ps, c ∉ l)
    (hline : line ∈ closedLines ps) : c ∉ line := by
  induction ps using closedLines.induct with
  | case1 => simp [closedLines] at hline
  | case2 last hempty => simp [closedLines, hempty] at hline
  | case3 last hempty =>
    simp only [closedLines, hempty, Bool.false_eq_true, if_false, List.mem_singleton] at hline
    exact h line (by simp [hline])
  | case4 l rest hrest ih =>
    rw [List.forall_mem_cons] at h
    rw [closedLines.eq_3 l rest hrest, List.mem_cons] at hline
    rcases hline with rfl | hline
    · exact fun hmem => h.1 (dropCarriageReturn_subset l hmem)
    · exact ih h.2 hline

/-- The lines of a text have no line ends. -/
theorem newline_not_mem_of_mem_lines {line : List Char} (h : line ∈ lines cs) : '\n' ∉ line :=
  not_mem_of_mem_closedLines (fun _ => not_mem_of_mem_pieces) h

theorem subset_of_mem_pieces (h : piece ∈ pieces sep cs) : piece ⊆ cs := by
  intro c hc
  exact (forall_mem_pieces sep cs piece h c hc).2

/-- A text is one line, or a line and a text after it. -/
theorem byLines {P : List Char → Prop} (one : ∀ line, '\n' ∉ line → P line)
    (more : ∀ line rest, '\n' ∉ line → P rest → P (line ++ '\n' :: rest)) (cs : List Char) :
    P cs := by
  by_cases h : '\n' ∈ cs
  · obtain ⟨line, rest, rfl, hline⟩ := List.eq_append_cons_of_mem h
    exact more line rest hline (byLines one more rest)
  · exact one cs h
termination_by cs.length
decreasing_by
  subst_vars
  simp
  omega

end ApiPages.Text
