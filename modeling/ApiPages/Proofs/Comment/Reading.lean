import ApiPages.Comment.Reader
import ApiPages.Proofs.Text.CodeLines
import ApiPages.Proofs.Text.Marks

/-!
# Reading a comment

What one line does to a draft, and from it what a run of lines does: the lines of a discussion are
kept, in code and outside of it, and lines that are callouts do what the callouts say. Blanks at the
end of a line do not count, and neither does an empty line at the end of a comment, so a comment is
read by the pieces of its text.
-/

namespace ApiPages.Comment

open Text

variable {d : Draft} {c : Char} {line : List Char} {ls : List (List Char)}

/-- The lines outside of code, fences left out, given whether a block of code is open before the
first of them. -/
def proseLines : Bool → List (List Char) → List (List Char)
  | _, [] => []
  | inCode, line :: ls =>
    if isFence line then proseLines (!inCode) ls
    else if inCode then proseLines true ls
    else line :: proseLines false ls

/-- Only the last parameter is continued. -/
theorem continueLast_append_singleton (more : String) (ps : List Parameter) (p : Parameter) :
    continueLast more (ps ++ [p]) = ps ++ [⟨p.name, continued p.description more⟩] := by
  induction ps with
  | nil => rfl
  | cons q ps ih =>
    rw [List.cons_append, continueLast.eq_3 more q (ps ++ [p]) (by simp), ih, List.cons_append]

theorem length_continueLast (more : String) (ps : List Parameter) :
    (continueLast more ps).length = ps.length := by
  rcases List.eq_nil_or_concat' ps with rfl | ⟨ps, p, rfl⟩
  · rfl
  · simp [continueLast_append_singleton]

namespace Draft

theorem length_parameters_readText (d : Draft) (line : List Char) :
    (d.readText line).parameters.length = d.parameters.length := by
  unfold readText
  dsimp only
  cases d.part with
  | discussion => rfl
  | summary =>
    dsimp only
    split
    · split <;> rfl
    · rfl
  | parameterList | parameter =>
    dsimp only
    split
    · rfl
    · exact length_continueLast _ _
  | _ =>
    dsimp only
    split <;> rfl

/-! ## Ends of lines and of comments -/

theorem read_append_blank (h : isBlank c = true) (d : Draft) (line : List Char) :
    d.read (line ++ [c]) = d.read line := by
  simp only [read, readProse, readText, entry?, discuss, isFence_append_blank h,
    dropBlanks_append_singleton h, dropBlankEnd_append_singleton h]

/-- A blank line is read as the empty one. -/
theorem read_of_blank (h : ∀ c ∈ line, isBlank c = true) (d : Draft) :
    d.read line = d.read [] := by
  induction line using List.reverseRecOn with
  | nil => rfl
  | append_singleton line c ih =>
    rw [read_append_blank (h c (by simp)), ih fun a ha => h a (by simp [ha])]

theorem read_dropCarriageReturn (d : Draft) (line : List Char) :
    d.read (dropCarriageReturn line) = d.read line := by
  unfold dropCarriageReturn
  split
  · next h =>
    obtain ⟨start, rfl⟩ := List.getLast?_eq_some_iff.1 h
    rw [List.dropLast_concat, read_append_blank (by decide)]
  · rfl

theorem discussionText_append_empty (ls : List String) :
    discussionText (ls ++ [""]) = discussionText ls := by
  cases ls with
  | nil => rfl
  | cons l ls =>
    have htext : ("\n".intercalate (l :: ls ++ [""])).toList =
        ("\n".intercalate (l :: ls)).toList ++ ['\n'] := by
      rw [String.intercalate_append_of_ne_nil (by simp) (by simp)]
      simp
    rw [discussionText, htext, dropEndWhile_dropWhile_append_singleton (by decide), discussionText]

theorem discussionText_cons_empty (ls : List String) :
    discussionText ("" :: ls) = discussionText ls := by
  cases ls with
  | nil => rfl
  | cons l ls =>
    have htext : ("\n".intercalate ("" :: l :: ls)).toList =
        '\n' :: ("\n".intercalate (l :: ls)).toList := by
      rw [String.intercalate_cons_cons]
      simp
    rw [discussionText, htext, List.dropWhile_cons_of_pos (by decide), discussionText]

/-- An empty line says nothing at the end of a comment, whatever part is open. -/
theorem finish_read_nil (d : Draft) : (d.read []).finish = d.finish := by
  have hdiscuss : (d.discuss []).finish = d.finish := by
    show Draft.finish { d with discussion := d.discussion ++ [""] } = d.finish
    simp only [finish, discussionText_append_empty]
  have hentry : d.entry? [] = none := by
    unfold entry?
    split <;> rfl
  have hcallout : Callout.ofLine? (dropBlanks []) = none := rfl
  have hprose : d.readProse [] = d.readText [] := by rw [readProse, hcallout, hentry]
  unfold read
  rw [if_neg (by decide)]
  split
  · exact hdiscuss
  · rw [hprose]
    unfold readText
    split
    · exact hdiscuss
    · -- in the summary the line closes it, unless it is still to come
      split <;> rfl
    all_goals rfl

theorem finish_foldl_closedLines (d : Draft) (ls : List (List Char)) :
    ((closedLines ls).foldl read d).finish = (ls.foldl read d).finish := by
  induction ls generalizing d with
  | nil => rfl
  | cons line ls ih =>
    cases ls with
    | nil =>
      rw [closedLines]
      split
      · next h =>
        rw [List.isEmpty_iff.1 h]
        exact (finish_read_nil d).symm
      · rfl
    | cons next rest =>
      rw [closedLines, List.foldl_cons, read_dropCarriageReturn, ih]
      · rfl
      · exact List.cons_ne_nil next rest

/-! ## The text of a discussion -/

/-- Lines of which the first has text do not begin with a line end. -/
theorem exists_intercalate_eq_cons {l : String} (h : isBlankText l = false)
    (hline : '\n' ∉ l.toList) (ls : List String) :
    ∃ c cs, ("\n".intercalate (l :: ls)).toList = c :: cs ∧ c ≠ '\n' := by
  obtain ⟨c, cs, hl⟩ : ∃ c cs, l.toList = c :: cs := by
    refine List.exists_cons_of_ne_nil fun hnil => ?_
    simp [isBlankText, hnil] at h
  have hc : c ≠ '\n' := by
    rintro rfl
    exact hline (by simp [hl])
  cases ls with
  | nil => exact ⟨c, cs, by rw [String.intercalate_singleton, hl], hc⟩
  | cons next rest =>
    rw [String.intercalate_cons_cons, String.toList_append, String.toList_append, hl]
    exact ⟨c, _, rfl, hc⟩

/-- Lines of which the last has text, up to its end, end with it. -/
theorem exists_intercalate_eq_concat {l : String} (h : isBlankText l = false)
    (htrim : trimEnd l = l) (ls : List String) :
    ∃ cs c, ("\n".intercalate (ls ++ [l])).toList = cs ++ [c] ∧ isBlank c = false := by
  have hdrop : dropBlankEnd l.toList = l.toList := by
    have hlist := congrArg String.toList htrim
    rwa [trimEnd, String.toList_ofList] at hlist
  have hne : dropBlankEnd l.toList ≠ [] := by
    rw [hdrop]
    intro hnil
    simp [isBlankText, hnil] at h
  have hlast := isBlank_getLast_dropBlankEnd hne
  have hl := List.dropLast_concat_getLast hne
  generalize (dropBlankEnd l.toList).getLast hne = c at hlast hl
  rw [hdrop] at hl
  obtain ⟨front, hfront⟩ := exists_intercalate_eq_append "\n" l ls
  rw [hfront, String.toList_append, ← hl, ← List.append_assoc]
  exact ⟨_, c, rfl, hlast⟩

/-- A discussion that begins and ends with text is kept as it is. -/
theorem discussionText_eq {ls : List String} (hne : ls ≠ [])
    (hlines : ∀ l ∈ ls, '\n' ∉ l.toList ∧ trimEnd l = l)
    (hfirst : ∀ l ∈ ls.head?, isBlankText l = false)
    (hlast : ∀ l ∈ ls.getLast?, isBlankText l = false) :
    discussionText ls = "\n".intercalate ls ∧ "\n".intercalate ls ≠ "" := by
  obtain ⟨c, cs, hstart, hc⟩ : ∃ c cs, ("\n".intercalate ls).toList = c :: cs ∧ c ≠ '\n' := by
    obtain ⟨l, rest, rfl⟩ := List.exists_cons_of_ne_nil hne
    exact exists_intercalate_eq_cons (hfirst l rfl) (hlines l (by simp)).1 rest
  obtain ⟨xs, a, hend, ha⟩ : ∃ xs a, ("\n".intercalate ls).toList = xs ++ [a] ∧
      isBlank a = false := by
    obtain ⟨start, l, rfl⟩ : ∃ start l, ls = start ++ [l] :=
      ⟨_, _, (List.dropLast_concat_getLast hne).symm⟩
    exact exists_intercalate_eq_concat (hlast l (by simp)) (hlines l (by simp)).2 start
  have hnewline : (a == '\n') = false := by
    rw [beq_eq_false_iff_ne]
    rintro rfl
    exact absurd ha (by decide)
  constructor
  · -- nothing is taken off at either end
    have hdropStart : ("\n".intercalate ls).toList.dropWhile (fun c => c == '\n') =
        ("\n".intercalate ls).toList := by
      rw [hstart, List.dropWhile_cons_of_neg (by simpa using hc)]
    have hdropEnd : dropEndWhile (fun c => c == '\n') ("\n".intercalate ls).toList =
        ("\n".intercalate ls).toList := by
      rw [hend]
      exact List.rdropWhile_concat_neg _ xs a (by simp [hnewline])
    have hblanks : dropBlankEnd ("\n".intercalate ls).toList = ("\n".intercalate ls).toList := by
      rw [hend, dropBlankEnd_append_of_not ha]
    rw [discussionText, hdropStart, hdropEnd, hblanks, String.ofList_toList]
  · intro hempty
    rw [hempty] at hstart
    cases hstart

end Draft

/-- **A comment is read by the pieces of its text.** -/
theorem parse_eq (text : String) :
    parse text = ((pieces '\n' text.toList).foldl Draft.read Draft.start).finish :=
  Draft.finish_foldl_closedLines _ _

namespace Draft

/-! ## Lines of a discussion -/

/-- Code goes to the discussion, which a fence opens. -/
theorem read_of_code (h : (isFence line || d.inCode) = true) :
    d.read line = { d.discuss line with
      inCode := d.inCode ^^ isFence line
      part := if isFence line then .discussion else d.part } := by
  unfold read
  cases hfence : isFence line with
  | true => simp
  | false =>
    have hcode : d.inCode = true := by simpa [hfence] using h
    simp [hcode, discuss]

theorem read_of_prose (h : (isFence line || d.inCode) = false) :
    d.read line = d.readProse line := by
  obtain ⟨hfence, hopen⟩ := Bool.or_eq_false_iff.1 h
  rw [read, hfence, hopen]
  rfl

/-- A line of an open discussion is kept. A fence opens or closes a block of code. -/
theorem read_discussion (hpart : d.part = .discussion)
    (h : isFence line = true ∨ d.inCode = true ∨ Callout.ofLine? (dropBlanks line) = none) :
    d.read line = { d.discuss line with inCode := d.inCode ^^ isFence line } := by
  cases hcode : isFence line || d.inCode with
  | true =>
    rw [read_of_code hcode, ← hpart, ite_self]
    rfl
  | false =>
    obtain ⟨hfence, hopen⟩ := Bool.or_eq_false_iff.1 hcode
    have hcallout : Callout.ofLine? (dropBlanks line) = none := by simpa [hfence, hopen] using h
    rw [read_of_prose hcode]
    simp [readProse, hcallout, entry?, readText, hpart, hfence, discuss]

/-- **The lines of a discussion** are kept in their order, without the blanks at their ends. A block
of code is open after them if one was before and their fences come in pairs, or the other way
round. -/
theorem foldl_read_discussion (hpart : d.part = .discussion)
    (hprose : ∀ line ∈ proseLines d.inCode ls, Callout.ofLine? (dropBlanks line) = none) :
    ls.foldl read d =
      { d with
        inCode := d.inCode ^^ decide (Odd (ls.countP isFence))
        discussion := d.discussion ++ ls.map fun line => String.ofList (dropBlankEnd line) } := by
  induction ls generalizing d with
  | nil => simp
  | cons line ls ih =>
    have hline : isFence line = true ∨ d.inCode = true ∨
        Callout.ofLine? (dropBlanks line) = none := by
      cases hfence : isFence line with
      | true => exact .inl rfl
      | false =>
        cases hcode : d.inCode with
        | true => exact .inr (.inl rfl)
        | false => exact .inr (.inr (hprose line (by simp [proseLines, hfence, hcode])))
    have hrest : ∀ more ∈ proseLines (d.inCode ^^ isFence line) ls,
        Callout.ofLine? (dropBlanks more) = none := by
      intro more hmore
      refine hprose more ?_
      rw [proseLines]
      cases hfence : isFence line <;> cases hcode : d.inCode <;> simp_all
    have hcode : (d.inCode ^^ isFence line ^^ decide (Odd (ls.countP isFence))) =
        (d.inCode ^^ decide (Odd ((line :: ls).countP isFence))) :=
      (isOpenAfter_cons d.inCode line ls).symm
    rw [List.foldl_cons, read_discussion hpart hline,
      ih (d := { d.discuss line with inCode := d.inCode ^^ isFence line }) hpart hrest, ← hcode]
    simp [discuss]

/-! ## Callouts -/

/-- A fence is no callout. -/
theorem ofLine?_of_isFence (h : isFence line = true) :
    Callout.ofLine? (dropBlanks line) = none := by
  obtain ⟨rest, hrest⟩ := List.isPrefixOf_iff_prefix.1 h
  have htick : dropBlanks line = '\x60' :: dropBlankEnd ('\x60' :: '\x60' :: rest) := by
    rw [dropBlanks, ← hrest]
    exact dropBlankEnd_append_cons (by decide) [] _
  rw [htick]
  rfl

theorem inCode_readCallout (d : Draft) (callout : Callout) :
    (d.readCallout callout).inCode = d.inCode := by
  cases callout <;> rfl

theorem foldl_readCallout_parameters (d : Draft) (ps : List Parameter) :
    (ps.map Callout.parameter).foldl readCallout d =
      { d with
        part := if ps.isEmpty then d.part else .parameter
        parameters := d.parameters ++ ps } := by
  induction ps generalizing d with
  | nil => simp
  | cons p ps ih => simp [ih, readCallout]

theorem read_callout {callout : Callout} (hcode : d.inCode = false)
    (h : Callout.ofLine? (dropBlanks line) = some callout) :
    d.read line = d.readCallout callout := by
  have hfence : isFence line = false := by
    rw [Bool.eq_false_iff]
    intro hfence
    rw [ofLine?_of_isFence hfence] at h
    cases h
  rw [read_of_prose (by simp [hfence, hcode]), readProse, h]

/-- Lines that are callouts, outside of code, do what the callouts say. -/
theorem foldl_read_callouts {write : Callout → List Char} {callouts : List Callout}
    (hcode : d.inCode = false)
    (h : ∀ callout ∈ callouts, Callout.ofLine? (dropBlanks (write callout)) = some callout) :
    (callouts.map write).foldl read d = callouts.foldl readCallout d := by
  induction callouts generalizing d with
  | nil => rfl
  | cons callout callouts ih =>
    rw [List.forall_mem_cons] at h
    rw [List.map_cons, List.foldl_cons, read_callout hcode h.1, List.foldl_cons]
    exact ih (by rw [inCode_readCallout, hcode]) h.2

end Draft

end ApiPages.Comment
