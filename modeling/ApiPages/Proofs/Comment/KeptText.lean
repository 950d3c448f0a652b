import ApiPages.Proofs.Comment.OpenList
import ApiPages.Proofs.Comment.WellFormed

/-!
# What a comment keeps of its text

Every line of text is found again in the comment that is read from it, but for one sort of lines: a
line below the head of a list of parameters that is no entry says more of the parameter before it,
and there may be none (`parse_keepsText`).
-/

namespace ApiPages.Comment

open Text

variable {c : Comment} {d e : Draft} {cs : List Char} {line : List Char}
  {above below ls : List (List Char)}

/-- The texts that a comment consists of, the names of parameters apart. -/
def texts (c : Comment) : List String :=
  c.summary :: (c.discussion.toList ++ c.returns.toList ++ c.throws.toList ++
    c.parameters.map (·.description))

/-- One of the texts of a comment has the characters in it, one behind the other. -/
def Says (c : Comment) (cs : List Char) : Prop :=
  ∃ t ∈ c.texts, cs <:+: t.toList

/-- A line that no part of a comment takes: a list of parameters is open, the line is none of its
entries, and there is no parameter before it that it could say more of. -/
def IsStray (above : List (List Char)) (line : List Char) : Prop :=
  ¬ IsCode above line ∧ IsListOpen above ∧
    ∀ before named between, above = before ++ named :: between → ¬ NamesParameter before named

theorem says_iff : c.Says cs ↔ cs <:+: c.summary.toList ∨ (∃ t ∈ c.discussion, cs <:+: t.toList) ∨
    (∃ t ∈ c.returns, cs <:+: t.toList) ∨ (∃ t ∈ c.throws, cs <:+: t.toList) ∨
      ∃ p ∈ c.parameters, cs <:+: p.description.toList := by
  simp [Says, texts, or_and_right, exists_or]

/-! ## Texts that are continued -/

theorem infix_continued_left (text more : String) :
    text.toList <:+: (continued text more).toList := by
  unfold continued
  split
  · exact List.infix_rfl
  · split
    · next hempty => simp [String.isEmpty_iff.1 hempty]
    · rw [String.toList_append, String.toList_append, List.append_assoc]
      exact (List.prefix_append _ _).isInfix

theorem infix_continued_right (text more : String) :
    more.toList <:+: (continued text more).toList := by
  unfold continued
  split
  · next hempty => simp [String.isEmpty_iff.1 hempty]
  · split
    · exact List.infix_rfl
    · rw [String.toList_append]
      exact (List.suffix_append _ _).isInfix

namespace Draft

/-- The texts that a draft holds. -/
def texts (d : Draft) : List String :=
  d.summary ++ d.discussion ++ [d.returns, d.throws] ++ d.parameters.map (·.description)

/-- One of the texts of a draft has the characters in it, one behind the other. -/
def Says (d : Draft) (cs : List Char) : Prop :=
  ∃ t ∈ d.texts, cs <:+: t.toList

/-- The second draft holds the texts of the first, of which some may be continued. -/
structure Grows (d e : Draft) : Prop where
  summary : d.summary ⊆ e.summary
  discussion : d.discussion ⊆ e.discussion
  returns : d.returns.toList <:+: e.returns.toList
  throws : d.throws.toList <:+: e.throws.toList
  parameters : ∀ p ∈ d.parameters, ∃ q ∈ e.parameters,
    p.description.toList <:+: q.description.toList

theorem says_iff : d.Says cs ↔ (∃ t ∈ d.summary, cs <:+: t.toList) ∨
    (∃ t ∈ d.discussion, cs <:+: t.toList) ∨ cs <:+: d.returns.toList ∨ cs <:+: d.throws.toList ∨
      ∃ p ∈ d.parameters, cs <:+: p.description.toList := by
  simp [Says, texts, or_and_right, exists_or]

/-! ## Texts stay -/

theorem Says.of_grows (h : d.Says cs) (hgrows : Grows d e) : e.Says cs := by
  rw [says_iff] at h ⊢
  rcases h with ⟨t, ht, hcs⟩ | ⟨t, ht, hcs⟩ | hcs | hcs | ⟨p, hp, hcs⟩
  · exact .inl ⟨t, hgrows.summary ht, hcs⟩
  · exact .inr (.inl ⟨t, hgrows.discussion ht, hcs⟩)
  · exact .inr (.inr (.inl (hcs.trans hgrows.returns)))
  · exact .inr (.inr (.inr (.inl (hcs.trans hgrows.throws))))
  · obtain ⟨q, hq, hinfix⟩ := hgrows.parameters p hp
    exact .inr (.inr (.inr (.inr ⟨q, hq, hcs.trans hinfix⟩)))

namespace Grows

theorem refl (d : Draft) : Grows d d :=
  ⟨List.Subset.refl _, List.Subset.refl _, List.infix_rfl, List.infix_rfl,
    fun p hp => ⟨p, hp, List.infix_rfl⟩⟩

theorem discuss (d : Draft) (line : List Char) : Grows d (d.discuss line) :=
  { refl d with discussion := List.subset_append_left _ _ }

theorem addParameter (d : Draft) (p : Parameter) :
    Grows d { d with parameters := d.parameters ++ [p] } :=
  { refl d with parameters := fun q hq => ⟨q, List.mem_append_left _ hq, List.infix_rfl⟩ }

theorem continueLast (d : Draft) (more : String) :
    Grows d { d with parameters := continueLast more d.parameters } where
  summary := List.Subset.refl _
  discussion := List.Subset.refl _
  returns := List.infix_rfl
  throws := List.infix_rfl
  parameters := by
    intro q hq
    rcases List.eq_nil_or_concat' d.parameters with hnil | ⟨ps, p, hps⟩
    · simp [hnil] at hq
    · rw [hps, List.mem_append, List.mem_singleton] at hq
      simp only [hps, continueLast_append_singleton, List.mem_append, List.mem_singleton]
      rcases hq with hq | rfl
      · exact ⟨q, .inl hq, List.infix_rfl⟩
      · exact ⟨_, .inr rfl, infix_continued_left q.description more⟩

theorem readCallout (d : Draft) (callout : Callout) : Grows d (d.readCallout callout) := by
  cases callout with
  | parameterList => exact { refl d with }
  | parameter p => exact { addParameter d p with }
  | returns text => exact { refl d with returns := infix_continued_left d.returns text }
  | throws text => exact { refl d with throws := infix_continued_left d.throws text }

theorem readText (d : Draft) (line : List Char) : Grows d (d.readText line) := by
  unfold Draft.readText
  dsimp only
  generalize String.ofList (dropBlanks line) = text
  cases d.part with
  | discussion => exact discuss d line
  | summary =>
    dsimp only
    split
    · split
      · exact refl d
      · exact { refl d with }
    · exact { refl d with summary := List.subset_append_left _ _ }
  | parameterList | parameter =>
    dsimp only
    split
    · exact { refl d with }
    · exact { continueLast d text with }
  | returns =>
    dsimp only
    split
    · exact { refl d with }
    · exact { refl d with returns := infix_continued_left d.returns text }
  | throws =>
    dsimp only
    split
    · exact { refl d with }
    · exact { refl d with throws := infix_continued_left d.throws text }

/-- No line takes away from what was read. -/
theorem read (d : Draft) (line : List Char) : Grows d (d.read line) := by
  cases hcode : isFence line || d.inCode with
  | true =>
    rw [read_of_code hcode]
    exact { discuss d line with }
  | false =>
    rw [read_of_prose hcode, readProse]
    split
    · exact readCallout d _
    · split
      · exact addParameter d _
      · exact readText d line

end Grows

theorem Says.foldl_read (h : d.Says cs) (ls : List (List Char)) : (ls.foldl read d).Says cs := by
  induction ls generalizing d with
  | nil => exact h
  | cons line ls ih => exact ih (h.of_grows (Grows.read d line))

/-! ## A line is taken -/

theorem says_discuss (d : Draft) (line : List Char) : (d.discuss line).Says (dropBlankEnd line) :=
  ⟨String.ofList (dropBlankEnd line), by simp [texts, discuss], by simp⟩

theorem Says.mono {xs : List Char} (h : d.Says xs) (hcs : cs <:+: xs) : d.Says cs := by
  obtain ⟨t, ht, hxs⟩ := h
  exact ⟨t, ht, hcs.trans hxs⟩

theorem says_continueLast (more : String) (hne : d.parameters ≠ []) :
    ({ d with parameters := continueLast more d.parameters } : Draft).Says more.toList := by
  obtain ⟨ps, p, hps⟩ := (List.eq_nil_or_concat' d.parameters).resolve_left hne
  rw [hps, continueLast_append_singleton]
  exact ⟨_, by simp [texts], infix_continued_right p.description more⟩

/-- A line of text is taken, unless it says more of a parameter that is not there. -/
theorem says_readText (hne : dropBlanks line ≠ [])
    (htaken : d.part = .parameterList ∨ d.part = .parameter → d.parameters ≠ []) :
    (d.readText line).Says (dropBlanks line) := by
  unfold readText
  dsimp only
  have hsome : (String.ofList (dropBlanks line)).isEmpty = false := by simpa using hne
  have hlist : dropBlanks line = (String.ofList (dropBlanks line)).toList := by simp
  generalize String.ofList (dropBlanks line) = text at hsome hlist
  cases hpart : d.part with
  | discussion =>
    exact (says_discuss d line).mono (dropBlanks_infix_dropBlankEnd line)
  | summary =>
    dsimp only
    rw [hsome, if_neg (by simp), hlist]
    exact ⟨text, by simp [texts], List.infix_rfl⟩
  | parameterList | parameter =>
    dsimp only
    rw [hsome, if_neg (by simp), hlist]
    obtain ⟨t, ht, hmore⟩ := says_continueLast text (htaken (by simp [hpart]))
    exact ⟨t, ht, hmore⟩
  | returns =>
    dsimp only
    rw [hsome, if_neg (by simp), hlist]
    exact ⟨_, by simp [texts], infix_continued_right d.returns text⟩
  | throws =>
    dsimp only
    rw [hsome, if_neg (by simp), hlist]
    exact ⟨_, by simp [texts], infix_continued_right d.throws text⟩

/-- Where there is no parameter, a line that says more of one is passed over. -/
theorem readText_of_stray (hne : dropBlanks line ≠ []) (hpart : d.part = .parameterList)
    (hparameters : d.parameters = []) : d.readText line = d := by
  have hsome : (String.ofList (dropBlanks line)).isEmpty = false := by simpa using hne
  obtain ⟨part, inCode, summary, discussion, parameters, returns, throws⟩ := d
  obtain rfl : part = .parameterList := hpart
  obtain rfl : parameters = [] := hparameters
  simp [readText, hsome, continueLast]

/-! ## Drafts that are read -/

/-- The description of a parameter is open only after a parameter. -/
theorem parameters_readProse_ne_nil (h : d.part = .parameter → d.parameters ≠ [])
    (hpart : (d.readProse line).part = .parameter) : (d.readProse line).parameters ≠ [] := by
  unfold readProse at hpart ⊢
  split at hpart
  · next callout _ => cases callout <;> simp_all [readCallout]
  · split at hpart
    · simp
    · have hsame : (d.readText line).part = d.part := by
        refine (part_readText_eq_or d line).resolve_left fun hdiscussion => ?_
        rw [hdiscussion] at hpart
        cases hpart
      rw [ne_eq, parameters_readText_eq_nil_iff]
      exact h (hsame.symm.trans hpart)

theorem parameters_foldl_read_ne_nil (ls : List (List Char))
    (hpart : (ls.foldl read start).part = .parameter) : (ls.foldl read start).parameters ≠ [] := by
  induction ls using List.reverseRecOn with
  | nil => cases hpart
  | append_singleton ls line ih =>
    rw [foldl_read_append_singleton] at hpart ⊢
    cases hcode : isFence line || (ls.foldl read start).inCode with
    | true =>
      rw [read_of_code hcode] at hpart ⊢
      split at hpart
      · cases hpart
      · exact ih hpart
    | false =>
      rw [read_of_prose hcode] at hpart ⊢
      exact parameters_readProse_ne_nil ih hpart

/-! ## Texts of a comment -/

/-- A line of a discussion that is not empty is in its text. -/
theorem infix_discussionText {ts : List String} {l : String}
    (hlines : ∀ l ∈ ts, '\n' ∉ l.toList ∧ trimEnd l = l) (hl : l ∈ ts) (hne : l ≠ "") :
    l.toList <:+: (discussionText ts).toList := by
  obtain ⟨m, mid, n, rfl, htext, -⟩ := exists_discussionText_eq hlines
  have hmid : l ∈ mid := by simpa [hne] using hl
  rw [htext, toList_intercalate_newline]
  exact infix_joinPieces (List.mem_map_of_mem hmid) '\n'

/-- A text with something in it is one of a comment. -/
theorem mem_nonempty {t : String} (hcs : cs <:+: t.toList) (hne : cs ≠ []) :
    t ∈ nonempty? t := by
  refine nonempty?_eq_some_iff.2 ⟨rfl, ?_⟩
  rintro rfl
  exact hne (List.infix_nil.1 hcs)

theorem Says.finish (h : d.Says cs) (hd : d.Sound) (hne : cs ≠ []) : d.finish.Says cs := by
  rw [says_iff] at h
  rw [Comment.says_iff, Draft.finish]
  dsimp only
  rcases h with ⟨t, ht, hcs⟩ | ⟨t, ht, hcs⟩ | hcs | hcs | ⟨p, hp, hcs⟩
  · left
    rw [show " " = String.singleton ' ' from rfl, toList_intercalate]
    exact hcs.trans (infix_joinPieces (List.mem_map_of_mem ht) ' ')
  · have hline : t ≠ "" := by
      rintro rfl
      exact hne (List.infix_nil.1 hcs)
    have hcs := hcs.trans (infix_discussionText hd.discussion ht hline)
    exact .inr (.inl ⟨_, mem_nonempty hcs hne, hcs⟩)
  · exact .inr (.inr (.inl ⟨_, mem_nonempty hcs hne, hcs⟩))
  · exact .inr (.inr (.inr (.inl ⟨_, mem_nonempty hcs hne, hcs⟩)))
  · exact .inr (.inr (.inr (.inr ⟨p, hp, hcs⟩)))

/-! ## One line of a comment -/

theorem says_read_of_code (h : (isFence line || d.inCode) = true) :
    (d.read line).Says (dropBlankEnd line) := by
  rw [read_of_code h]
  obtain ⟨t, ht, hcs⟩ := says_discuss d line
  exact ⟨t, ht, hcs⟩

/-- A line that is text, after the lines above it. -/
theorem readProse_foldl_read (hcallout : Callout.ofLine? (dropBlanks line) = none)
    (hcode : ¬ IsCode above line) (hentry : ¬ IsEntry above line) :
    (above.foldl read start).read line = (above.foldl read start).readText line := by
  have hprose : (isFence line || (above.foldl read start).inCode) = false :=
    Bool.eq_false_iff.2 (mt (code_foldl_read_iff above line).1 hcode)
  have hnone : Draft.entry? (above.foldl read start) line = none :=
    (no_entry_foldl_read_iff above line).2 fun h => hentry ⟨hcode, h.1, hcallout, h.2⟩
  rw [read_of_prose hprose, readProse, hcallout, hnone]

end Draft

/-- **What a comment keeps.** A line with text that is no callout and no entry of a list is found
in the comment, with its indentation if it is code. Stray lines are the exception: the comment is
the same without them. -/
theorem parse_keepsText {text : String} (hlines : lines text.toList = above ++ line :: below)
    (hblank : dropBlanks line ≠ [])
    (hcallout : ¬ IsCode above line → Callout.ofLine? (dropBlanks line) = none)
    (hentry : ¬ IsEntry above line) :
    (¬ IsStray above line →
      (parse text).Says (if IsCode above line then dropBlankEnd line else dropBlanks line)) ∧
    (IsStray above line →
      parse (String.ofList (joinPieces '\n' (above ++ below))) = parse text) := by
  have hfold : (lines text.toList).foldl Draft.read Draft.start =
      below.foldl Draft.read ((above.foldl Draft.read Draft.start).read line) := by
    rw [hlines, List.foldl_append, List.foldl_cons]
  have hsound : ((lines text.toList).foldl Draft.read Draft.start).Sound :=
    Draft.Sound.start.foldl_read fun _ => newline_not_mem_of_mem_lines
  refine ⟨fun hstray => ?_, fun hstray => ?_⟩
  · -- the line is taken when it is read, and stays to the end
    have hfound : ((above.foldl Draft.read Draft.start).read line).Says
        (if IsCode above line then dropBlankEnd line else dropBlanks line) := by
      split
      · next hcode => exact Draft.says_read_of_code ((Draft.code_foldl_read_iff above line).2 hcode)
      · next hcode =>
        rw [Draft.readProse_foldl_read (hcallout hcode) hcode hentry]
        refine Draft.says_readText hblank fun hpart => ?_
        rcases hpart with hpart | hpart
        · intro hnil
          exact hstray ⟨hcode, (Draft.part_foldl_read_eq_iff above).1 hpart,
            (Draft.parameters_foldl_read_eq_nil_iff above).1 hnil⟩
        · exact Draft.parameters_foldl_read_ne_nil above hpart
    have hne : (if IsCode above line then dropBlankEnd line else dropBlanks line) ≠ [] := by
      split
      · intro hnil
        rw [← dropBlankStart_dropBlankEnd, hnil] at hblank
        exact hblank rfl
      · exact hblank
    rw [hfold] at hsound
    rw [parse, hfold]
    exact (hfound.foldl_read below).finish hsound hne
  · obtain ⟨hcode, hopen, hnone⟩ := hstray
    have hread : (above.foldl Draft.read Draft.start).read line =
        above.foldl Draft.read Draft.start := by
      rw [Draft.readProse_foldl_read (hcallout hcode) hcode hentry]
      exact Draft.readText_of_stray hblank ((Draft.part_foldl_read_eq_iff above).2 hopen)
        ((Draft.parameters_foldl_read_eq_nil_iff above).2 hnone)
    have hpieces : pieces '\n' (joinPieces '\n' (above ++ below)) = above ++ below := by
      refine pieces_joinPieces (fun l hl => ?_) ?_
      · have hmem : l ∈ lines text.toList := by
          rw [hlines]
          simp only [List.mem_append, List.mem_cons] at hl ⊢
          tauto
        exact newline_not_mem_of_mem_lines hmem
      · obtain ⟨before, head, since, rfl, -⟩ := hopen
        simp
    rw [parse_eq, String.toList_ofList, hpieces, List.foldl_append, parse, hfold, hread]

/-- A comment with a stray line, with a parameter on two lines, and with code that is not closed. -/
def strayComment : String :=
  "Runs.\n- Parameters:\nNone.\n  - x: The first\n    value\n- Returns:\n\x60\x60\x60\n" ++
    "  - Throws: code "

theorem parse_strayComment_keepsText :
    (parse strayComment).Says "value".toList ∧
      (parse strayComment).Says "  - Throws: code".toList ∧
      parse ("Runs.\n- Parameters:\n  - x: The first\n    value\n- Returns:\n" ++
        "\x60\x60\x60\n  - Throws: code ") = parse strayComment := by
  refine ⟨?_, ?_, ?_⟩
  · have hlines : lines strayComment.toList =
        ["Runs.", "- Parameters:", "None.", "  - x: The first"].map String.toList ++
          "    value".toList ::
            ["- Returns:", "\x60\x60\x60", "  - Throws: code "].map String.toList := by
      decide +kernel
    have hstray : ¬ IsStray
        (["Runs.", "- Parameters:", "None.", "  - x: The first"].map String.toList)
        "    value".toList := by
      rintro ⟨-, -, hnames⟩
      exact absurd ((Draft.parameters_foldl_read_eq_nil_iff _).2 hnames) (by decide +kernel)
    exact (parse_keepsText hlines (by decide +kernel) (fun _ => by decide +kernel)
      (not_isEntry (by decide +kernel))).1 hstray
  · have hlines : lines strayComment.toList =
        ["Runs.", "- Parameters:", "None.", "  - x: The first", "    value", "- Returns:",
          "\x60\x60\x60"].map String.toList ++ "  - Throws: code ".toList :: [] := by
      decide +kernel
    have hcode : IsCode (["Runs.", "- Parameters:", "None.", "  - x: The first", "    value",
        "- Returns:", "\x60\x60\x60"].map String.toList) "  - Throws: code ".toList := by
      decide +kernel
    have hkept := (parse_keepsText hlines (by decide +kernel) (fun h => absurd hcode h)
      (fun h => h.1 hcode)).1 (fun h => h.1 hcode)
    rwa [if_pos hcode] at hkept
  · have hlines : lines strayComment.toList =
        ["Runs.", "- Parameters:"].map String.toList ++ "None.".toList ::
          ["  - x: The first", "    value", "- Returns:", "\x60\x60\x60",
            "  - Throws: code "].map String.toList := by
      decide +kernel
    have hstray : IsStray (["Runs.", "- Parameters:"].map String.toList) "None.".toList :=
      ⟨by decide +kernel, (Draft.part_foldl_read_eq_iff _).1 (by decide +kernel),
        (Draft.parameters_foldl_read_eq_nil_iff _).1 (by decide +kernel)⟩
    have hsame := (parse_keepsText hlines (by decide +kernel) (fun _ => by decide +kernel)
      (not_isEntry (by decide +kernel))).2 hstray
    rw [← hsame]
    congr 1

/-- The line below the head of a list without entries is lost. -/
theorem not_keepsText_below_listHead : ¬ ∀ (text : String) (above below : List (List Char))
    (line : List Char), lines text.toList = above ++ line :: below → dropBlanks line ≠ [] →
      (¬ IsCode above line → Callout.ofLine? (dropBlanks line) = none) → ¬ IsEntry above line →
      (parse text).Says (if IsCode above line then dropBlankEnd line else dropBlanks line) := by
  intro h
  have hempty : parse "- Parameters:\nNone." = .empty := by decide +kernel
  obtain ⟨t, ht, hcs⟩ := h "- Parameters:\nNone." ["- Parameters:".toList] [] "None.".toList
    (by decide +kernel) (by decide +kernel) (fun _ => by decide +kernel)
    (not_isEntry (by decide +kernel))
  rw [hempty] at ht
  obtain rfl : t = "" := by simpa [texts, empty] using ht
  exact absurd (List.infix_nil.1 hcs) (by decide +kernel)

end ApiPages.Comment
