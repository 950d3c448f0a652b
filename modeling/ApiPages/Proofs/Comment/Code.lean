import ApiPages.Proofs.Comment.Reading
import ApiPages.Proofs.Page.LinkedSpans

/-!
# The code of a comment

The reader of comments and the linker of code spans agree on what is code (`parse_keepsCode`),
though they go through different texts: the one through the lines of the comment, the other through
the discussion that is made of some of them. All code is among these, so the fences of a discussion
are those of the comment, and linking passes over the same lines. Nothing that is code goes to
another part of the comment.
-/

namespace ApiPages.Comment

open Text

variable {d e : Draft} {line : List Char} {ls : List (List Char)} {ts : List String}

/-- The lines with their blocks of code emptied: their fences are bare, with nothing between. -/
def emptyBlocks : Bool → List (List Char) → List (List Char)
  | _, [] => []
  | inCode, line :: ls =>
    if isFence line then fenceMark :: emptyBlocks (!inCode) ls
    else if inCode then emptyBlocks true ls
    else line :: emptyBlocks false ls

/-- The comment with its blocks of code emptied. -/
def withoutCode (text : String) : String :=
  String.ofList (joinPieces '\n' (emptyBlocks false (pieces '\n' text.toList)))

namespace Draft

/-- The draft with another discussion. -/
def holding (d : Draft) (ts : List String) : Draft :=
  { d with discussion := ts }

/-- The drafts differ at most in their discussions. -/
def Alike (d e : Draft) : Prop :=
  ∃ ts, e = d.holding ts

/-! ## What one line does -/

theorem inCode_readText (d : Draft) (line : List Char) : (d.readText line).inCode = d.inCode := by
  unfold readText
  cases d.part with
  | discussion => rfl
  | summary =>
    dsimp only
    split
    · split <;> rfl
    · rfl
  | _ =>
    dsimp only
    split <;> rfl

theorem inCode_readProse (d : Draft) (line : List Char) : (d.readProse line).inCode = d.inCode := by
  unfold readProse
  split
  · exact inCode_readCallout d _
  · split
    · rfl
    · exact inCode_readText d line

/-- A fence opens a block of code or closes the one that is open. -/
theorem inCode_read (d : Draft) (line : List Char) :
    (d.read line).inCode = (d.inCode ^^ isFence line) := by
  cases hcode : isFence line || d.inCode with
  | true => rw [read_of_code hcode]
  | false =>
    obtain ⟨hfence, -⟩ := Bool.or_eq_false_iff.1 hcode
    rw [read_of_prose hcode, inCode_readProse, hfence, Bool.xor_false]

theorem inCode_foldl_read (d : Draft) (ls : List (List Char)) :
    (ls.foldl read d).inCode = isOpenAfter d.inCode ls := by
  induction ls generalizing d with
  | nil => exact (isOpenAfter_nil d.inCode).symm
  | cons line ls ih => rw [List.foldl_cons, ih, inCode_read, isOpenAfter_cons]

/-! ## What one line does, whatever the discussion holds -/

theorem readText_holding (hpart : d.part ≠ .discussion) (line : List Char) (ts : List String) :
    (d.holding ts).readText line = (d.readText line).holding ts := by
  obtain ⟨part, inCode, summary, discussion, parameters, returns, throws⟩ := d
  cases part with
  | discussion => exact absurd rfl hpart
  | summary =>
    cases htext : (String.ofList (dropBlanks line)).isEmpty <;>
      cases hsummary : summary.isEmpty <;> simp [readText, holding, htext, hsummary]
  | _ =>
    simp only [readText, holding]
    split <;> rfl

/-- A line outside of code goes to the discussion or to some other part, and which of the two does
not depend on the discussion. -/
theorem readProse_holding (d : Draft) (line : List Char) :
    (∀ ts, (d.holding ts).readProse line = (d.holding ts).discuss line) ∨
      ∀ ts, (d.holding ts).readProse line = (d.readProse line).holding ts := by
  simp only [readProse]
  cases Callout.ofLine? (dropBlanks line) with
  | some callout =>
    right
    intro ts
    cases callout <;> rfl
  | none =>
    have hentry : ∀ ts, entry? (d.holding ts) line = d.entry? line := fun ts => rfl
    simp only [hentry]
    cases d.entry? line with
    | some p => exact .inr fun ts => rfl
    | none =>
      by_cases hpart : d.part = .discussion
      · left
        intro ts
        have hpart : (d.holding ts).part = .discussion := hpart
        simp [readText, hpart]
      · exact .inr (readText_holding hpart line)

/-- **What a line does to a discussion.** The line is added to it or, unless it is code, it is not.
Nothing else that it does depends on what the discussion holds. -/
theorem read_holding (d : Draft) (line : List Char) :
    (∀ ts, (d.holding ts).read line =
        (d.read line).holding (ts ++ [String.ofList (dropBlankEnd line)])) ∨
      (isFence line || d.inCode) = false ∧
        ∀ ts, (d.holding ts).read line = (d.read line).holding ts := by
  cases hcode : isFence line || d.inCode with
  | true =>
    left
    intro ts
    rw [read_of_code hcode, read_of_code (d := d.holding ts) hcode]
    rfl
  | false =>
    have hread : ∀ ts, (d.holding ts).read line = (d.holding ts).readProse line :=
      fun ts => read_of_prose hcode
    simp only [hread, read_of_prose hcode]
    rcases readProse_holding d line with h | h
    · have hdiscuss : d.readProse line = d.discuss line := h d.discussion
      exact .inl fun ts => by rw [h, hdiscuss]; rfl
    · exact .inr ⟨by simp, h⟩

/-! ## The lines of a discussion -/

theorem exists_discussion_foldl_read (d : Draft) (ls : List (List Char)) :
    ∃ kept, KeepsCode d.inCode kept ls ∧
      (ls.foldl read d).discussion =
        d.discussion ++ kept.map fun line => String.ofList (dropBlankEnd line) := by
  induction ls generalizing d with
  | nil => exact ⟨[], .nil _, by simp⟩
  | cons line ls ih =>
    obtain ⟨kept, hkept, hdiscussion⟩ := ih (d.read line)
    rw [inCode_read] at hkept
    rcases read_holding d line with h | ⟨hprose, h⟩
    · have hread : d.read line =
          (d.read line).holding (d.discussion ++ [String.ofList (dropBlankEnd line)]) :=
        h d.discussion
      refine ⟨line :: kept, hkept.keep, ?_⟩
      rw [List.foldl_cons, hdiscussion, hread]
      simp [holding]
    · have hread : d.read line = (d.read line).holding d.discussion := h d.discussion
      obtain ⟨hfence, hopen⟩ := Bool.or_eq_false_iff.1 hprose
      rw [hfence, hopen] at hkept
      refine ⟨kept, by rw [hopen]; exact hkept.drop hfence, ?_⟩
      rw [List.foldl_cons, hdiscussion, hread]
      rfl

/-! ## The parts besides the discussion -/

namespace Alike

theorem read (h : Alike d e) (line : List Char) : Alike (d.read line) (e.read line) := by
  obtain ⟨ts, rfl⟩ := h
  rcases read_holding d line with h | ⟨-, h⟩
  · exact ⟨_, h ts⟩
  · exact ⟨_, h ts⟩

/-- One fence does what another does. -/
theorem read_fence {other : List Char} (h : Alike d e) (hline : isFence line = true)
    (hother : isFence other = true) : Alike (d.read line) (e.read other) := by
  obtain ⟨ts, rfl⟩ := h
  refine ⟨ts ++ [String.ofList (dropBlankEnd other)], ?_⟩
  rw [read_of_code (by simp [hother]), read_of_code (by simp [hline])]
  simp [holding, discuss, hline, hother]

/-- A line between fences does nothing. -/
theorem read_code (h : Alike d e) (hfence : isFence line = false) (hcode : d.inCode = true) :
    Alike (d.read line) e := by
  obtain ⟨ts, rfl⟩ := h
  refine ⟨ts, ?_⟩
  rw [read_of_code (by simp [hcode])]
  simp [holding, discuss, hfence]

/-- A block of code may say what it likes. -/
theorem foldl_read_emptyBlocks (h : Alike d e) (ls : List (List Char)) :
    Alike (ls.foldl Draft.read d) ((emptyBlocks d.inCode ls).foldl Draft.read e) := by
  induction ls generalizing d e with
  | nil => exact h
  | cons line ls ih =>
    have hopen := inCode_read d line
    rw [List.foldl_cons, emptyBlocks]
    cases hfence : isFence line with
    | true =>
      rw [hfence, Bool.xor_true] at hopen
      rw [if_pos rfl, List.foldl_cons, ← hopen]
      exact ih (h.read_fence hfence (by decide))
    | false =>
      rw [hfence, Bool.xor_false] at hopen
      rw [if_neg (by simp)]
      cases hcode : d.inCode with
      | true =>
        rw [if_pos rfl, ← hcode, ← hopen]
        exact ih (h.read_code hfence hcode)
      | false =>
        rw [if_neg (by simp), List.foldl_cons, ← hcode, ← hopen]
        exact ih (h.read line)

end Alike

/-! ## The text of a discussion -/

/-- Empty lines around a discussion do not count. -/
theorem discussionText_padded (m n : Nat) (ts : List String) :
    discussionText (List.replicate m "" ++ ts ++ List.replicate n "") = discussionText ts := by
  have hend : discussionText (ts ++ List.replicate n "") = discussionText ts := by
    induction n with
    | zero => simp
    | succ n ih => rw [List.replicate_succ', ← List.append_assoc, discussionText_append_empty, ih]
  induction m with
  | zero => rw [List.replicate_zero, List.nil_append, hend]
  | succ m ih =>
    rw [List.replicate_succ, List.cons_append, List.cons_append, discussionText_cons_empty, ih]

theorem trimEnd_discussionText (ts : List String) :
    trimEnd (discussionText ts) = discussionText ts := by
  rw [trimEnd, discussionText, String.toList_ofList, dropBlankEnd_dropBlankEnd]

end Draft

/-- Lines are empty ones around some that are not. -/
theorem exists_eq_padded (ts : List String) :
    ∃ m mid n, ts = List.replicate m "" ++ mid ++ List.replicate n "" ∧
      (∀ l ∈ mid.head?, l ≠ "") ∧ ∀ l ∈ mid.getLast?, l ≠ "" := by
  induction ts with
  | nil => exact ⟨0, [], 0, rfl, by simp, by simp⟩
  | cons l ts ih =>
    obtain ⟨m, mid, n, rfl, hfirst, hlast⟩ := ih
    by_cases hl : l = ""
    · exact ⟨m + 1, mid, n, by simp [hl, List.replicate_succ], hfirst, hlast⟩
    · cases mid with
      | nil => exact ⟨0, [l], m + n, by simp, by simpa using hl, by simpa using hl⟩
      | cons first rest =>
        refine ⟨0, (l :: List.replicate m "") ++ first :: rest, n, by simp, by simpa using hl, ?_⟩
        rw [List.getLast?_append_of_ne_nil _ (List.cons_ne_nil first rest)]
        exact hlast

/-- The text of a discussion consists of its lines but for the empty ones around them. -/
theorem exists_discussionText_eq (hlines : ∀ l ∈ ts, '\n' ∉ l.toList ∧ trimEnd l = l) :
    ∃ m mid n, ts = List.replicate m "" ++ mid ++ List.replicate n "" ∧
      Draft.discussionText ts = "\n".intercalate mid ∧
      ∀ l ∈ mid.head?, isBlankText l = false := by
  obtain ⟨m, mid, n, rfl, hfirst, hlast⟩ := exists_eq_padded ts
  have hmid : ∀ l ∈ mid, '\n' ∉ l.toList ∧ trimEnd l = l := fun l hl => hlines l (by simp [hl])
  have hblank : ∀ l ∈ mid, l ≠ "" → isBlankText l = false := by
    intro l hl hne
    rw [← (hmid l hl).2] at hne ⊢
    exact isBlankText_trimEnd hne
  have hstart : ∀ l ∈ mid.head?, isBlankText l = false :=
    fun l hl => hblank l (List.mem_of_mem_head? hl) (hfirst l hl)
  refine ⟨m, mid, n, rfl, ?_, hstart⟩
  rw [Draft.discussionText_padded]
  by_cases hne : mid = []
  · rw [hne]
    rfl
  · exact (Draft.discussionText_eq hne hmid hstart
      (fun l hl => hblank l (List.mem_of_mem_getLast? hl) (hlast l hl))).1

theorem exists_of_discussionText_ne
    (hlines : ∀ l ∈ ts, '\n' ∉ l.toList ∧ trimEnd l = l) (hne : Draft.discussionText ts ≠ "") :
    ∃ m first rest n, ts = List.replicate m "" ++ first :: rest ++ List.replicate n "" ∧
      Draft.discussionText ts = "\n".intercalate (first :: rest) ∧ isBlankText first = false := by
  obtain ⟨m, mid, n, hts, htext, hfirst⟩ := exists_discussionText_eq hlines
  cases mid with
  | nil => exact absurd htext hne
  | cons first rest => exact ⟨m, first, rest, n, hts, htext, hfirst first rfl⟩

theorem nonempty?_eq_some_iff {s t : String} :
    Draft.nonempty? s = some t ↔ t = s ∧ t ≠ "" := by
  unfold Draft.nonempty?
  split
  · next hempty =>
    rw [String.isEmpty_iff] at hempty
    simp [hempty]
  · next hne =>
    rw [String.isEmpty_iff] at hne
    constructor
    · rintro ⟨⟩
      exact ⟨rfl, hne⟩
    · rintro ⟨rfl, -⟩
      rfl

theorem discussion_parse (text : String) :
    (parse text).discussion = Draft.nonempty? (Draft.discussionText
      ((lines text.toList).foldl Draft.read Draft.start).discussion) := by
  rw [parse, Draft.finish]

/-- **The lines of a discussion** are lines of the comment with the blanks at their ends taken off,
among them all that are code. Only empty lines around them are left out. -/
theorem exists_of_discussion_eq_some {text t : String} (h : (parse text).discussion = some t) :
    ∃ kept m first rest n, KeepsCode false kept (lines text.toList) ∧
      kept.map dropBlankEnd = List.replicate m [] ++ first :: rest ++ List.replicate n [] ∧
      pieces '\n' t.toList = first :: rest ∧ trimEnd t = t ∧ dropBlankStart first ≠ [] := by
  obtain ⟨kept, hkept, hdiscussion⟩ :=
    Draft.exists_discussion_foldl_read Draft.start (lines text.toList)
  generalize hts : kept.map (fun line => String.ofList (dropBlankEnd line)) = ts at hdiscussion
  have hlist : kept.map dropBlankEnd = ts.map String.toList := by
    rw [← hts, List.map_map]
    exact List.map_congr_left fun line _ => String.toList_ofList.symm
  have hlines : ∀ l ∈ ts, '\n' ∉ l.toList ∧ trimEnd l = l := by
    rw [← hts, List.forall_mem_map]
    intro line hline
    have hnewline := newline_not_mem_of_mem_lines (hkept.sublist.subset hline)
    simp only [trimEnd, String.toList_ofList, dropBlankEnd_dropBlankEnd, and_true]
    exact fun hmem => hnewline (dropBlankEnd_subset line hmem)
  have hstart : Draft.start.discussion = [] := rfl
  rw [discussion_parse, hdiscussion, hstart, List.nil_append, nonempty?_eq_some_iff] at h
  obtain ⟨rfl, hne⟩ := h
  obtain ⟨m, first, rest, n, hpadded, htext, hfirst⟩ := exists_of_discussionText_ne hlines hne
  refine ⟨kept, m, first.toList, rest.map String.toList, n, hkept, ?_, ?_, ?_, ?_⟩
  · rw [hlist, hpadded]
    simp
  · rw [htext, toList_intercalate_newline, pieces_joinPieces]
    · rfl
    · rw [List.forall_mem_map]
      intro l hl
      refine (hlines l ?_).1
      rw [hpadded]
      exact List.mem_append_left _ (List.mem_append_right _ hl)
    · simp
  · exact Draft.trimEnd_discussionText ts
  · rw [dropBlankStart, ne_eq, List.dropWhile_eq_nil_iff, ← List.all_eq_true]
    exact Bool.eq_false_iff.1 hfirst

/-! ## Code on both sides -/

/-- The reader and the linker find the same code, but for empty lines at the end. -/
theorem codeLines_discussion {text t : String} (h : (parse text).discussion = some t) :
    ∃ n, (codeLines false (lines text.toList)).map dropBlankEnd =
        codeLines false (pieces '\n' t.toList) ++ List.replicate n [] ∧
      (isOpenAfter false (lines text.toList) = false → n = 0) := by
  obtain ⟨kept, m, first, rest, n, hkept, hpadded, hpieces, -, -⟩ := exists_of_discussion_eq_some h
  have hempty : ∀ n, ∀ line ∈ List.replicate n ([] : List Char), isFence line = false := by
    intro n line hline
    rw [List.eq_of_mem_replicate hline]
    rfl
  have hopen : isOpenAfter false (first :: rest) = isOpenAfter false (lines text.toList) := by
    rw [← hkept.isOpenAfter_eq, ← isOpenAfter_map isFence_dropBlankEnd false kept, hpadded,
      isOpenAfter_append, isOpenAfter_append, isOpenAfter_of_no_fence (hempty n),
      isOpenAfter_of_no_fence (hempty m)]
  have hcode : (codeLines false (lines text.toList)).map dropBlankEnd =
      codeLines false (first :: rest) ++
        if isOpenAfter false (lines text.toList) then List.replicate n [] else [] := by
    rw [← hkept.codeLines_eq, ← codeLines_map isFence_dropBlankEnd, hpadded, codeLines_append,
      codeLines_append, isOpenAfter_append, isOpenAfter_of_no_fence (hempty m), hopen,
      codeLines_of_no_fence (hempty m), codeLines_of_no_fence (hempty n)]
    rfl
  rw [hpieces, hcode]
  cases isOpenAfter false (lines text.toList) with
  | true => exact ⟨n, rfl, fun h => by cases h⟩
  | false => exact ⟨0, rfl, fun _ => rfl⟩

/-- Linking a discussion keeps its code, but for the indentation of the first line. -/
theorem getElem?_linkedLines_discussion {text t : String} (h : (parse text).discussion = some t)
    (x : PageIndex) (source current : String) {above below : List (List Char)}
    (hlines : pieces '\n' t.toList = above ++ line :: below) (hcode : IsCode above line) :
    (x.linkedLines source current (trim t))[above.length]? =
      some (if above = [] then dropBlankStart line else line) := by
  obtain ⟨-, -, first, rest, -, -, -, hpieces, htrim, hfirst⟩ := exists_of_discussion_eq_some h
  rw [PageIndex.linkedLines, pieces_trim htrim hpieces hfirst]
  rw [hpieces] at hlines
  cases above with
  | nil =>
    obtain ⟨rfl, rfl⟩ := List.cons.inj hlines
    have hcode' : IsCode [] (dropBlankStart first) := by
      simpa only [isCode_iff, isFence_dropBlankStart] using hcode
    have hline := PageIndex.getElem?_linkLines (x.spanLink? source current) []
      (dropBlankStart first) rest
    rwa [if_pos hcode'] at hline
  | cons a above =>
    obtain ⟨rfl, rfl⟩ := List.cons.inj hlines
    have hcode' : IsCode (dropBlankStart first :: above) line := by
      simpa only [isCode_iff, isOpenAfter_cons, isFence_dropBlankStart] using hcode
    have hline := PageIndex.getElem?_linkLines (x.spanLink? source current)
      (dropBlankStart first :: above) line below
    rwa [if_pos hcode'] at hline

/-! ## Comments without their code -/

theorem mem_emptyBlocks {inCode : Bool} (h : line ∈ emptyBlocks inCode ls) :
    line = fenceMark ∨ line ∈ ls := by
  induction ls generalizing inCode with
  | nil => simp [emptyBlocks] at h
  | cons first ls ih =>
    rw [emptyBlocks] at h
    split at h
    · rcases List.mem_cons.1 h with rfl | h
      · exact .inl rfl
      · exact (ih h).imp_right (List.mem_cons_of_mem first)
    · split at h
      · exact (ih h).imp_right (List.mem_cons_of_mem first)
      · rcases List.mem_cons.1 h with rfl | h
        · exact .inr List.mem_cons_self
        · exact (ih h).imp_right (List.mem_cons_of_mem first)

theorem pieces_withoutCode (text : String) :
    pieces '\n' (withoutCode text).toList = emptyBlocks false (pieces '\n' text.toList) := by
  rw [withoutCode, String.toList_ofList, pieces_joinPieces]
  · intro line hline
    rcases mem_emptyBlocks hline with rfl | hline
    · decide
    · exact not_mem_of_mem_pieces hline
  · obtain ⟨first, rest, hpieces⟩ := List.exists_cons_of_ne_nil (pieces_ne_nil '\n' text.toList)
    rw [hpieces, emptyBlocks]
    split <;> simp

/-- What a comment says besides its discussion it says outside of code. -/
theorem parse_withoutCode (text : String) :
    { parse (withoutCode text) with discussion := none } =
      { parse text with discussion := none } := by
  have halike : Draft.Alike Draft.start Draft.start := ⟨[], rfl⟩
  obtain ⟨ts, hts⟩ := halike.foldl_read_emptyBlocks (pieces '\n' text.toList)
  rw [parse_eq, parse_eq, pieces_withoutCode]
  have hstart : Draft.start.inCode = false := rfl
  rw [← hstart, hts]
  rfl

/-- **The reader and the linker agree on code.** A comment with a discussion has all its code in it,
where the linker takes just that for code and keeps it. What a comment says besides its discussion,
it says outside of code. -/
theorem parse_keepsCode {text t : String} (h : (parse text).discussion = some t) :
    (∃ n, (codeLines false (lines text.toList)).map dropBlankEnd =
        codeLines false (pieces '\n' t.toList) ++ List.replicate n [] ∧
      (Even ((lines text.toList).countP isFence) → n = 0)) ∧
    (∀ (x : PageIndex) (source current : String),
      (x.linkSpans source current (trim t)).toList =
        joinPieces '\n' (x.linkedLines source current (trim t)) ∧
      ∀ above line below, pieces '\n' t.toList = above ++ line :: below → IsCode above line →
        (x.linkedLines source current (trim t))[above.length]? =
          some (if above = [] then dropBlankStart line else line)) ∧
    (∀ above line below, lines text.toList = above ++ line :: below →
      (IsCode above line ↔
        isFence line = true ∨ (above.foldl Draft.read Draft.start).inCode = true) ∧
      (IsCode above line →
        ∃ part inCode discussion, (above ++ [line]).foldl Draft.read Draft.start =
          { above.foldl Draft.read Draft.start with part, inCode, discussion })) ∧
    { parse (withoutCode text) with discussion := none } =
      { parse text with discussion := none } := by
  refine ⟨?_, fun x source current => ⟨PageIndex.toList_linkSpans x source current (trim t), ?_⟩,
    ?_, parse_withoutCode text⟩
  · obtain ⟨n, hcode, hclosed⟩ := codeLines_discussion h
    refine ⟨n, hcode, fun heven => hclosed ?_⟩
    simpa [isOpenAfter] using heven
  · intro above line below
    exact getElem?_linkedLines_discussion h x source current
  · intro above line below _
    have hopen : (isFence line || (above.foldl Draft.read Draft.start).inCode) = true ↔
        IsCode above line := by
      rw [Draft.inCode_foldl_read]
      exact isCode_iff.symm
    refine ⟨by rw [← hopen, Bool.or_eq_true], fun hcode => ?_⟩
    rw [List.foldl_append, List.foldl_cons, List.foldl_nil]
    exact ⟨_, _, _, Draft.read_of_code (hopen.2 hcode)⟩

/-- A discussion with a line of code that would be a callout elsewhere, and with a block that is not
closed. -/
def blocks : String :=
  "  \x60\x60\x60\n- Returns: \x60Dog\x60\n\x60\x60\x60\n\x60\x60\x60"

/-- A comment of that discussion. -/
def blocksComment : String :=
  "Runs.\n\n  \x60\x60\x60\n- Returns: \x60Dog\x60\n\x60\x60\x60\n- Returns: a \x60Dog\x60\n\n" ++
    "\x60\x60\x60\n\n"

theorem parse_blocksComment_keepsCode :
    (parse blocksComment).discussion = some blocks ∧
      ((PageIndex.classIndex "Dog").linkedLines "README.md" "" (trim blocks))[1]? =
        some "- Returns: \x60Dog\x60".toList ∧
      { parse (withoutCode blocksComment) with discussion := none } =
        { parse blocksComment with discussion := none } := by
  have h : (parse blocksComment).discussion = some blocks := by decide +kernel
  obtain ⟨-, hlinked, -, hrest⟩ := parse_keepsCode h
  refine ⟨h, ?_, hrest⟩
  have hlines : pieces '\n' blocks.toList = ["  \x60\x60\x60".toList] ++
      "- Returns: \x60Dog\x60".toList :: ["\x60\x60\x60".toList, "\x60\x60\x60".toList] := by
    decide +kernel
  exact (hlinked (PageIndex.classIndex "Dog") "README.md" "").2 _ _ _ hlines (by decide +kernel)

end ApiPages.Comment
