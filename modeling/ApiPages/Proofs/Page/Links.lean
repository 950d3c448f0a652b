import ApiPages.Page.Link
import ApiPages.Proofs.Text.Marks
import ApiPages.Proofs.Text.Unescape

/-!
# Links bring no marks

A code span that becomes a link begins with a bracket and stays in its line, so prose without marks
has none when its code spans are linked.
-/

namespace ApiPages

open Text (mark? marks pieces joinPieces dropBlankStart)

namespace PageIndex

variable {x : PageIndex} {link? : List Char → Option (List Char)} {before line code : List Char}
  {rest : List (List Char)}

/-- Nothing that links are written with leaves the line. -/
structure OneLine (x : PageIndex) : Prop where
  linkStart : '\n' ∉ x.linkStart.toList
  linkEnd : '\n' ∉ x.linkEnd.toList
  anchors : ∀ p ∈ x.pages, ∀ a, p.anchor = some a → '\n' ∉ a.toList

/-- Nothing that the settings and the anchors add to links has the character. -/
structure Without (x : PageIndex) (c : Char) : Prop where
  linkStart : c ∉ x.linkStart.toList
  linkEnd : c ∉ x.linkEnd.toList
  anchors : ∀ p ∈ x.pages, ∀ a, p.anchor = some a → c ∉ a.toList

theorem OneLine.without (hx : x.OneLine) : x.Without '\n' :=
  ⟨hx.linkStart, hx.linkEnd, hx.anchors⟩

/-- What spans become: links, which begin with a bracket and stay in the line of the span. -/
def Links (link? : List Char → Option (List Char)) : Prop :=
  ∀ code l, link? code = some l → '\n' ∉ code → l.head? = some '[' ∧ '\n' ∉ l

/-- A character that links have only if the settings or anchors bring it. -/
structure IsForeign (c : Char) : Prop where
  notSafe : Text.isLinkSafe c = false
  notEscape : c ≠ '%'
  notFragment : c ≠ '#'

theorem isForeign_newline : IsForeign '\n' :=
  ⟨by decide, by decide, by decide⟩

theorem not_mem_link {c : Char} (hc : IsForeign c) (hx : x.Without c) {target : Page}
    (ht : target ∈ x.pages) (source : String) : c ∉ (x.link target source).toList := by
  have hfragment : c ∉ (fragment target).toList := by
    unfold fragment
    cases ha : target.anchor with
    | none => simp
    | some a => simpa [hc.notFragment] using hx.anchors target ht a ha
  have hsafe : ∀ d, Text.isLinkSafe d = true → c ≠ d := by
    rintro d hd rfl
    cases hc.notSafe.symm.trans hd
  have hascent : c ∉ (ascent source).toList := by
    simp [ascent, String.toList_join, hsafe '.' (by decide), hsafe '/' (by decide)]
  unfold link
  split
  · exact hfragment
  · have hstart := hx.linkStart
    have hend := hx.linkEnd
    have hpath := Text.not_mem_percentEncode hc.notSafe hc.notEscape
      (dropEnding (dropRoot target.path.toList))
    split <;> simp [hfragment, hascent, hstart, hend, hpath]

theorem newline_not_mem_link (hx : x.OneLine) {target : Page} (ht : target ∈ x.pages)
    (source : String) : '\n' ∉ (x.link target source).toList :=
  not_mem_link isForeign_newline hx.without ht source

theorem newline_not_mem_linkedSpan (hx : x.OneLine) {target : Page} (ht : target ∈ x.pages)
    {name : String} (hname : '\n' ∉ name.toList) (source : String) :
    '\n' ∉ (x.linkedSpan target name source).toList := by
  simp [linkedSpan, hname, newline_not_mem_link hx ht source]

theorem links_spanLink? (hx : x.OneLine) (source current : String) :
    Links (x.spanLink? source current) := by
  intro code l hl hcode
  simp only [spanLink?] at hl
  split at hl
  · cases hl
  · obtain ⟨target, htarget, rfl⟩ := Option.map_eq_some_iff.1 hl
    have hmem : target ∈ x.pages := List.mem_of_find?_eq_some htarget
    refine ⟨by simp [linkedSpan], ?_⟩
    exact newline_not_mem_linkedSpan hx hmem (by simpa using hcode) source

/-! ## Pieces -/

/-- Linked pieces stay in their line. -/
theorem newline_not_mem_linkPieces (h : Links link?) (hbefore : '\n' ∉ before)
    (hrest : ∀ p ∈ rest, '\n' ∉ p) : '\n' ∉ linkPieces link? before rest := by
  induction before, rest using linkPieces.induct with
  | case1 before => simpa [linkPieces] using hbefore
  | case2 before last =>
    have hlast := hrest last List.mem_cons_self
    simp [linkPieces, hbefore, hlast]
  | case3 before code after rest ih =>
    have hcode := hrest code List.mem_cons_self
    have hafter := hrest after (by simp)
    have htail := ih hafter fun p hp => hrest p (by simp [hp])
    have hspan : '\n' ∉ span code := by simp [span, hcode]
    have hmiddle : '\n' ∉ (link? code).getD (span code) := by
      cases hl : link? code with
      | none => exact hspan
      | some l => exact (h code l hl hcode).2
    rw [linkPieces]
    split <;> simp [hbefore, htail, hspan, hmiddle]

theorem exists_linkPieces_eq (link? : List Char → Option (List Char)) (before : List Char)
    (rest : List (List Char)) : ∃ more, linkPieces link? before rest = before ++ more := by
  match rest with
  | [] => exact ⟨[], by rw [linkPieces, List.append_nil]⟩
  | [last] => exact ⟨_, rfl⟩
  | code :: after :: rest => exact ⟨_, by rw [linkPieces, List.append_assoc]⟩

theorem exists_joinPieces_eq (sep : Char) (before : List Char) (rest : List (List Char)) :
    ∃ more, joinPieces sep (before :: rest) = before ++ more := by
  cases rest with
  | nil => exact ⟨[], by simp [joinPieces]⟩
  | cons p rest => exact ⟨_, rfl⟩

/-- A span at the beginning of a line is no fence unless the line was one. -/
theorem mark?_span_append {after more : List Char} (hcode : '\x60' ∉ code)
    (hafter : '\x60' ∉ after)
    (hmore : more = [] ∨ ∃ last, joinPieces '\x60' (after :: rest) = after ++ '\x60' :: last)
    (hmark : mark? ('\x60' :: (code ++ '\x60' :: joinPieces '\x60' (after :: rest))) = none) :
    mark? (span code ++ (after ++ more)) = none := by
  cases code with
  | cons c code =>
    have hc : c ≠ '\x60' := by
      rintro rfl
      simp at hcode
    exact Text.mark?_tick hc _
  | nil =>
    cases after with
    | cons d after =>
      have hd : d ≠ '\x60' := by
        rintro rfl
        simp at hafter
      exact Text.mark?_ticks hd _
    | nil =>
      rcases hmore with rfl | ⟨last, hlast⟩
      · rfl
      · -- a third backtick follows, so the line was a fence
        rw [hlast] at hmark
        exact absurd hmark (by simp [Text.mark?_fence])

/-- A line that is text stays text when its pieces are linked. -/
theorem mark?_linkPieces (h : Links link?) (hbefore : '\x60' ∉ before)
    (hrest : ∀ p ∈ rest, '\n' ∉ p ∧ '\x60' ∉ p)
    (hmark : mark? (joinPieces '\x60' (before :: rest)) = none) :
    mark? (linkPieces link? before rest) = none := by
  by_cases hblank : dropBlankStart before = []
  · -- the first span begins the line
    match rest with
    | [] => exact hmark
    | [last] => exact hmark
    | code :: after :: rest =>
      obtain ⟨hcode, htick⟩ := hrest code List.mem_cons_self
      obtain ⟨-, hafter⟩ := hrest after (by simp)
      rw [Text.joinPieces_cons_cons, Text.mark?_append_of_blank hblank,
        Text.joinPieces_cons_cons] at hmark
      rw [linkPieces, List.append_assoc, Text.mark?_append_of_blank hblank]
      have hspan : mark? (span code ++ linkPieces link? after rest) = none := by
        obtain ⟨more, hmore⟩ := exists_linkPieces_eq link? after rest
        rw [hmore]
        refine mark?_span_append htick hafter ?_ hmark
        cases rest with
        | nil =>
          left
          simpa [linkPieces] using hmore
        | cons p rest => exact .inr ⟨_, rfl⟩
      split
      · exact hspan
      · cases hl : link? code with
        | none => exact hspan
        | some l =>
          obtain ⟨hhead, -⟩ := h code l hl hcode
          obtain ⟨l, rfl⟩ := List.head?_eq_some_iff.1 hhead
          exact Text.mark?_of_plainStart (by decide) _
  · -- what stands before the first span decides, and it stays
    obtain ⟨ys, hys⟩ := exists_joinPieces_eq '\x60' before rest
    obtain ⟨zs, hzs⟩ := exists_linkPieces_eq link? before rest
    rw [hys] at hmark
    rw [hzs]
    exact Text.mark?_append_congr hblank hbefore hmark zs

/-! ## Prose -/

theorem linkLine_eq (link? : List Char → Option (List Char)) (line : List Char) :
    ∃ before rest, pieces '\x60' line = before :: rest ∧
      linkLine link? line = linkPieces link? before rest := by
  obtain ⟨before, rest, h⟩ := List.exists_cons_of_ne_nil (Text.pieces_ne_nil '\x60' line)
  exact ⟨before, rest, h, by rw [linkLine, h]⟩

theorem newline_not_mem_linkLine (h : Links link?) (hline : '\n' ∉ line) :
    '\n' ∉ linkLine link? line := by
  obtain ⟨before, rest, hpieces, heq⟩ := linkLine_eq link? line
  have hall : ∀ p ∈ before :: rest, '\n' ∉ p := by
    intro p hp hmem
    rw [← hpieces] at hp
    exact hline (Text.subset_of_mem_pieces hp hmem)
  rw [heq]
  exact newline_not_mem_linkPieces h (hall before List.mem_cons_self)
    fun p hp => hall p (List.mem_cons_of_mem _ hp)

theorem mark?_linkLine (h : Links link?) (hline : '\n' ∉ line) (hmark : mark? line = none) :
    mark? (linkLine link? line) = none := by
  obtain ⟨before, rest, hpieces, heq⟩ := linkLine_eq link? line
  have htick : ∀ p ∈ before :: rest, '\n' ∉ p ∧ '\x60' ∉ p := by
    intro p hp
    rw [← hpieces] at hp
    refine ⟨?_, Text.not_mem_of_mem_pieces hp⟩
    intro hmem
    exact hline (Text.subset_of_mem_pieces hp hmem)
  rw [heq]
  refine mark?_linkPieces h (htick before List.mem_cons_self).2
    (fun p hp => htick p (List.mem_cons_of_mem _ hp)) ?_
  rw [← hpieces, Text.joinPieces_pieces]
  exact hmark

/-- Without fences every line is linked. -/
theorem linkLines_eq_map {ls : List (List Char)} (h : ∀ line ∈ ls, mark? line = none) :
    linkLines link? false ls = ls.map (linkLine link?) := by
  induction ls with
  | nil => rfl
  | cons line ls ih =>
    rw [List.forall_mem_cons] at h
    rw [linkLines, Text.isFence_of_mark? h.1, ih h.2]
    rfl

/-- **Linking brings no marks.** -/
theorem marks_linkSpans (hx : x.OneLine) (source current : String) {text : String}
    (h : marks text.toList = []) : marks (x.linkSpans source current text).toList = [] := by
  have hlinks := links_spanLink? hx source current
  rw [marks, List.filterMap_eq_nil_iff] at h
  rw [linkSpans, linkLines_eq_map h, String.toList_ofList, Text.marks_joinPieces,
    List.flatMap_eq_nil_iff]
  intro linked hlinked
  obtain ⟨line, hline, rfl⟩ := List.mem_map.1 hlinked
  have hnewline := Text.not_mem_of_mem_pieces hline
  rw [Text.marks_of_line (newline_not_mem_linkLine hlinks hnewline),
    mark?_linkLine hlinks hnewline (h line hline)]
  rfl

/-! ## Lists of names -/

theorem newline_not_mem_codeLink (hx : x.OneLine) {name : String} (hname : '\n' ∉ name.toList)
    (source : String) : '\n' ∉ (x.codeLink name source).toList := by
  unfold codeLink
  cases ht : x.page? name with
  | none => simp [hname]
  | some target => exact newline_not_mem_linkedSpan hx (List.mem_of_find?_eq_some ht) hname source

/-- A name as code is text, unless another backtick follows. -/
theorem mark?_codeLink_append (x : PageIndex) {name : String} (hname : '\x60' ∉ name.toList)
    (source : String) {more : List Char} (hmore : more.head? ≠ some '\x60') :
    mark? ((x.codeLink name source).toList ++ more) = none := by
  unfold codeLink
  cases x.page? name with
  | some target =>
    have htext : (x.linkedSpan target name source).toList ++ more = '[' ::
        ("\x60".toList ++ name.toList ++ "\x60](".toList ++ (x.link target source).toList ++
          ")".toList ++ more) := by
      simp [linkedSpan]
    show mark? ((x.linkedSpan target name source).toList ++ more) = none
    rw [htext]
    exact Text.mark?_of_plainStart (by decide) _
  | none =>
    have htext : ("\x60" ++ name ++ "\x60").toList ++ more =
        '\x60' :: (name.toList ++ '\x60' :: more) := by
      simp
    show mark? (("\x60" ++ name ++ "\x60").toList ++ more) = none
    rw [htext]
    cases hcs : name.toList with
    | nil =>
      cases more with
      | nil => rfl
      | cons c more => exact Text.mark?_ticks (by simpa using hmore) _
    | cons c cs =>
      rw [hcs, List.mem_cons, not_or] at hname
      exact Text.mark?_tick (Ne.symm hname.1) _

/-- What follows the first of a list of names as code: a comma or nothing, all in one line. -/
theorem exists_codeLinks_eq (hx : x.OneLine) (name : String) {names : List String}
    (hnames : ∀ n ∈ names, '\n' ∉ n.toList) (source : String) :
    ∃ more, (", ".intercalate ((name :: names).map fun n => x.codeLink n source)).toList =
      (x.codeLink name source).toList ++ more ∧ '\n' ∉ more ∧ more.head? ≠ some '\x60' := by
  induction names generalizing name with
  | nil => exact ⟨[], by simp, by simp, by simp⟩
  | cons n names ih =>
    rw [List.forall_mem_cons] at hnames
    obtain ⟨more, hmore, hnewline, -⟩ := ih n hnames.2
    have hn := newline_not_mem_codeLink hx hnames.1 source
    refine ⟨", ".toList ++ ((x.codeLink n source).toList ++ more), ?_, ?_, by simp⟩
    · rw [List.map_cons] at hmore
      rw [List.map_cons, List.map_cons, String.intercalate_cons_cons, String.toList_append,
        String.toList_append, hmore, List.append_assoc]
    · simp [hn, hnewline]

/-- A list of names as code is text. -/
theorem marks_codeLinks (hx : x.OneLine) {names : List String}
    (hnames : ∀ n ∈ names, '\n' ∉ n.toList ∧ '\x60' ∉ n.toList) (source : String) :
    marks (", ".intercalate (names.map fun n => x.codeLink n source)).toList = [] := by
  cases names with
  | nil => rfl
  | cons n names =>
    rw [List.forall_mem_cons] at hnames
    obtain ⟨more, hmore, hnewline, htick⟩ :=
      exists_codeLinks_eq hx n (fun m hm => (hnames.2 m hm).1) source
    have hn := newline_not_mem_codeLink hx hnames.1.1 source
    rw [hmore, Text.marks_of_line (by simp [hn, hnewline]),
      mark?_codeLink_append x hnames.1.2 source htick]
    rfl

end PageIndex

end ApiPages
