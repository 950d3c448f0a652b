import ApiPages.Proofs.Comment.CalloutLine
import ApiPages.Proofs.Comment.Reading

/-!
# Comment markup

A comment written by its parts: the summary, the discussion, then a callout for each parameter, for
the return value and for thrown errors, with blank lines before the discussion and the callouts.
Reading it gives the parts back, whatever stands in blocks of code and whatever the parameters are
called.
-/

namespace ApiPages

open Text
open Comment (Draft proseLines)

/-- A comment by its parts. -/
structure Markup where
  summary : String
  /-- The lines of the discussion. -/
  discussion : List String
  parameters : List Parameter
  returns : Option String
  throws : Option String
  /-- The line that keeps the discussion apart from the summary. -/
  beforeDiscussion : String
  /-- The line that keeps the callouts apart from what is before them. -/
  beforeCallouts : String

namespace Markup

/-- The callouts in the order in which they are written. -/
def callouts (m : Markup) : List Callout :=
  m.parameters.map .parameter ++ (m.returns.map .returns).toList ++ (m.throws.map .throws).toList

/-- The lines before the callouts. -/
def opening (m : Markup) : List String :=
  [m.summary] ++ (if m.discussion.isEmpty then [] else m.beforeDiscussion :: m.discussion) ++
    [m.beforeCallouts]

/-- The comment as it is written. -/
def text (m : Markup) : String :=
  "\n".intercalate (m.opening ++ m.callouts.map Callout.line)

/-- The comment that consists of the parts. -/
def comment (m : Markup) : Comment where
  summary := m.summary
  discussion := if m.discussion.isEmpty then none else some ("\n".intercalate m.discussion)
  parameters := m.parameters
  returns := m.returns
  throws := m.throws

/-- Whether the parts can be told apart when they are written: the summary is no callout and no
fence, and the discussion begins and ends with text, closes its blocks of code, and has callouts
only in them. -/
structure WellFormed (m : Markup) : Prop where
  summary : IsPhrase m.summary ∧ m.summary ≠ ""
  noFence : isFence m.summary.toList = false
  noCallout : Callout.ofLine? m.summary.toList = none
  lines : ∀ l ∈ m.discussion, '\n' ∉ l.toList ∧ trimEnd l = l
  first : ∀ l ∈ m.discussion.head?, isBlankText l = false
  last : ∀ l ∈ m.discussion.getLast?, isBlankText l = false
  fences : Even (m.discussion.countP fun l => isFence l.toList)
  prose : ∀ line ∈ proseLines false (m.discussion.map String.toList),
    Callout.ofLine? (dropBlanks line) = none
  callouts : ∀ callout ∈ m.callouts, callout.Fits
  returns : m.returns ≠ some ""
  throws : m.throws ≠ some ""
  beforeDiscussion : '\n' ∉ m.beforeDiscussion.toList ∧ isBlankText m.beforeDiscussion = true
  beforeCallouts : '\n' ∉ m.beforeCallouts.toList ∧ isBlankText m.beforeCallouts = true

variable {m : Markup}

/-! ## The lines of the text -/

theorem newline_not_mem_opening (h : m.WellFormed) : ∀ l ∈ m.opening, '\n' ∉ l.toList := by
  intro l hl
  simp only [opening, List.mem_append, List.mem_singleton] at hl
  rcases hl with (rfl | hl) | rfl
  · exact h.summary.1.oneLine
  · split at hl
    · simp at hl
    · rcases List.mem_cons.1 hl with rfl | hl
      · exact h.beforeDiscussion.1
      · exact (h.lines l hl).1
  · exact h.beforeCallouts.1

theorem pieces_text (h : m.WellFormed) :
    pieces '\n' m.text.toList =
      m.opening.map String.toList ++ m.callouts.map fun callout => callout.line.toList := by
  rw [text, toList_intercalate_newline, pieces_joinPieces]
  · rw [List.map_append, List.map_map]
    rfl
  · intro line hline
    obtain ⟨l, hl, rfl⟩ := List.mem_map.1 hline
    rcases List.mem_append.1 hl with hl | hl
    · exact newline_not_mem_opening h l hl
    · obtain ⟨callout, hcallout, rfl⟩ := List.mem_map.1 hl
      exact Callout.newline_not_mem_line (h.callouts callout hcallout)
  · simp [opening]

/-! ## Reading the opening -/

theorem read_summary (h : m.WellFormed) :
    Draft.start.read m.summary.toList = { Draft.start with summary := [m.summary] } := by
  have hdrop := h.summary.1.dropBlanks_toList
  have hempty : m.summary.isEmpty = false := by simpa using h.summary.2
  simp [Draft.read, h.noFence, Draft.start, Draft.readProse, hdrop, h.noCallout, Draft.entry?,
    Draft.readText, hempty]

theorem foldl_discussion (h : m.WellFormed) {d : Draft} (hpart : d.part = .discussion)
    (hcode : d.inCode = false) :
    (m.discussion.map String.toList).foldl Draft.read d =
      { d with discussion := d.discussion ++ m.discussion } := by
  have hlines : (m.discussion.map String.toList).map
      (fun line => String.ofList (dropBlankEnd line)) = m.discussion := by
    rw [List.map_map]
    exact (List.map_congr_left fun l hl => (h.lines l hl).2).trans (List.map_id' _)
  have hfences : Even ((m.discussion.map String.toList).countP isFence) := by
    rw [List.countP_map]
    exact h.fences
  rw [Draft.foldl_read_discussion hpart (by rw [hcode]; exact h.prose), hlines,
    decide_eq_false (Nat.not_odd_iff_even.2 hfences), Bool.xor_false]

/-- What is read before the callouts: the summary and the discussion, with an empty line after it
that does not count. -/
theorem foldl_opening (h : m.WellFormed) :
    (m.opening.map String.toList).foldl Draft.read Draft.start =
      { Draft.start with
        part := .discussion
        summary := [m.summary]
        discussion := if m.discussion.isEmpty then [] else m.discussion ++ [""] } := by
  have hgap : ∀ {l : String}, isBlankText l = true → ∀ d : Draft, d.read l.toList = d.read [] := by
    intro l hl d
    exact Draft.read_of_blank (by simpa [isBlankText] using hl) d
  rw [opening, List.map_append, List.map_append, List.foldl_append, List.foldl_append,
    List.map_singleton, List.foldl_cons, List.foldl_nil, read_summary h, List.map_singleton,
    List.foldl_cons, List.foldl_nil, hgap h.beforeCallouts.2]
  cases hempty : m.discussion.isEmpty with
  | true => rfl
  | false =>
    rw [if_neg (by simp), List.map_cons, List.foldl_cons, hgap h.beforeDiscussion.2]
    have hdraft : ({ Draft.start with summary := [m.summary] } : Draft).read [] =
        { Draft.start with part := .discussion, summary := [m.summary] } := rfl
    rw [hdraft, foldl_discussion h rfl rfl]
    rfl

/-! ## Reading the callouts -/

theorem finish_foldl_callouts (h : m.WellFormed) {d : Draft} (hparameters : d.parameters = [])
    (hreturns : d.returns = "") (hthrows : d.throws = "") :
    (m.callouts.foldl Draft.readCallout d).finish =
      { d.finish with parameters := m.parameters, returns := m.returns, throws := m.throws } := by
  have hnone : Draft.nonempty? "" = none := rfl
  have hsome : ∀ {text : String}, some text ≠ some "" →
      Draft.nonempty? (Comment.continued "" text) = some text := by
    intro text htext
    have hne : text.isEmpty = false := by simpa using htext
    simp [Comment.continued, Draft.nonempty?, hne]
  have hr := h.returns
  have ht := h.throws
  rw [callouts, List.foldl_append, List.foldl_append, Draft.foldl_readCallout_parameters]
  -- a text that is not there is none, and one that is there is not continued
  cases hret : m.returns <;> cases hthr : m.throws <;>
    simp_all [Draft.readCallout, Draft.finish]

theorem finish_opening (h : m.WellFormed) :
    Draft.nonempty? (Draft.discussionText
      (if m.discussion.isEmpty then [] else m.discussion ++ [""])) = m.comment.discussion := by
  rw [comment]
  cases hempty : m.discussion.isEmpty with
  | true => rfl
  | false =>
    have hne : m.discussion ≠ [] := by simpa using hempty
    obtain ⟨htext, hsome⟩ := Draft.discussionText_eq hne h.lines h.first h.last
    have hsome : ("\n".intercalate m.discussion).isEmpty = false := by simpa using hsome
    simp [Draft.discussionText_append_empty, htext, Draft.nonempty?, hsome]

/-- **A comment that is written by its parts is read as these parts.** -/
theorem parse_text (h : m.WellFormed) : Comment.parse m.text = m.comment := by
  have hcallouts : ∀ callout ∈ m.callouts,
      Callout.ofLine? (dropBlanks callout.line.toList) = some callout :=
    fun callout hcallout => Callout.ofLine?_line (h.callouts callout hcallout)
  rw [Comment.parse_eq, pieces_text h, List.foldl_append, foldl_opening h,
    Draft.foldl_read_callouts rfl hcallouts, finish_foldl_callouts h rfl rfl rfl]
  simp only [Draft.finish, finish_opening h]
  rw [comment]
  simp

/-- A comment with a line of code that looks like a callout, with parameters that have the words of
callouts for their names, and with callouts in the texts of others. -/
def lookalikes : Markup where
  summary := "Turns the wheel"
  discussion := ["For example:", "", "\x60\x60\x60", "- Returns: code", "\x60\x60\x60",
    "    - Indented"]
  parameters := [⟨"Returns", "A name"⟩, ⟨"parameter", ""⟩]
  returns := some "- Throws: nothing"
  throws := some "Parameters:"
  beforeDiscussion := ""
  beforeCallouts := "  "

theorem parse_lookalikes :
    Comment.parse ("\n".intercalate
        ["Turns the wheel", "", "For example:", "", "\x60\x60\x60", "- Returns: code",
          "\x60\x60\x60", "    - Indented", "  ", "- Parameter Returns: A name",
          "- Parameter parameter: ", "- Returns: - Throws: nothing", "- Throws: Parameters:"]) =
      ⟨"Turns the wheel",
        some "For example:\n\n\x60\x60\x60\n- Returns: code\n\x60\x60\x60\n    - Indented",
        [⟨"Returns", "A name"⟩, ⟨"parameter", ""⟩], some "- Throws: nothing",
        some "Parameters:"⟩ := by
  have hphrase : ∀ s ∈ ["Turns the wheel", "A name", "", "- Throws: nothing", "Parameters:"],
      IsPhrase s := by
    have hall : ∀ s ∈ ["Turns the wheel", "A name", "", "- Throws: nothing", "Parameters:"],
        '\n' ∉ s.toList ∧ trim s = s := by decide +kernel
    exact fun s hs => ⟨(hall s hs).1, (hall s hs).2⟩
  have hcallouts : ∀ callout ∈ lookalikes.callouts, callout.Fits := by
    intro callout hcallout
    simp only [callouts, lookalikes, List.map_cons, List.map_nil, Option.map_some,
      Option.toList_some, List.cons_append, List.nil_append, List.mem_cons, List.not_mem_nil,
      or_false] at hcallout
    rcases hcallout with rfl | rfl | rfl | rfl
    · exact ⟨by decide, List.all_eq_true.1 (by decide), hphrase _ (by simp)⟩
    · exact ⟨by decide, List.all_eq_true.1 (by decide), hphrase _ (by simp)⟩
    · exact hphrase _ (by simp)
    · exact hphrase _ (by simp)
  have hwell : lookalikes.WellFormed :=
    { summary := ⟨hphrase _ (by simp [lookalikes]), by decide⟩
      noFence := by decide +kernel
      noCallout := by decide +kernel
      lines := by decide +kernel
      first := by decide +kernel
      last := by decide +kernel
      fences := by decide +kernel
      prose := by decide +kernel
      callouts := hcallouts
      returns := by decide
      throws := by decide
      beforeDiscussion := by decide +kernel
      beforeCallouts := by decide +kernel }
  have htext : lookalikes.text = "\n".intercalate
      ["Turns the wheel", "", "For example:", "", "\x60\x60\x60", "- Returns: code",
        "\x60\x60\x60", "    - Indented", "  ", "- Parameter Returns: A name",
        "- Parameter parameter: ", "- Returns: - Throws: nothing", "- Throws: Parameters:"] := by
    decide +kernel
  rw [← htext, parse_text hwell]
  decide +kernel

end Markup

end ApiPages
