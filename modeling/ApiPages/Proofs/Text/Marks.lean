import ApiPages.Text.Fence
import ApiPages.Proofs.Text.Pieces
import ApiPages.Proofs.Text.Trimmed

/-!
# Marks of a text

What a reader of Markdown sees in the lines of a text before anything else: fences, and headings,
which begin with `#`. Blanks before a mark do not count, and blanks around a text have none.
-/

namespace ApiPages.Text

/-- A line that is a heading: how many times `#` stands before it, and its text. -/
structure HeadingLine where
  level : Nat
  text : String
deriving DecidableEq, Repr

/-- A line that is more than text. -/
inductive Mark where
  | fence
  | heading (h : HeadingLine)
deriving DecidableEq, Repr

/-- What a line is that begins with no blank. -/
def markOf? (line : List Char) : Option Mark :=
  if fenceMark.isPrefixOf line then some .fence
  else if line.head? = some '#' then
    some (.heading ⟨(line.takeWhile (· = '#')).length,
      String.ofList (dropBlanks (line.dropWhile (· = '#')))⟩)
  else none

/-- What a line is, if it is more than text. -/
def mark? (line : List Char) : Option Mark :=
  markOf? (dropBlankStart line)

/-- The marks among the lines of a text, in order. -/
def marks (cs : List Char) : List Mark :=
  (pieces '\n' cs).filterMap mark?

variable {c : Char} {cs line xs ys : List Char} {ps : List (List Char)}

/-! ## Lines -/

theorem takeWhile_append_singleton {p : Char → Bool} (h : p c = false) (cs : List Char) :
    (cs ++ [c]).takeWhile p = cs.takeWhile p := by
  induction cs with
  | nil => simp [h]
  | cons a cs ih => cases ha : p a <;> simp [ha, ih]

theorem dropWhile_append_singleton {p : Char → Bool} (h : p c = false) (cs : List Char) :
    (cs ++ [c]).dropWhile p = cs.dropWhile p ++ [c] := by
  induction cs with
  | nil => simp [h]
  | cons a cs ih => cases ha : p a <;> simp [ha, ih]

theorem mark?_cons_blank (h : isBlank c = true) (cs : List Char) :
    mark? (c :: cs) = mark? cs := by
  rw [mark?, dropBlankStart_cons h, mark?]

theorem isPrefixOf_fenceMark_append_blank (h : isBlank c = true) (cs : List Char) :
    fenceMark.isPrefixOf (cs ++ [c]) = fenceMark.isPrefixOf cs := by
  have htick : c ≠ '\x60' := by
    rintro rfl
    exact absurd h (by decide)
  -- a blank does not make a fence of fewer than three backticks
  match cs with
  | [] => simp [fenceMark, List.isPrefixOf]
  | [a] => simp [fenceMark, List.isPrefixOf]
  | [a, b] => simp [fenceMark, List.isPrefixOf, htick.symm]
  | a :: b :: d :: cs => simp [fenceMark, List.isPrefixOf]

theorem isFence_append_blank (h : isBlank c = true) (cs : List Char) :
    isFence (cs ++ [c]) = isFence cs := by
  rw [isFence, dropBlankStart_append_singleton h, isFence]
  split
  · next hnil => rw [hnil]
  · exact isPrefixOf_fenceMark_append_blank h _

theorem isFence_dropBlankStart (cs : List Char) : isFence (dropBlankStart cs) = isFence cs := by
  rw [isFence, isFence, dropBlankStart_dropBlankStart]

theorem isFence_dropBlankEnd (cs : List Char) : isFence (dropBlankEnd cs) = isFence cs := by
  induction cs using List.reverseRecOn with
  | nil => rfl
  | append_singleton cs c ih =>
    cases hc : isBlank c with
    | true => rw [dropBlankEnd_append_singleton hc, ih, isFence_append_blank hc]
    | false => rw [dropBlankEnd_append_of_not hc]

theorem markOf?_append_blank (h : isBlank c = true) (cs : List Char) :
    markOf? (cs ++ [c]) = markOf? cs := by
  have hhash : c ≠ '#' := by
    rintro rfl
    exact absurd h (by decide)
  have hfence := isPrefixOf_fenceMark_append_blank h cs
  have htake := takeWhile_append_singleton (p := (· = '#')) (by simpa using hhash) cs
  have hdrop := dropWhile_append_singleton (p := (· = '#')) (by simpa using hhash) cs
  have hhead : (cs ++ [c]).head? = some '#' ↔ cs.head? = some '#' := by
    cases cs with
    | nil => simp [hhash]
    | cons a cs => simp
  simp only [markOf?, hfence, htake, hdrop, hhead, dropBlanks_append_singleton h]

theorem mark?_append_blank (h : isBlank c = true) (cs : List Char) :
    mark? (cs ++ [c]) = mark? cs := by
  rw [mark?, dropBlankStart_append_singleton h, mark?]
  split
  · next hnil => rw [hnil]
  · exact markOf?_append_blank h _

theorem mark?_of_heading (n : Nat) (h : dropBlanks cs = cs) :
    mark? (List.replicate (n + 1) '#' ++ ' ' :: cs) =
      some (.heading ⟨n + 1, String.ofList cs⟩) := by
  have hall : ∀ a ∈ List.replicate (n + 1) '#', (decide (a = '#')) = true := by
    intro a ha
    simpa using List.eq_of_mem_replicate ha
  have hstart : dropBlankStart (List.replicate (n + 1) '#' ++ ' ' :: cs) =
      List.replicate (n + 1) '#' ++ ' ' :: cs := by
    rw [List.replicate_succ, List.cons_append, dropBlankStart,
      List.dropWhile_cons_of_neg (by decide)]
  have hfence : fenceMark.isPrefixOf (List.replicate (n + 1) '#' ++ ' ' :: cs) = false := by
    simp [List.replicate_succ, fenceMark, List.isPrefixOf]
  have htake : (List.replicate (n + 1) '#' ++ ' ' :: cs).takeWhile (· = '#') =
      List.replicate (n + 1) '#' := by
    rw [List.takeWhile_append_of_pos hall, List.takeWhile_cons_of_neg (by decide), List.append_nil]
  have hdrop : (List.replicate (n + 1) '#' ++ ' ' :: cs).dropWhile (· = '#') = ' ' :: cs := by
    rw [List.dropWhile_append_of_pos hall, List.dropWhile_cons_of_neg (by decide)]
  have hhead : (List.replicate (n + 1) '#' ++ ' ' :: cs).head? = some '#' := by
    simp [List.replicate_succ]
  rw [mark?, hstart, markOf?, hfence, htake, hdrop, hhead, dropBlanks_cons (by decide), h]
  simp

/-! ## Backticks -/

theorem mark?_fence (cs : List Char) : mark? ('\x60' :: '\x60' :: '\x60' :: cs) = some .fence :=
  rfl

theorem mark?_tick (h : c ≠ '\x60') (cs : List Char) : mark? ('\x60' :: c :: cs) = none := by
  have hdrop : dropBlankStart ('\x60' :: c :: cs) = '\x60' :: c :: cs := rfl
  simp [mark?, hdrop, markOf?, fenceMark, List.isPrefixOf, h.symm]

theorem mark?_ticks (h : c ≠ '\x60') (cs : List Char) :
    mark? ('\x60' :: '\x60' :: c :: cs) = none := by
  have hdrop : dropBlankStart ('\x60' :: '\x60' :: c :: cs) = '\x60' :: '\x60' :: c :: cs := rfl
  simp [mark?, hdrop, markOf?, fenceMark, List.isPrefixOf, h.symm]

theorem isFence_of_mark? (h : mark? line = none) : isFence line = false := by
  by_contra hfence
  rw [Bool.not_eq_false, isFence] at hfence
  simp [mark?, markOf?, hfence] at h

/-- What follows a text without backticks that is more than blanks does not change what it is. -/
theorem mark?_append_congr (hxs : dropBlankStart xs ≠ []) (htick : '\x60' ∉ xs)
    (h : mark? (xs ++ ys) = none) (zs : List Char) : mark? (xs ++ zs) = none := by
  obtain ⟨c, cs, hdrop⟩ := List.exists_cons_of_ne_nil hxs
  have hc : c ∈ xs := by
    have hmem : c ∈ dropBlankStart xs := hdrop ▸ List.mem_cons_self
    exact (List.dropWhile_sublist _).subset hmem
  have hne : c ≠ '\x60' := by
    rintro rfl
    exact htick hc
  have happend : ∀ zs, dropBlankStart (xs ++ zs) = c :: (cs ++ zs) := by
    intro zs
    rw [dropBlankStart_append_of_ne_nil hxs, hdrop, List.cons_append]
  rw [mark?, happend] at h ⊢
  by_cases hhash : c = '#'
  · -- the line would have been a heading
    subst hhash
    simp [markOf?, fenceMark, List.isPrefixOf] at h
  · simp [markOf?, fenceMark, List.isPrefixOf, hne.symm, hhash]

theorem mark?_append_of_blank (h : dropBlankStart xs = []) (ys : List Char) :
    mark? (xs ++ ys) = mark? ys := by
  rw [mark?, dropBlankStart, List.dropWhile_append, ← dropBlankStart, h]
  rfl

/-! ## Texts -/

theorem marks_nil : marks [] = [] := rfl

theorem marks_of_line (h : '\n' ∉ line) : marks line = (mark? line).toList := by
  cases hm : mark? line <;> simp [marks, pieces_of_not_mem h, hm]

/-- A line end keeps what is before it and what is after it apart. -/
theorem marks_append_cons (xs ys : List Char) :
    marks (xs ++ '\n' :: ys) = marks xs ++ marks ys := by
  rw [marks, pieces_append_cons, List.filterMap_append, marks, marks]

theorem marks_cons_blank (h : isBlank c = true) (cs : List Char) : marks (c :: cs) = marks cs := by
  by_cases hc : c = '\n'
  · subst hc
    exact marks_append_cons [] cs
  · -- the blank goes to the first line, which it does not change
    obtain ⟨line, rest, hcs⟩ := List.exists_cons_of_ne_nil (pieces_ne_nil '\n' cs)
    rw [marks, marks, show c :: cs = [c] ++ cs from rfl,
      pieces_append_of_not_mem (by simpa using Ne.symm hc), hcs, List.modifyHead_cons,
      List.filterMap_cons, List.filterMap_cons, List.singleton_append, mark?_cons_blank h]

theorem marks_append_blank (h : isBlank c = true) (cs : List Char) :
    marks (cs ++ [c]) = marks cs := by
  by_cases hc : c = '\n'
  · subst hc
    rw [marks_append_cons, marks_nil, List.append_nil]
  · induction cs using byLines with
    | one line hline =>
      have hline' : '\n' ∉ line ++ [c] := by simp [hline, Ne.symm hc]
      rw [marks_of_line hline, marks_of_line hline', mark?_append_blank h]
    | more line rest hline ih =>
      rw [List.append_assoc, List.cons_append, marks_append_cons, ih, marks_append_cons]

theorem marks_dropBlankStart (cs : List Char) : marks (dropBlankStart cs) = marks cs := by
  induction cs with
  | nil => rfl
  | cons c cs ih =>
    by_cases hc : isBlank c = true
    · rw [dropBlankStart_cons hc, ih, marks_cons_blank hc]
    · simp [dropBlankStart, hc]

theorem marks_dropBlankEnd (cs : List Char) : marks (dropBlankEnd cs) = marks cs := by
  induction cs using List.reverseRecOn with
  | nil => rfl
  | append_singleton cs c ih =>
    by_cases hc : isBlank c = true
    · rw [dropBlankEnd_append_singleton hc, ih, marks_append_blank hc]
    · simp [dropBlankEnd, dropEndWhile, hc]

/-- **Trimming a text keeps its marks.** -/
theorem marks_trim (s : String) : marks (trim s).toList = marks s.toList := by
  rw [trim, String.toList_ofList, dropBlanks, marks_dropBlankEnd, marks_dropBlankStart]

theorem marks_trimEnd (s : String) : marks (trimEnd s).toList = marks s.toList := by
  rw [trimEnd, String.toList_ofList, marks_dropBlankEnd]

/-- Lines joined have the marks of each. -/
theorem marks_joinPieces (ps : List (List Char)) :
    marks (joinPieces '\n' ps) = ps.flatMap marks := by
  induction ps with
  | nil => rfl
  | cons p ps ih =>
    cases ps with
    | nil => simp [joinPieces]
    | cons q qs =>
      rw [List.flatMap_cons, ← ih, joinPieces_cons_cons, marks_append_cons]

/-! ## Plain beginnings -/

/-- Whether a line that begins so is text. -/
def isPlainStart (c : Char) : Bool :=
  !isBlank c && c != '#' && c != '\x60'

theorem mark?_of_plainStart (h : isPlainStart c = true) (cs : List Char) :
    mark? (c :: cs) = none := by
  simp only [isPlainStart, Bool.and_eq_true, Bool.not_eq_true', bne_iff_ne, ne_eq] at h
  obtain ⟨⟨hblank, hhash⟩, htick⟩ := h
  have hdrop : dropBlankStart (c :: cs) = c :: cs := by simp [dropBlankStart, hblank]
  simp [mark?, markOf?, hdrop, fenceMark, hhash, Ne.symm htick]

/-- A beginning that is text leaves a text without marks as it is. -/
theorem marks_of_plainStart (h : isPlainStart c = true) (hxs : '\n' ∉ xs) (hys : marks ys = []) :
    marks (c :: xs ++ ys) = [] := by
  have hline : '\n' ∉ c :: xs := by
    rw [List.mem_cons, not_or]
    refine ⟨?_, hxs⟩
    rintro rfl
    exact absurd h (by decide)
  obtain ⟨line, rest, hcs⟩ := List.exists_cons_of_ne_nil (pieces_ne_nil '\n' ys)
  rw [marks, hcs, List.filterMap_eq_nil_iff] at hys
  rw [marks, pieces_append_of_not_mem hline, hcs, List.modifyHead_cons,
    List.filterMap_eq_nil_iff]
  intro piece hp
  rcases List.mem_cons.1 hp with rfl | hp
  · exact mark?_of_plainStart h _
  · exact hys piece (List.mem_cons_of_mem _ hp)

end ApiPages.Text
