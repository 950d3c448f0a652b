import ApiPages.Proofs.Text.Folds
import ApiPages.Proofs.Text.Pieces
import ApiPages.Proofs.Text.Trimmed

/-!
# Texts without tags

A tag begins with `<` and ends with `>`. So texts without tags have none when they are put together,
if a character between them belongs to no tag, if the first has no `<` or if the second has no `>`.
A character that belongs to no tag also parts what is read: the marks in front of it and those
behind it do not depend on each other.
-/

namespace ApiPages.Text

/-- A text in which no tag stands. -/
def TagFree (cs : List Char) : Prop :=
  ∀ t : FoldTag, ¬ t.text <:+: cs

/-- A character that no tag is written with. -/
def Tagless (c : Char) : Prop :=
  ∀ t : FoldTag, c ∉ t.text

/-- A text that brings no tag where it stands between texts without tags. -/
def Insulated (cs : List Char) : Prop :=
  ∀ xs ys, TagFree xs → TagFree ys → TagFree (xs ++ cs ++ ys)

variable {c d : Char} {cs xs ys : List Char} {ps : List (List Char)} {t : FoldTag} {n : Nat}

theorem forall_foldTag_iff {P : FoldTag → Prop} : (∀ t, P t) ↔ P .opening ∧ P .closing := by
  constructor
  · exact fun h => ⟨h .opening, h .closing⟩
  · rintro ⟨hopening, hclosing⟩ (_ | _)
    exacts [hopening, hclosing]

instance : DecidablePred TagFree := fun _ =>
  decidable_of_iff _ forall_foldTag_iff.symm

instance : DecidablePred Tagless := fun _ =>
  decidable_of_iff _ forall_foldTag_iff.symm

theorem FoldTag.head?_text (t : FoldTag) : t.text.head? = some '<' := by
  cases t <;> rfl

theorem FoldTag.getLast?_text (t : FoldTag) : t.text.getLast? = some '>' := by
  cases t <;> rfl

theorem tagless_of_isBlank (h : isBlank c = true) : Tagless c := by
  intro t hmem
  have hnone : t.text.any isBlank = false := by
    cases t <;> rfl
  exact absurd h (List.any_eq_false.1 hnone c hmem)

/-! ## Texts put together -/

namespace TagFree

theorem of_infix (h : TagFree ys) (hxs : xs <:+: ys) : TagFree xs :=
  fun t ht => h t (ht.trans hxs)

theorem front_append (hxs : '<' ∉ xs) (hys : TagFree ys) : TagFree (xs ++ ys) := by
  intro t ht
  rcases List.infix_append_iff_ne_nil.1 ht with hin | hin | ⟨us, vs, hus, -, htext, hends, -⟩
  · exact hxs (hin.subset (List.mem_of_head? t.head?_text))
  · exact hys t hin
  · -- the tag begins in the first text
    have hhead : us.head? = some '<' := by
      rw [← t.head?_text, htext, List.head?_append_of_ne_nil us hus]
    exact hxs (hends.subset (List.mem_of_head? hhead))

theorem append_back (hxs : TagFree xs) (hys : '>' ∉ ys) : TagFree (xs ++ ys) := by
  intro t ht
  rcases List.infix_append_iff_ne_nil.1 ht with hin | hin | ⟨us, vs, -, hvs, htext, -, hbegins⟩
  · exact hxs t hin
  · exact hys (hin.subset (List.mem_of_getLast? t.getLast?_text))
  · -- the tag ends in the second text
    have hlast : vs.getLast? = some '>' := by
      rw [← t.getLast?_text, htext, List.getLast?_append_of_ne_nil us hvs]
    exact hys (hbegins.subset (List.mem_of_getLast? hlast))

theorem append_cons (hc : Tagless c) (hxs : TagFree xs) (hys : TagFree ys) :
    TagFree (xs ++ c :: ys) := by
  intro t ht
  have hne : t.text ≠ [] := by
    cases t <;> decide
  -- a tag that begins with the character or reaches over it has it
  have hreach : ∀ vs, vs ≠ [] → vs ⊆ t.text → ¬ vs <+: c :: ys := by
    rintro (_ | ⟨v, vs⟩) hvs hsubset hbegins
    · exact hvs rfl
    · obtain ⟨rfl, -⟩ := List.cons_prefix_cons.1 hbegins
      exact hc t (hsubset List.mem_cons_self)
  rcases List.infix_append_iff_ne_nil.1 ht with hin | hin | ⟨us, vs, -, hvs, htext, -, hbegins⟩
  · exact hxs t hin
  · rcases List.infix_cons_iff.1 hin with hbegins | hin
    · exact hreach t.text hne (List.Subset.refl _) hbegins
    · exact hys t hin
  · exact hreach vs hvs (htext ▸ List.subset_append_right us vs) hbegins

theorem of_not_mem (h : '<' ∉ cs) : TagFree cs := by
  rw [← List.append_nil cs]
  exact front_append h (by decide)

theorem nil : TagFree [] :=
  of_not_mem List.not_mem_nil

theorem cons (hc : Tagless c) (h : TagFree cs) : TagFree (c :: cs) :=
  append_cons hc nil h

/-- Pieces without tags have none when they are joined by a character that belongs to no tag. -/
theorem joinPieces (hc : Tagless c) (h : ∀ piece ∈ ps, TagFree piece) :
    TagFree (joinPieces c ps) := by
  induction ps with
  | nil => exact nil
  | cons p ps ih =>
    rw [List.forall_mem_cons] at h
    cases ps with
    | nil => exact h.1
    | cons q qs =>
      rw [joinPieces_cons_cons]
      exact append_cons hc h.1 (ih h.2)

theorem of_mem_pieces {piece : List Char} (h : TagFree cs) (hpiece : piece ∈ pieces c cs) :
    TagFree piece := by
  refine h.of_infix ?_
  rw [← joinPieces_pieces c cs]
  exact infix_joinPieces hpiece c

end TagFree

/-- Characters that belong to no tag close a text off at its two ends. -/
theorem insulated_of_ends (hc : Tagless c) (hd : Tagless d) (h : TagFree cs) :
    Insulated (c :: cs ++ [d]) := by
  intro xs ys hxs hys
  have heq : xs ++ (c :: cs ++ [d]) ++ ys = xs ++ c :: (cs ++ d :: ys) := by simp
  rw [heq]
  exact TagFree.append_cons hc hxs (TagFree.append_cons hd h hys)

/-! ## The marks of texts put together -/

theorem isPrefixOf_append_cons (hc : c ∉ ys) (xs cs : List Char) :
    ys.isPrefixOf (xs ++ c :: cs) = ys.isPrefixOf xs := by
  induction xs generalizing ys with
  | nil =>
    cases ys with
    | nil => rfl
    | cons y ys =>
      rw [List.mem_cons, not_or] at hc
      simp [List.isPrefixOf, Ne.symm hc.1]
  | cons x xs ih =>
    cases ys with
    | nil => rfl
    | cons y ys =>
      rw [List.mem_cons, not_or] at hc
      rw [List.cons_append, List.isPrefixOf_cons_cons, List.isPrefixOf_cons_cons, ih hc.2]

theorem tagAt?_append_cons (hc : Tagless c) (xs cs : List Char) :
    tagAt? (xs ++ c :: cs) = tagAt? xs := by
  rw [tagAt?, isPrefixOf_append_cons (hc .opening), isPrefixOf_append_cons (hc .closing), tagAt?]

theorem prefix_of_tagAt? (h : tagAt? cs = some t) : t.text <+: cs := by
  unfold tagAt? at h
  split at h
  · next hopening =>
    obtain rfl := Option.some.inj h
    exact List.isPrefixOf_iff_prefix.1 hopening
  · split at h
    · next hclosing =>
      obtain rfl := Option.some.inj h
      exact List.isPrefixOf_iff_prefix.1 hclosing
    · cases h

theorem foldMarks_cons_of_none (h : tagAt? (c :: cs) = none) :
    foldMarks (c :: cs) = .char c :: foldMarks cs := by
  rw [foldMarks, foldMarksFrom, h, foldMarks]

theorem foldMarks_cons_of_some (h : tagAt? (c :: cs) = some t) :
    foldMarks (c :: cs) = .tag t :: foldMarksFrom (t.text.length - 1) cs := by
  rw [foldMarks, foldMarksFrom, h]

theorem foldMarksFrom_append_cons (hc : Tagless c) (h : n ≤ xs.length) (cs : List Char) :
    foldMarksFrom n (xs ++ c :: cs) = foldMarksFrom n xs ++ .char c :: foldMarks cs := by
  induction xs generalizing n with
  | nil =>
    obtain rfl : n = 0 := Nat.le_zero.1 h
    exact foldMarks_cons_of_none (tagAt?_append_cons hc [] cs)
  | cons x xs ih =>
    cases n with
    | succ n =>
      rw [List.length_cons, Nat.add_le_add_iff_right] at h
      exact ih h
    | zero =>
      have htag : tagAt? (x :: (xs ++ c :: cs)) = tagAt? (x :: xs) :=
        tagAt?_append_cons hc (x :: xs) cs
      show foldMarks (x :: (xs ++ c :: cs)) = foldMarks (x :: xs) ++ .char c :: foldMarks cs
      cases hx : tagAt? (x :: xs) with
      | none =>
        rw [foldMarks_cons_of_none (htag.trans hx), foldMarks_cons_of_none hx]
        exact congrArg _ (ih (Nat.zero_le _))
      | some t =>
        -- the tag ends in front of the character
        have hlength := (prefix_of_tagAt? hx).length_le
        rw [List.length_cons] at hlength
        rw [foldMarks_cons_of_some (htag.trans hx), foldMarks_cons_of_some hx]
        exact congrArg _ (ih (by omega))

/-- **A character that belongs to no tag parts the marks of a text.** -/
theorem foldMarks_append_cons (hc : Tagless c) (xs cs : List Char) :
    foldMarks (xs ++ c :: cs) = foldMarks xs ++ .char c :: foldMarks cs :=
  foldMarksFrom_append_cons hc (Nat.zero_le _) cs

theorem foldMarks_of_tagFree (h : TagFree cs) : foldMarks cs = plainMarks cs := by
  induction cs with
  | nil => rfl
  | cons c cs ih =>
    have hnone : tagAt? (c :: cs) = none := by
      rw [Option.eq_none_iff_forall_ne_some]
      exact fun t ht => h t (prefix_of_tagAt? ht).isInfix
    rw [foldMarks_cons_of_none hnone, ih (h.of_infix (List.suffix_cons c cs).isInfix)]
    rfl

theorem foldMarks_tag (t : FoldTag) : foldMarks t.text = [.tag t] := by
  cases t <;> rfl

theorem flatMap_text_foldMarksFrom (n : Nat) (cs : List Char) :
    (foldMarksFrom n cs).flatMap FoldMark.text = cs.drop n := by
  induction cs generalizing n with
  | nil => simp [foldMarksFrom]
  | cons c cs ih =>
    cases n with
    | succ n => exact ih n
    | zero =>
      show (foldMarks (c :: cs)).flatMap FoldMark.text = c :: cs
      cases htag : tagAt? (c :: cs) with
      | none =>
        rw [foldMarks_cons_of_none htag]
        exact congrArg _ (ih 0)
      | some t =>
        have htext := List.prefix_iff_eq_append.1 (prefix_of_tagAt? htag)
        have hlength : t.text.length = t.text.length - 1 + 1 := by
          cases t <;> rfl
        rw [hlength, List.drop_succ_cons] at htext
        rw [foldMarks_cons_of_some htag, List.flatMap_cons, ih]
        exact htext

/-- The marks of a text are all of it. -/
theorem flatMap_text_foldMarks (cs : List Char) :
    (foldMarks cs).flatMap FoldMark.text = cs :=
  flatMap_text_foldMarksFrom 0 cs

/-! ## Blanks at the end -/

theorem nest_append_char (done : List Fold) (outer : List (List Fold)) (ms : List FoldMark)
    (c : Char) : nest done outer (ms ++ [.char c]) = (nest done outer ms).map (· ++ [.char c]) := by
  induction done, outer, ms using nest.induct with
  | case1 done => rfl
  | case2 done before outer => rfl
  | case3 done outer d ms ih => rw [List.cons_append, nest, ih, nest]
  | case4 done outer ms ih => rw [List.cons_append, nest, ih, nest]
  | case5 done before outer ms ih => rw [List.cons_append, nest, ih, nest]
  | case6 done ms => rfl

/-- What is behind the folds of a text changes nothing in them. -/
theorem foldedTexts?_append_singleton (hc : Tagless c) (depth : Nat) (cs : List Char) :
    foldedTexts? depth (String.ofList (cs ++ [c])) = foldedTexts? depth (String.ofList cs) := by
  have henclosed : (fun fs => Fold.enclosedAll depth (fs ++ [.char c])) =
      Fold.enclosedAll depth := by
    funext fs
    have hchar : Fold.enclosedAll depth [.char c] = [] := Fold.enclosedAll_chars depth [c]
    rw [Fold.enclosedAll_append, hchar, List.append_nil]
  have hmarks : foldMarks (cs ++ [c]) = foldMarks cs ++ [.char c] := foldMarks_append_cons hc cs []
  rw [foldedTexts?, foldedTexts?, String.toList_ofList, String.toList_ofList, readFolds, readFolds,
    hmarks, nest_append_char, Option.map_map]
  exact congrArg (Option.map · _) henclosed

theorem foldedTexts?_trimEnd (depth : Nat) (s : String) :
    foldedTexts? depth (trimEnd s) = foldedTexts? depth s := by
  have hlist : ∀ cs, foldedTexts? depth (String.ofList (dropBlankEnd cs)) =
      foldedTexts? depth (String.ofList cs) := by
    intro cs
    induction cs using List.reverseRecOn with
    | nil => rfl
    | append_singleton cs c ih =>
      cases hc : isBlank c with
      | false => rw [dropBlankEnd_append_of_not hc]
      | true =>
        rw [dropBlankEnd_append_singleton hc, ih,
          foldedTexts?_append_singleton (tagless_of_isBlank hc)]
  rw [trimEnd, hlist, String.ofList_toList]

end ApiPages.Text
