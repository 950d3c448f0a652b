import ApiPages.Proofs.Comment.Code

/-!
# Open lists of parameters

When the reader of a comment has a list of parameters open, and whether it has read a parameter yet,
said by the lines above and not by the draft: a list is opened by its head, and closed by a blank
line, by a fence and by every other callout.
-/

namespace ApiPages.Comment

open Text

variable {d : Draft} {line : List Char} {above ls : List (List Char)}

/-- A list of parameters is open below some lines. -/
def IsListOpen (above : List (List Char)) : Prop :=
  ∃ before head since, above = before ++ head :: since ∧ ¬ IsCode before head ∧
    Callout.ofLine? (dropBlanks head) = some .parameterList ∧
    ∀ line ∈ since, dropBlanks line ≠ [] ∧ isFence line = false ∧
      Callout.ofLine? (dropBlanks line) = none

/-- The line is an entry of the list of parameters that is open below the lines above it. -/
def IsEntry (above : List (List Char)) (line : List Char) : Prop :=
  ¬ IsCode above line ∧ IsListOpen above ∧ Callout.ofLine? (dropBlanks line) = none ∧
    ∃ p, Callout.entry? (dropBlanks line) = some p

/-- The line names a parameter, by a callout or as an entry of a list. -/
def NamesParameter (above : List (List Char)) (line : List Char) : Prop :=
  (¬ IsCode above line ∧ ∃ p, Callout.ofLine? (dropBlanks line) = some (.parameter p)) ∨
    IsEntry above line

theorem not_isEntry (h : Callout.entry? (dropBlanks line) = none) : ¬ IsEntry above line := by
  rintro ⟨-, -, -, p, hp⟩
  rw [h] at hp
  cases hp

/-! ## One more line -/

theorem isListOpen_append_singleton : IsListOpen (ls ++ [line]) ↔
    (¬ IsCode ls line ∧ Callout.ofLine? (dropBlanks line) = some .parameterList) ∨
      (IsListOpen ls ∧ dropBlanks line ≠ [] ∧ isFence line = false ∧
        Callout.ofLine? (dropBlanks line) = none) := by
  constructor
  · rintro ⟨before, head, since, hls, hcode, hhead, hsince⟩
    rcases List.eq_nil_or_concat since with rfl | ⟨since, last, rfl⟩
    · -- the line is the head itself
      obtain ⟨rfl, hlast⟩ := List.append_inj' hls rfl
      obtain rfl := List.singleton_inj.1 hlast
      exact .inl ⟨hcode, hhead⟩
    · rw [List.concat_eq_append] at hls hsince
      have hls : ls ++ [line] = (before ++ head :: since) ++ [last] := by simpa using hls
      obtain ⟨rfl, hlast⟩ := List.append_inj' hls rfl
      obtain rfl := List.singleton_inj.1 hlast
      exact .inr ⟨⟨before, head, since, rfl, hcode, hhead, fun l hl => hsince l (by simp [hl])⟩,
        hsince line (by simp)⟩
  · rintro (⟨hcode, hhead⟩ | ⟨⟨before, head, since, rfl, hcode, hhead, hsince⟩, hline⟩)
    · exact ⟨ls, line, [], rfl, hcode, hhead, by simp⟩
    · refine ⟨before, head, since ++ [line], by simp, hcode, hhead, fun l hl => ?_⟩
      rcases List.mem_append.1 hl with hl | hl
      · exact hsince l hl
      · rw [List.mem_singleton.1 hl]
        exact hline

/-- No block of code is open where a list is. -/
theorem IsListOpen.isOpenAfter_eq (h : IsListOpen above) : isOpenAfter false above = false := by
  obtain ⟨before, head, since, rfl, hcode, -, hsince⟩ := h
  rw [isCode_iff, Bool.not_eq_true, Bool.or_eq_false_iff] at hcode
  rw [isOpenAfter_append, hcode.2, isOpenAfter_cons, hcode.1,
    isOpenAfter_of_no_fence fun line hline => (hsince line hline).2.1]
  rfl

namespace Draft

theorem part_readText_eq_or (d : Draft) (line : List Char) :
    (d.readText line).part = .discussion ∨ (d.readText line).part = d.part := by
  unfold readText
  dsimp only
  cases hpart : d.part with
  | discussion => exact .inl hpart
  | summary =>
    dsimp only
    split
    · split
      · exact .inr hpart
      · exact .inl rfl
    · exact .inr rfl
  | _ =>
    dsimp only
    split
    · exact .inl rfl
    · exact .inr rfl

theorem part_readText_eq_iff : (d.readText line).part = .parameterList ↔
    d.part = .parameterList ∧ dropBlanks line ≠ [] := by
  unfold readText
  dsimp only
  have hempty : (String.ofList (dropBlanks line)).isEmpty = true ↔ dropBlanks line = [] := by
    simp
  cases hpart : d.part with
  | discussion => simp [discuss, hpart]
  | summary =>
    dsimp only
    split
    · split <;> simp [hpart]
    · simp
  | _ =>
    dsimp only
    split
    · next h => simp [hempty.1 h]
    · next h => simp [mt hempty.2 h]

theorem part_eq_of_entry {p : Parameter} (h : d.entry? line = some p) :
    d.part = .parameterList ∧ dropBlanks line ≠ [] := by
  unfold entry? at h
  split at h
  · next hpart =>
    refine ⟨hpart, fun hnil => ?_⟩
    rw [hnil] at h
    cases h
  · cases h

theorem part_readProse_eq_iff : (d.readProse line).part = .parameterList ↔
    Callout.ofLine? (dropBlanks line) = some .parameterList ∨
      (d.part = .parameterList ∧ dropBlanks line ≠ [] ∧
        Callout.ofLine? (dropBlanks line) = none) := by
  unfold readProse
  cases Callout.ofLine? (dropBlanks line) with
  | some callout => cases callout <;> simp [readCallout]
  | none =>
    cases hentry : d.entry? line with
    | some p => simp [part_eq_of_entry hentry]
    | none => simp [part_readText_eq_iff]

theorem code_foldl_read_iff (ls : List (List Char)) (line : List Char) :
    (isFence line || (ls.foldl read start).inCode) = true ↔ IsCode ls line := by
  rw [inCode_foldl_read]
  exact isCode_iff.symm

theorem foldl_read_append_singleton (d : Draft) (ls : List (List Char)) (line : List Char) :
    (ls ++ [line]).foldl read d = (ls.foldl read d).read line := by
  rw [List.foldl_append, List.foldl_cons, List.foldl_nil]

/-- **A list is open in a draft** when the lines read so far say so. -/
theorem part_foldl_read_eq_iff (ls : List (List Char)) :
    (ls.foldl read start).part = .parameterList ↔ IsListOpen ls := by
  induction ls using List.reverseRecOn with
  | nil => simp [IsListOpen, start]
  | append_singleton ls line ih =>
    rw [foldl_read_append_singleton, isListOpen_append_singleton]
    by_cases hcode : IsCode ls line
    · -- a list that is open is closed by a fence, and none is open in a block of code
      rw [read_of_code ((code_foldl_read_iff ls line).2 hcode)]
      have hclosed : ¬ (IsListOpen ls ∧ isFence line = false) := by
        rintro ⟨hopen, hfence⟩
        rw [isCode_iff, hopen.isOpenAfter_eq, hfence] at hcode
        cases hcode
      cases hfence : isFence line with
      | true => simp [hcode]
      | false => simp [hcode, ih, show ¬ IsListOpen ls from fun h => hclosed ⟨h, hfence⟩]
    · have hprose : (isFence line || (ls.foldl read start).inCode) = false :=
        Bool.eq_false_iff.2 (mt (code_foldl_read_iff ls line).1 hcode)
      have hfence : isFence line = false := (Bool.or_eq_false_iff.1 hprose).1
      rw [read_of_prose hprose, part_readProse_eq_iff, ih]
      simp [hcode, hfence]

/-! ## Parameters that were read -/

theorem parameters_readText_eq_nil_iff :
    (d.readText line).parameters = [] ↔ d.parameters = [] := by
  rw [← List.length_eq_zero_iff, length_parameters_readText, List.length_eq_zero_iff]

theorem parameters_readProse_eq_nil_iff : (d.readProse line).parameters = [] ↔
    d.parameters = [] ∧ (∀ p, Callout.ofLine? (dropBlanks line) ≠ some (.parameter p)) ∧
      (Callout.ofLine? (dropBlanks line) = none → d.entry? line = none) := by
  unfold readProse
  cases Callout.ofLine? (dropBlanks line) with
  | some callout => cases callout <;> simp [readCallout]
  | none =>
    cases d.entry? line with
    | some p => simp
    | none => simp [parameters_readText_eq_nil_iff]

theorem no_entry_foldl_read_iff (ls : List (List Char)) (line : List Char) :
    Draft.entry? (ls.foldl read start) line = none ↔
      ¬ (IsListOpen ls ∧ ∃ p, Callout.entry? (dropBlanks line) = some p) := by
  have hopen := part_foldl_read_eq_iff ls
  unfold entry?
  split
  · next hpart => simp [hopen.1 hpart, Option.eq_none_iff_forall_ne_some]
  · next hpart => simp [mt hopen.2 hpart]

theorem parameters_read_eq_nil_iff (ls : List (List Char)) (line : List Char) :
    ((ls.foldl read start).read line).parameters = [] ↔
      (ls.foldl read start).parameters = [] ∧ ¬ NamesParameter ls line := by
  by_cases hcode : IsCode ls line
  · rw [read_of_code ((code_foldl_read_iff ls line).2 hcode)]
    simp [discuss, NamesParameter, IsEntry, hcode]
  · have hprose : (isFence line || (ls.foldl read start).inCode) = false :=
      Bool.eq_false_iff.2 (mt (code_foldl_read_iff ls line).1 hcode)
    rw [read_of_prose hprose, parameters_readProse_eq_nil_iff, no_entry_foldl_read_iff]
    simp only [NamesParameter, IsEntry, hcode, not_false_eq_true, true_and, not_or, not_exists]
    tauto

theorem forall_split_append_singleton {α : Type} {P : List α → α → Prop} {xs : List α} {x : α} :
    (∀ above a below, xs ++ [x] = above ++ a :: below → P above a) ↔
      (∀ above a below, xs = above ++ a :: below → P above a) ∧ P xs x := by
  constructor
  · intro h
    refine ⟨fun above a below hxs => h above a (below ++ [x]) (by simp [hxs]), h xs x [] rfl⟩
  · rintro ⟨hxs, hx⟩ above a below h
    rcases List.eq_nil_or_concat below with rfl | ⟨below, last, rfl⟩
    · obtain ⟨rfl, hlast⟩ := List.append_inj' h rfl
      obtain rfl := List.singleton_inj.1 hlast
      exact hx
    · have h : xs ++ [x] = (above ++ a :: below) ++ [last] := by simpa using h
      exact hxs above a below (List.append_inj' h rfl).1

/-- **No parameter is in a draft** when no line read so far names one. -/
theorem parameters_foldl_read_eq_nil_iff (ls : List (List Char)) :
    (ls.foldl read start).parameters = [] ↔
      ∀ above line below, ls = above ++ line :: below → ¬ NamesParameter above line := by
  induction ls using List.reverseRecOn with
  | nil => simp [start]
  | append_singleton ls line ih =>
    rw [foldl_read_append_singleton, parameters_read_eq_nil_iff, ih, forall_split_append_singleton]

end Draft

end ApiPages.Comment
