import ApiPages.Text.Percent

/-!
# File names

A file name has no separators in it and can be read back, so names with different letters have
different file names.
-/

namespace ApiPages.Text

/-! ## Writing a file name -/

theorem fileName_cons (c : Char) (cs : List Char) :
    fileName (c :: cs) =
      (if c = '%' ∨ c = '/' ∨ c = '\\' then percentChar c else [c]) ++ fileName cs := by
  rw [fileName, fileName, List.flatMap_cons]

theorem percentChar_percent : percentChar '%' = ['%', '2', '5'] := by decide

theorem percentChar_slash : percentChar '/' = ['%', '2', 'F'] := by decide

theorem percentChar_backslash : percentChar '\\' = ['%', '5', 'C'] := by decide

/-- A file name has no separators. -/
theorem separator_not_mem_fileName {c : Char} (hc : c = '/' ∨ c = '\\') (name : List Char) :
    c ∉ fileName name := by
  induction name with
  | nil => simp [fileName]
  | cons d ds ih =>
    rw [fileName_cons, List.mem_append, not_or]
    refine ⟨?_, ih⟩
    split
    · next hd =>
      rcases hd with rfl | rfl | rfl <;> rcases hc with rfl | rfl <;> decide
    · next hd =>
      rw [List.mem_singleton]
      rintro rfl
      exact hd (.inr hc)

/-- What stands for the characters that are escaped. -/
def fileNameEscapes : List (List Char) :=
  ["%25".toList, "%2F".toList, "%5C".toList]

/-- A character is written as itself, or as an escape with no `%` but the first. -/
theorem exists_fileName_cons_eq (c : Char) (cs : List Char) :
    ∃ first digits, fileName (c :: cs) = first :: (digits ++ fileName cs) ∧ '%' ∉ digits ∧
      (first = '%' → first :: digits ∈ fileNameEscapes) := by
  rw [fileName_cons]
  split
  · next hc =>
    rcases hc with rfl | rfl | rfl
    · exact ⟨'%', ['2', '5'], by rw [percentChar_percent]; rfl, by decide, by decide⟩
    · exact ⟨'%', ['2', 'F'], by rw [percentChar_slash]; rfl, by decide, by decide⟩
    · exact ⟨'%', ['5', 'C'], by rw [percentChar_backslash]; rfl, by decide, by decide⟩
  · next hc => exact ⟨c, [], rfl, by simp, fun h => absurd (.inl h) hc⟩

/-- **Every `%` in a file name begins an escape.** -/
theorem escape_of_percent {name before after : List Char}
    (h : fileName name = before ++ '%' :: after) :
    ∃ escape ∈ fileNameEscapes, escape <+: '%' :: after := by
  induction name generalizing before with
  | nil => simp [fileName] at h
  | cons c cs ih =>
    obtain ⟨first, digits, hwritten, hdigits, hescape⟩ := exists_fileName_cons_eq c cs
    rw [hwritten] at h
    cases before with
    | nil =>
      obtain ⟨rfl, rfl⟩ := List.cons.inj h
      exact ⟨_, hescape rfl, List.prefix_append ('%' :: digits) _⟩
    | cons b before =>
      -- the `%` stands behind the digits, in what is written for the rest of the name
      rcases List.append_eq_append_iff.1 (List.cons.inj h).2 with
        ⟨more, -, hrest⟩ | ⟨more, hmore, hrest⟩
      · exact ih hrest
      · cases more with
        | nil => exact @ih [] hrest.symm
        | cons d more =>
          obtain ⟨rfl, -⟩ := List.cons.inj hrest
          rw [hmore] at hdigits
          simp at hdigits

/-! ## Reading a file name -/

/-- The name that a file name stands for: what was escaped is itself again. -/
def ofFileName : List Char → List Char
  | '%' :: '2' :: '5' :: rest => '%' :: ofFileName rest
  | '%' :: '2' :: 'F' :: rest => '/' :: ofFileName rest
  | '%' :: '5' :: 'C' :: rest => '\\' :: ofFileName rest
  | c :: rest => c :: ofFileName rest
  | [] => []

theorem ofFileName_cons {c : Char} (h : c ≠ '%') (cs : List Char) :
    ofFileName (c :: cs) = c :: ofFileName cs := by
  rw [ofFileName]
  all_goals
    intro rest hc
    exact absurd hc h

/-- **A file name gives its name back.** -/
theorem ofFileName_fileName (name : List Char) : ofFileName (fileName name) = name := by
  induction name with
  | nil => rfl
  | cons c cs ih =>
    rw [fileName_cons]
    split
    · next hc =>
      -- an escape is three characters, which are read as one
      rcases hc with rfl | rfl | rfl
      · rw [percentChar_percent]
        simp only [List.cons_append, List.nil_append, ofFileName, ih]
      · rw [percentChar_slash]
        simp only [List.cons_append, List.nil_append, ofFileName, ih]
      · rw [percentChar_backslash]
        simp only [List.cons_append, List.nil_append, ofFileName, ih]
    · next hc =>
      have hpercent : c ≠ '%' := fun h => hc (.inl h)
      rw [List.singleton_append, ofFileName_cons hpercent, ih]

theorem fileName_inj {xs ys : List Char} (h : fileName xs = fileName ys) : xs = ys := by
  rw [← ofFileName_fileName xs, h, ofFileName_fileName]

end ApiPages.Text
