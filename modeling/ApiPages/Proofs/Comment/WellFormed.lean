import ApiPages.Proofs.Comment.CalloutLine
import ApiPages.Proofs.Comment.Code

/-!
# Well-formed comments

What a comment is made of, whatever the text was: phrases, which are on one line and have no blanks
around them, names without blanks and colons, and a discussion that begins with text and has no
blanks at the ends of its lines (`wellFormed_parse`). Every line that is read leaves a draft that is
made of these.
-/

namespace ApiPages

open Text

/-! ## Phrases -/

namespace IsPhrase

variable {s t : String} {cs : List Char}

theorem empty : IsPhrase "" :=
  ⟨by decide, by decide⟩

/-- A line without the blanks around it is a phrase. -/
theorem ofList_dropBlanks (h : '\n' ∉ cs) : IsPhrase (String.ofList (dropBlanks cs)) where
  oneLine := by
    rw [String.toList_ofList]
    exact fun hmem => h (dropBlanks_subset cs hmem)
  trimmed := by rw [trim, String.toList_ofList, dropBlanks_dropBlanks]

/-- Two phrases that say something are one with a space between them. -/
theorem append_space (hs : IsPhrase s) (ht : IsPhrase t) (hne : s ≠ "") (hne' : t ≠ "") :
    IsPhrase (s ++ " " ++ t) := by
  have hlist : (s ++ " " ++ t).toList = s.toList ++ [' '] ++ t.toList := by simp
  have hstart : dropBlankStart s.toList = s.toList := dropBlankStart_of_trimmed hs.dropBlanks_toList
  have hend : dropBlankEnd t.toList = t.toList := dropBlankEnd_of_trimmed ht.dropBlanks_toList
  have hs' : dropBlankStart s.toList ≠ [] := by simpa [hstart] using hne
  have ht' : dropBlankEnd t.toList ≠ [] := by simpa [hend] using hne'
  refine ⟨by simp [hs.oneLine, ht.oneLine], ?_⟩
  rw [trim, hlist, dropBlanks, List.append_assoc, dropBlankStart_append_of_ne_nil hs', hstart,
    ← List.append_assoc, dropBlankEnd_append_of_ne_nil ht', hend, ← hlist, String.ofList_toList]

theorem continued (hs : IsPhrase s) (ht : IsPhrase t) : IsPhrase (Comment.continued s t) := by
  unfold Comment.continued
  split
  · exact hs
  · next hne' =>
    split
    · exact ht
    · next hne => exact hs.append_space ht (by simpa using hne) (by simpa using hne')

/-- Phrases that say something are one with spaces between them. -/
theorem intercalate {ss : List String} (h : ∀ s ∈ ss, IsPhrase s ∧ s ≠ "") :
    IsPhrase (" ".intercalate ss) := by
  induction ss with
  | nil => exact empty
  | cons s ss ih =>
    obtain ⟨⟨hs, hne⟩, hrest⟩ := List.forall_mem_cons.1 h
    cases ss with
    | nil => rwa [String.intercalate_singleton]
    | cons t ss =>
      have ht : t ≠ "" := (hrest t List.mem_cons_self).2
      have hsome : " ".intercalate (t :: ss) ≠ "" := by
        intro hempty
        have hlist := congrArg String.toList hempty
        cases ss <;> simp_all
      rw [String.intercalate_cons_cons]
      exact hs.append_space (ih hrest) hne hsome

end IsPhrase

/-! ## What is read from one line -/

namespace Callout

variable {word cs rest text : List Char} {line : List Char} {p : Parameter} {callout : Callout}

theorem afterWord?_subset (h : afterWord? word cs = some rest) : rest ⊆ cs := by
  induction word generalizing cs with
  | nil =>
    obtain rfl : cs = rest := by simpa [afterWord?] using h
    exact List.Subset.refl cs
  | cons letter word ih =>
    cases cs with
    | nil => simp [afterWord?] at h
    | cons c cs =>
      rw [afterWord?] at h
      split at h
      · exact List.Subset.trans (ih h) (List.subset_cons_self c cs)
      · simp at h

/-- What stands behind a colon is a phrase. -/
theorem isPhrase_of_afterColon? (hcs : '\n' ∉ cs) (h : afterColon? cs = some text) :
    IsPhrase (String.ofList text) := by
  unfold afterColon? at h
  split at h
  · next rest hrest =>
    obtain rfl := Option.some.inj h
    refine IsPhrase.ofList_dropBlanks fun hmem => hcs ?_
    have hstart : dropBlankStart cs ⊆ cs := (List.dropWhile_sublist isBlank).subset
    rw [hrest] at hstart
    exact hstart (List.mem_cons_of_mem ':' hmem)
  · simp at h

theorem fits_of_named? (hcs : '\n' ∉ cs) (h : named? cs = some p) : (parameter p).Fits := by
  unfold named? at h
  dsimp only at h
  split at h
  · simp at h
  · next hname =>
    obtain ⟨text, htext, rfl⟩ := Option.map_eq_some_iff.1 h
    refine ⟨by simpa using hname, ?_, ?_⟩
    · rw [String.toList_ofList]
      exact fun c hc => List.mem_takeWhile_imp hc
    · exact isPhrase_of_afterColon?
        (fun hmem => hcs ((List.dropWhile_sublist isNameChar).subset hmem)) htext

theorem item?_subset (h : item? line = some cs) : cs ⊆ line := by
  cases line with
  | nil => simp [item?] at h
  | cons c rest =>
    rw [item?] at h
    split at h
    · obtain rfl := Option.some.inj h
      exact List.Subset.trans (List.dropWhile_sublist isBlank).subset (List.subset_cons_self c rest)
    · simp at h

theorem fits_of_parameter? (hcs : '\n' ∉ cs) (h : parameter? cs = some callout) :
    callout.Fits := by
  obtain ⟨rest, hrest, hcallout⟩ := Option.bind_eq_some_iff.1 h
  split at hcallout
  · obtain ⟨p, hp, rfl⟩ := Option.map_eq_some_iff.1 hcallout
    have hsubset : dropBlankStart rest ⊆ cs :=
      List.Subset.trans (List.dropWhile_sublist isBlank).subset (afterWord?_subset hrest)
    exact fits_of_named? (fun hmem => hcs (hsubset hmem)) hp
  · simp at hcallout

theorem fits_of_returns? (hcs : '\n' ∉ cs) (h : returns? cs = some callout) : callout.Fits := by
  obtain ⟨rest, hrest, hcallout⟩ := Option.bind_eq_some_iff.1 h
  obtain ⟨text, htext, rfl⟩ := Option.map_eq_some_iff.1 hcallout
  -- the word may be in the plural
  have hplural : (afterWord? ['s'] rest).getD rest ⊆ rest := by
    cases hs : afterWord? ['s'] rest with
    | none => exact List.Subset.refl rest
    | some plural => exact afterWord?_subset hs
  exact isPhrase_of_afterColon? (fun hmem => hcs (afterWord?_subset hrest (hplural hmem))) htext

theorem fits_of_throws? (hcs : '\n' ∉ cs) (h : throws? cs = some callout) : callout.Fits := by
  obtain ⟨text, hbind, rfl⟩ := Option.map_eq_some_iff.1 h
  obtain ⟨rest, hrest, htext⟩ := Option.bind_eq_some_iff.1 hbind
  exact isPhrase_of_afterColon? (fun hmem => hcs (afterWord?_subset hrest hmem)) htext

/-- What a line says as a callout could be written in a line. -/
theorem fits_of_ofLine? (hline : '\n' ∉ line) (h : ofLine? line = some callout) :
    callout.Fits := by
  obtain ⟨item, hitem, hcallout⟩ := Option.bind_eq_some_iff.1 h
  have hcs : '\n' ∉ item := fun hmem => hline (item?_subset hitem hmem)
  simp only [Option.or_eq_some_iff] at hcallout
  rcases hcallout with hlist | ⟨-, hparameter | ⟨-, hreturns | ⟨-, hthrows⟩⟩⟩
  · obtain ⟨rest, -, hhead⟩ := Option.bind_eq_some_iff.1 hlist
    split at hhead
    · obtain rfl := Option.some.inj hhead
      trivial
    · simp at hhead
  · exact fits_of_parameter? hcs hparameter
  · exact fits_of_returns? hcs hreturns
  · exact fits_of_throws? hcs hthrows

theorem fits_of_entry (hline : '\n' ∉ line) (h : entry? line = some p) : (parameter p).Fits := by
  obtain ⟨item, hitem, hnamed⟩ := Option.bind_eq_some_iff.1 h
  exact fits_of_named? (fun hmem => hline (item?_subset hitem hmem)) hnamed

end Callout

/-! ## Drafts -/

namespace Comment

variable {d : Draft} {line : List Char} {ls : List (List Char)}

namespace Draft

/-- Whether a draft is made of what comments are made of. -/
structure Sound (d : Draft) : Prop where
  summary : ∀ s ∈ d.summary, IsPhrase s ∧ s ≠ ""
  discussion : ∀ l ∈ d.discussion, '\n' ∉ l.toList ∧ trimEnd l = l
  parameters : ∀ p ∈ d.parameters, (Callout.parameter p).Fits
  returns : IsPhrase d.returns
  throws : IsPhrase d.throws

namespace Sound

theorem start : Draft.start.Sound :=
  ⟨by simp [Draft.start], by simp [Draft.start], by simp [Draft.start], .empty, .empty⟩

theorem discuss (h : d.Sound) (hline : '\n' ∉ line) : (d.discuss line).Sound where
  summary := h.summary
  discussion := by
    intro l hl
    rcases List.mem_append.1 hl with hl | hl
    · exact h.discussion l hl
    · rw [List.mem_singleton.1 hl, trimEnd, String.toList_ofList, dropBlankEnd_dropBlankEnd]
      exact ⟨fun hmem => hline (dropBlankEnd_subset line hmem), rfl⟩
  parameters := h.parameters
  returns := h.returns
  throws := h.throws

theorem addParameter {p : Parameter} (h : d.Sound) (hp : (Callout.parameter p).Fits) :
    ({ d with parameters := d.parameters ++ [p] } : Draft).Sound :=
  { h with
    parameters := by
      intro q hq
      rcases List.mem_append.1 hq with hq | hq
      · exact h.parameters q hq
      · rw [List.mem_singleton.1 hq]
        exact hp }

theorem readCallout {callout : Callout} (h : d.Sound) (hcallout : callout.Fits) :
    (d.readCallout callout).Sound := by
  cases callout with
  | parameterList => exact { h with }
  | parameter p => exact { h.addParameter hcallout with }
  | returns text => exact { h with returns := h.returns.continued hcallout }
  | throws text => exact { h with throws := h.throws.continued hcallout }

theorem continueLast {ps : List Parameter} {more : String}
    (h : ∀ p ∈ ps, (Callout.parameter p).Fits) (hmore : IsPhrase more) :
    ∀ p ∈ continueLast more ps, (Callout.parameter p).Fits := by
  rcases List.eq_nil_or_concat' ps with rfl | ⟨ps, p, rfl⟩
  · simp [Comment.continueLast]
  · obtain ⟨hne, hname, hdescription⟩ := h p (by simp)
    rw [continueLast_append_singleton]
    intro q hq
    rcases List.mem_append.1 hq with hq | hq
    · exact h q (List.mem_append_left _ hq)
    · rw [List.mem_singleton.1 hq]
      exact ⟨hne, hname, hdescription.continued hmore⟩

theorem readText (h : d.Sound) (hline : '\n' ∉ line) : (d.readText line).Sound := by
  have hphrase : IsPhrase (String.ofList (dropBlanks line)) := .ofList_dropBlanks hline
  unfold Draft.readText
  dsimp only
  generalize String.ofList (dropBlanks line) = text at hphrase
  cases d.part with
  | discussion => exact h.discuss hline
  | summary =>
    dsimp only
    split
    · split
      · exact h
      · exact { h with }
    · next hne =>
      refine { h with summary := ?_ }
      intro s hs
      rcases List.mem_append.1 hs with hs | hs
      · exact h.summary s hs
      · rw [List.mem_singleton.1 hs]
        exact ⟨hphrase, by simpa using hne⟩
  | parameterList | parameter =>
    dsimp only
    split
    · exact { h with }
    · exact { h with parameters := continueLast h.parameters hphrase }
  | returns =>
    dsimp only
    split
    · exact { h with }
    · exact { h with returns := h.returns.continued hphrase }
  | throws =>
    dsimp only
    split
    · exact { h with }
    · exact { h with throws := h.throws.continued hphrase }

theorem readProse (h : d.Sound) (hline : '\n' ∉ line) : (d.readProse line).Sound := by
  have htext : '\n' ∉ dropBlanks line := fun hmem => hline (dropBlanks_subset line hmem)
  unfold Draft.readProse
  split
  · next callout hcallout => exact h.readCallout (Callout.fits_of_ofLine? htext hcallout)
  · split
    · next p hp =>
      unfold Draft.entry? at hp
      split at hp
      · exact h.addParameter (Callout.fits_of_entry htext hp)
      · simp at hp
    · exact h.readText hline

/-- Every line leaves a draft of what comments are made of. -/
theorem read (h : d.Sound) (hline : '\n' ∉ line) : (d.read line).Sound := by
  cases hcode : isFence line || d.inCode with
  | true =>
    rw [read_of_code hcode]
    exact { h.discuss hline with }
  | false =>
    rw [read_of_prose hcode]
    exact h.readProse hline

theorem foldl_read (h : d.Sound) (hls : ∀ line ∈ ls, '\n' ∉ line) :
    (ls.foldl Draft.read d).Sound := by
  induction ls generalizing d with
  | nil => exact h
  | cons line ls ih =>
    rw [List.forall_mem_cons] at hls
    exact ih (h.read hls.1) hls.2

end Sound

end Draft

/-! ## Comments -/

/-- Whether a text can be the discussion of a comment: its first line is not blank, and there are
no blanks at the end of the text or of a line. -/
structure IsDiscussion (t : String) : Prop where
  first : ∀ l ∈ (pieces '\n' t.toList).head?, ∃ c ∈ l, isBlank c = false
  lines : ∀ l ∈ pieces '\n' t.toList, dropBlankEnd l = l
  last : trimEnd t = t

/-- Whether a comment is made of what comments are made of. -/
structure WellFormed (c : Comment) : Prop where
  summary : IsPhrase c.summary
  discussion : ∀ t ∈ c.discussion, IsDiscussion t
  parameters : ∀ p ∈ c.parameters,
    p.name ≠ "" ∧ (∀ c ∈ p.name.toList, isBlank c = false ∧ c ≠ ':') ∧ IsPhrase p.description
  returns : ∀ t ∈ c.returns, IsPhrase t ∧ t ≠ ""
  throws : ∀ t ∈ c.throws, IsPhrase t ∧ t ≠ ""

theorem isDiscussion_of_mem {ts : List String} {t : String}
    (hlines : ∀ l ∈ ts, '\n' ∉ l.toList ∧ trimEnd l = l)
    (h : t ∈ Draft.nonempty? (Draft.discussionText ts)) : IsDiscussion t := by
  obtain ⟨rfl, hne⟩ := nonempty?_eq_some_iff.1 h
  obtain ⟨m, first, rest, n, hts, htext, hfirst⟩ := exists_of_discussionText_ne hlines hne
  have hmid : ∀ l ∈ first :: rest, '\n' ∉ l.toList ∧ trimEnd l = l := by
    intro l hl
    refine hlines l ?_
    rw [hts]
    exact List.mem_append_left _ (List.mem_append_right _ hl)
  have hpieces : pieces '\n' (Draft.discussionText ts).toList =
      (first :: rest).map String.toList := by
    rw [htext, toList_intercalate_newline, pieces_joinPieces]
    · exact List.forall_mem_map.2 fun l hl => (hmid l hl).1
    · simp
  refine ⟨?_, ?_, Draft.trimEnd_discussionText ts⟩
  · rw [hpieces]
    intro l hl
    obtain rfl : first.toList = l := by simpa using hl
    simpa [isBlankText] using hfirst
  · rw [hpieces]
    intro l hl
    obtain ⟨s, hs, rfl⟩ := List.mem_map.1 hl
    simpa only [trimEnd, String.toList_ofList] using congrArg String.toList (hmid s hs).2

theorem isPhrase_of_mem {s t : String} (hs : IsPhrase s) (h : t ∈ Draft.nonempty? s) :
    IsPhrase t ∧ t ≠ "" := by
  obtain ⟨rfl, hne⟩ := nonempty?_eq_some_iff.1 h
  exact ⟨hs, hne⟩

theorem Draft.Sound.wellFormed_finish (h : d.Sound) : d.finish.WellFormed := by
  rw [finish]
  constructor <;> dsimp only
  · exact .intercalate h.summary
  · intro t ht
    exact isDiscussion_of_mem h.discussion ht
  · intro p hp
    obtain ⟨hne, hname, hdescription⟩ := h.parameters p hp
    exact ⟨hne, fun c hc => by simpa [Callout.isNameChar] using hname c hc, hdescription⟩
  · intro t ht
    exact isPhrase_of_mem h.returns ht
  · intro t ht
    exact isPhrase_of_mem h.throws ht

/-- **Every comment is well formed**, whatever the text that it is read from. -/
theorem wellFormed_parse (text : String) : (parse text).WellFormed :=
  (Draft.Sound.start.foldl_read fun _ => newline_not_mem_of_mem_lines).wellFormed_finish

end Comment

end ApiPages
