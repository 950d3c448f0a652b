import ApiPages.Comment.Callout
import ApiPages.Proofs.Text.Trimmed

/-!
# Callouts as lines

How a callout is written, and that the reader takes the line for this callout: the words of the four
kinds are told apart whatever stands after them, also if a parameter has one of them for its name.
-/

namespace ApiPages

open Text

/-- Whether a text is on one line and has no blanks around it. -/
structure IsPhrase (s : String) : Prop where
  oneLine : '\n' ∉ s.toList
  trimmed : trim s = s

theorem IsPhrase.dropBlanks_toList {s : String} (h : IsPhrase s) :
    dropBlanks s.toList = s.toList := by
  have htrim := congrArg String.toList h.trimmed
  rwa [trim, String.toList_ofList] at htrim

namespace Callout

/-- The line that a callout is written as. -/
def line : Callout → String
  | parameterList => "- Parameters:"
  | parameter p => "- Parameter " ++ p.name ++ ": " ++ p.description
  | returns text => "- Returns: " ++ text
  | throws text => "- Throws: " ++ text

/-- Whether what a callout says can be written in its line. -/
def Fits : Callout → Prop
  | parameterList => True
  | parameter p =>
    p.name ≠ "" ∧ (∀ c ∈ p.name.toList, isNameChar c = true) ∧ IsPhrase p.description
  | returns text => IsPhrase text
  | throws text => IsPhrase text

variable {callout : Callout} {s name : String}

/-- What stands after the colon of a callout. -/
theorem ofList_afterColon (h : IsPhrase s) :
    String.ofList (dropBlanks (dropBlankEnd (' ' :: s.toList))) = s := by
  rw [dropBlanks_dropBlankEnd, dropBlanks_cons (by decide), h.dropBlanks_toList,
    String.ofList_toList]

theorem dropBlanks_beforeColon (word cs : List Char) :
    dropBlanks ('-' :: word ++ ':' :: cs) = '-' :: word ++ ':' :: dropBlankEnd cs :=
  dropBlankEnd_append_cons (by decide) ('-' :: word) cs

/-- The name of a parameter ends at the colon. -/
theorem named?_append_colon (hne : name ≠ "") (hname : ∀ c ∈ name.toList, isNameChar c = true)
    (cs : List Char) :
    named? (name.toList ++ ':' :: cs) = some ⟨name, String.ofList (dropBlanks cs)⟩ := by
  have htake : (name.toList ++ ':' :: cs).takeWhile isNameChar = name.toList := by
    rw [List.takeWhile_append_of_pos hname, List.takeWhile_cons_of_neg (by decide), List.append_nil]
  have hdrop : (name.toList ++ ':' :: cs).dropWhile isNameChar = ':' :: cs := by
    rw [List.dropWhile_append_of_pos hname, List.dropWhile_cons_of_neg (by decide)]
  have hsome : name.toList.isEmpty = false := by simpa using hne
  rw [named?, htake, hdrop, hsome, String.ofList_toList]
  rfl

/-- A word and a space before a name leave it where it is. -/
theorem dropBlankStart_name (hname : ∀ c ∈ name.toList, isNameChar c = true) (cs : List Char) :
    dropBlankStart (' ' :: (name.toList ++ ':' :: cs)) = name.toList ++ ':' :: cs := by
  rw [dropBlankStart_cons (by decide)]
  cases hcs : name.toList with
  | nil => rfl
  | cons c rest =>
    have hc := hname c (by rw [hcs]; exact List.mem_cons_self)
    have hblank : isBlank c = false := by
      cases h : isBlank c <;> simp_all [isNameChar]
    exact List.dropWhile_cons_of_neg (by simp [hblank])

/-- **A callout is read from its line.** -/
theorem ofLine?_line (h : callout.Fits) :
    ofLine? (dropBlanks callout.line.toList) = some callout := by
  cases callout with
  | parameterList => rfl
  | parameter p =>
    obtain ⟨hne, hname, hdescription⟩ := h
    have hline : (line (.parameter p)).toList =
        '-' :: (" Parameter ".toList ++ p.name.toList) ++ ':' :: ' ' :: p.description.toList := by
      simp [line]
    have hrest := ofList_afterColon hdescription
    rw [hline, dropBlanks_beforeColon]
    generalize dropBlankEnd (' ' :: p.description.toList) = rest at hrest
    have hitem : item? ('-' :: (" Parameter ".toList ++ p.name.toList) ++ ':' :: rest) =
        some ("Parameter ".toList ++ p.name.toList ++ ':' :: rest) := rfl
    -- the word is not the plural, so the line is not the head of a list
    have hlist : parameterList? ("Parameter ".toList ++ p.name.toList ++ ':' :: rest) = none := rfl
    have hword : parameter? ("Parameter ".toList ++ p.name.toList ++ ':' :: rest) =
        (named? (dropBlankStart (' ' :: (p.name.toList ++ ':' :: rest)))).map .parameter := rfl
    rw [ofLine?, hitem, Option.bind_some, hlist, Option.none_or, hword, dropBlankStart_name hname,
      named?_append_colon hne hname, hrest]
    rfl
  | returns text =>
    have hline : (line (.returns text)).toList =
        '-' :: " Returns".toList ++ ':' :: ' ' :: text.toList := by
      simp [line]
    rw [hline, dropBlanks_beforeColon]
    show some (returns (String.ofList (dropBlanks (dropBlankEnd (' ' :: text.toList))))) = _
    rw [ofList_afterColon h]
  | throws text =>
    have hline : (line (.throws text)).toList =
        '-' :: " Throws".toList ++ ':' :: ' ' :: text.toList := by
      simp [line]
    rw [hline, dropBlanks_beforeColon]
    show some (throws (String.ofList (dropBlanks (dropBlankEnd (' ' :: text.toList))))) = _
    rw [ofList_afterColon h]

theorem newline_not_mem_line (h : callout.Fits) : '\n' ∉ callout.line.toList := by
  cases callout with
  | parameterList => decide
  | parameter p =>
    have hname : '\n' ∉ p.name.toList := by
      intro hmem
      exact absurd (h.2.1 _ hmem) (by decide)
    simp [line, hname, h.2.2.oneLine]
  | returns text => simp [line, IsPhrase.oneLine h]
  | throws text => simp [line, IsPhrase.oneLine h]

end Callout

end ApiPages
