import ApiPages.Page.Link
import ApiPages.Proofs.Page.Paths
import ApiPages.Proofs.Text.Pieces
import ApiPages.Proofs.Text.Unescape

/-!
# Where links lead

A link is read as a relative reference from the document that holds it: the part after the first
`#` is the anchor, every step `../` in front leaves a folder of the document, and what remains is
the escaped way on from there; without a way the link stays in the document. Read like this, a link
that begins with the way up to the root folder and ends in `.md` leads to its page
(`resolve?_link`).
-/

namespace ApiPages

open Text (pieces percentEncode percentDecode? isLinkSafe)

/-! ## Reading a link -/

/-- The folders that a document is in, the innermost first. -/
def foldersOf (source : String) : List (List Char) :=
  (pieces '/' source.toList).reverse.tail

/-- The folders that are left after the steps up at the beginning of a way, and the way on from
there. There has to be a folder for every step. -/
def climb? : List (List Char) → List Char → Option (List (List Char) × List Char)
  | folders, '.' :: '.' :: '/' :: way =>
    match folders with
    | [] => none
    | _ :: outer => climb? outer way
  | folders, way => some (folders, way)

/-- The part of a link in front of its first `#`. -/
def wayOf (link : String) : List Char :=
  link.toList.takeWhile (· ≠ '#')

/-- The part of a link after its first `#`. -/
def anchorOf? (link : String) : Option String :=
  (link.toList.dropWhile (· ≠ '#')).tail? |>.map String.ofList

/-- The path of the document and the anchor in it that a link in the document at `source` leads
to. -/
def resolve? (source link : String) : Option (String × Option String) :=
  if wayOf link = [] then some (source, anchorOf? link)
  else
    (climb? (foldersOf source) (wayOf link)).bind fun place =>
      (percentDecode? place.2).map fun file =>
        (String.ofList (place.1.reverse.flatMap (· ++ ['/'])) ++ file, anchorOf? link)

/-- The characters that end the destination of a link in Markdown or its path in a reference. -/
def destinationMarks : List Char :=
  ['(', ')', '<', '>', '"', '\x60', '?', '#']

/-- Whether a text is made of visible ASCII characters that end no destination. -/
def IsPlainDestination (cs : List Char) : Prop :=
  ∀ c ∈ cs, 0x20 < c.toNat ∧ c.toNat < 0x7F ∧ c ∉ destinationMarks

/-! ## The parts of a link -/

theorem ne_of_not_mem {mark : Char} {cs : List Char} (h : mark ∉ cs) :
    ∀ c ∈ cs, decide (c ≠ mark) = true := by
  intro c hc
  rw [decide_eq_true_eq]
  rintro rfl
  exact h hc

theorem wayOf_append {way : List Char} (h : '#' ∉ way) (target : Page) :
    wayOf (String.ofList way ++ PageIndex.fragment target) = way := by
  rw [wayOf, String.toList_append, String.toList_ofList,
    List.takeWhile_append_of_pos (ne_of_not_mem h)]
  unfold PageIndex.fragment
  cases target.anchor <;> simp

theorem anchorOf?_append {way : List Char} (h : '#' ∉ way) (target : Page) :
    anchorOf? (String.ofList way ++ PageIndex.fragment target) = target.anchor := by
  rw [anchorOf?, String.toList_append, String.toList_ofList,
    List.dropWhile_append_of_pos (ne_of_not_mem h)]
  unfold PageIndex.fragment
  cases target.anchor <;> simp

/-! ## Climbing -/

theorem climb?_of_head {way : List Char} (h : way.head? ≠ some '.') (folders : List (List Char)) :
    climb? folders way = some (folders, way) := by
  rw [climb?]
  rintro cs rfl
  exact h rfl

/-- The steps of an ascent leave all folders of its document. -/
theorem climb?_ascent (source : String) {way : List Char} (h : way.head? ≠ some '.') :
    climb? (foldersOf source) ((PageIndex.ascent source).toList ++ way) = some ([], way) := by
  have hsteps : ∀ folders : List (List Char),
      climb? folders ((List.replicate folders.length "../".toList).flatten ++ way) =
        some ([], way) := by
    intro folders
    induction folders with
    | nil => exact climb?_of_head h []
    | cons folder folders ih => exact ih
  have hlength : (foldersOf source).length = source.toList.count '/' := by
    rw [foldersOf, List.length_tail, List.length_reverse, Text.length_pieces, Nat.add_sub_cancel]
  have hascent : (PageIndex.ascent source).toList =
      (List.replicate (foldersOf source).length "../".toList).flatten := by
    rw [hlength, PageIndex.ascent, String.toList_join, List.flatMap_replicate]
  rw [hascent]
  exact hsteps (foldersOf source)

/-! ## The way to a page -/

theorem isLinkSafe_of_mem_folder (c : Category) :
    ∀ a ∈ c.folder.toList, isLinkSafe a = true := by
  rw [← List.all_eq_true]
  cases c <;> decide

/-- A folder begins with a letter. -/
theorem Category.exists_folder_eq (c : Category) :
    ∃ a as, c.folder.toList = a :: as ∧ a ≠ '.' ∧ a ≠ '/' := by
  cases c <;> exact ⟨_, _, rfl, by decide, by decide⟩

/-- The path of a page begins with the folder of its category and ends in `.md`. -/
theorem exists_pagePath_eq (c : Category) (n : String) (collapse : Bool) :
    ∃ more, (pagePath c n collapse).toList = c.folder.toList ++ more ++ ".md".toList := by
  cases collapse with
  | true => exact ⟨[], by simp [pagePath, Category.path]⟩
  | false => exact ⟨'/' :: Text.fileName n.toList, by rw [toList_pagePath]; simp⟩

theorem dropEnding_append (cs : List Char) : PageIndex.dropEnding (cs ++ ".md".toList) = cs := by
  have hsuffix : ['.', 'm', 'd'].isSuffixOf (cs ++ ".md".toList) = true := by
    rw [List.isSuffixOf_iff_suffix]
    exact List.suffix_append cs _
  rw [PageIndex.dropEnding, if_pos hsuffix, List.length_append]
  exact List.take_left

theorem dropRoot_of_head {cs : List Char} (h : cs.head? ≠ some '/') :
    PageIndex.dropRoot cs = cs := by
  rw [PageIndex.dropRoot]
  rintro as rfl
  exact h rfl

/-- The way that a link is written with: up to the root folder and, with escapes, on to the page. -/
def wayTo (source : String) (stem : List Char) : List Char :=
  (PageIndex.ascent source).toList ++ (percentEncode stem ++ ".md".toList)

theorem isLinkSafe_of_mem_wayTo {source : String} {stem : List Char} {c : Char}
    (h : c ∈ wayTo source stem) : isLinkSafe c = true ∨ c = '%' := by
  rw [wayTo, List.mem_append, List.mem_append] at h
  rcases h with h | h | h
  · rw [PageIndex.ascent, String.toList_join, List.mem_flatMap] at h
    obtain ⟨step, hstep, hc⟩ := h
    rw [List.eq_of_mem_replicate hstep] at hc
    have hsafe : "../".toList.all isLinkSafe = true := by decide
    exact .inl (List.all_eq_true.1 hsafe c hc)
  · exact Text.isLinkSafe_of_mem_percentEncode h
  · have hsafe : ".md".toList.all isLinkSafe = true := by decide
    exact .inl (List.all_eq_true.1 hsafe c h)

theorem isPlainDestination_wayTo (source : String) (stem : List Char) :
    IsPlainDestination (wayTo source stem) := by
  intro c hc
  rcases isLinkSafe_of_mem_wayTo hc with hsafe | rfl
  · simp only [isLinkSafe, Bool.and_eq_true, decide_eq_true_eq, Bool.not_eq_true',
      Bool.or_eq_false_iff, beq_eq_false_iff_ne] at hsafe
    simp [destinationMarks, hsafe]
  · decide

/-! ## Links -/

namespace PageIndex

variable {x : PageIndex} {target : Page} {stem : List Char} {source : String}

theorem link_of_self (hpath : target.path = source) (hanchor : target.anchor.isSome = true) :
    x.link target source = fragment target := by
  rw [link, if_pos ⟨hpath, hanchor⟩]

theorem link_of_other (hstart : x.linkStart = "") (hend : x.linkEnd = ".md")
    (hpath : target.path.toList = stem ++ ".md".toList) (hhead : stem.head? ≠ some '/')
    (hother : ¬ (target.path = source ∧ target.anchor.isSome = true)) :
    x.link target source = String.ofList (wayTo source stem) ++ fragment target := by
  have hroot : dropRoot target.path.toList = stem ++ ".md".toList := by
    rw [hpath]
    refine dropRoot_of_head ?_
    cases stem with
    | nil => decide
    | cons c cs => exact hhead
  rw [link, if_neg hother, hstart, hend, hroot, dropEnding_append, wayTo, String.ofList_append,
    String.ofList_append, String.ofList_toList, String.ofList_toList]
  simp [String.append_assoc]

/-- An anchor alone stays in the document. -/
theorem resolve?_fragment (source : String) (target : Page) :
    wayOf (fragment target) = [] ∧
      resolve? source (fragment target) = some (source, target.anchor) := by
  have hempty : fragment target = String.ofList [] ++ fragment target := by simp
  have hway : wayOf (fragment target) = [] := by
    rw [hempty]
    exact wayOf_append (by simp) target
  refine ⟨hway, ?_⟩
  rw [resolve?, if_pos hway, hempty, anchorOf?_append (by simp)]

/-- The way to a page in the folder of a category leads to it. -/
theorem resolve?_wayTo (source : String) (c : Category) (more : List Char) (target : Page) :
    wayOf (String.ofList (wayTo source (c.folder.toList ++ more)) ++ fragment target) =
        wayTo source (c.folder.toList ++ more) ∧
      resolve? source (String.ofList (wayTo source (c.folder.toList ++ more)) ++ fragment target) =
        some (String.ofList (c.folder.toList ++ more ++ ".md".toList), target.anchor) := by
  have hmark : '#' ∉ wayTo source (c.folder.toList ++ more) := by
    intro hmem
    exact absurd (isPlainDestination_wayTo _ _ _ hmem).2.2 (by decide)
  have hway := wayOf_append hmark target
  refine ⟨hway, ?_⟩
  -- the way on begins with the folder of the category, so it has no steps up
  obtain ⟨a, as, hfolder, hdot, -⟩ := c.exists_folder_eq
  have hencoded : percentEncode (c.folder.toList ++ more) =
      c.folder.toList ++ percentEncode more := by
    rw [Text.percentEncode_append, Text.percentEncode_of_safe (isLinkSafe_of_mem_folder c)]
  have hhead : (percentEncode (c.folder.toList ++ more) ++ ".md".toList).head? ≠ some '.' := by
    rw [hencoded, hfolder]
    simp [hdot]
  have hne : wayTo source (c.folder.toList ++ more) ≠ [] := by simp [wayTo]
  rw [resolve?, hway, if_neg hne, anchorOf?_append hmark, wayTo, climb?_ascent source hhead,
    Option.bind_some, Text.percentDecode?_percentEncode _ (by decide)]
  simp

/-- **A link leads to its page.** It resolves to the page's document and anchor from every
document, and its way has nothing in it that would end a destination. -/
theorem resolve?_link (hstart : x.linkStart = "") (hend : x.linkEnd = ".md") (c : Category)
    {n : String} {collapse : Bool} (hpath : target.path = pagePath c n collapse)
    (source : String) :
    resolve? source (x.link target source) = some (target.path, target.anchor) ∧
      IsPlainDestination (wayOf (x.link target source)) := by
  by_cases hself : target.path = source ∧ target.anchor.isSome = true
  · obtain ⟨hway, hresolve⟩ := resolve?_fragment source target
    rw [link_of_self hself.1 hself.2, hresolve, hway, hself.1]
    simp [IsPlainDestination]
  · obtain ⟨more, hmore⟩ := exists_pagePath_eq c n collapse
    obtain ⟨a, as, hfolder, -, hslash⟩ := c.exists_folder_eq
    obtain ⟨hway, hresolve⟩ := resolve?_wayTo source c more target
    rw [← hpath] at hmore
    rw [link_of_other hstart hend hmore (by simp [hfolder, hslash]) hself, hresolve, hway, ← hmore,
      String.ofList_toList]
    exact ⟨rfl, isPlainDestination_wayTo _ _⟩

end PageIndex

end ApiPages
