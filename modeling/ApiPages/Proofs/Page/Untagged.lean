import ApiPages.Proofs.Page.LinkedSpans
import ApiPages.Proofs.Page.PageOutline
import ApiPages.Proofs.Page.Resolution
import ApiPages.Proofs.Text.TagFree

/-!
# Pages without tags of their own

A page of declarations in whose texts no tag stands has no tags but those that its blocks are
written with. Links bring none either: their paths are escaped, and the folder at the beginning of a
path keeps what the settings write in front of it apart from what they write behind it.
-/

namespace ApiPages

open Text (TagFree Tagless Insulated pieces joinPieces)

/-! ## Texts of declarations -/

/-- A comment in whose texts no tag stands. -/
structure Comment.Untagged (c : Comment) : Prop where
  summary : TagFree c.summary.toList
  discussion : ∀ text, c.discussion = some text → TagFree text.toList
  parameters : ∀ p ∈ c.parameters, TagFree p.name.toList ∧ TagFree p.description.toList
  returns : ∀ text, c.returns = some text → TagFree text.toList
  throws : ∀ text, c.throws = some text → TagFree text.toList

/-- A declaration in whose own texts no tag stands. -/
structure Declaration.Untagged (d : Declaration) : Prop where
  name : TagFree d.name.toList
  signature : TagFree d.signature.toList
  inheritance : ∀ n ∈ d.inheritance, TagFree n.toList
  comment : ∀ c, d.comment = some c → c.Untagged

theorem Comment.untagged_empty : Comment.empty.Untagged where
  summary := by decide
  discussion _ h := by cases h
  parameters _ h := by cases h
  returns _ h := by cases h
  throws _ h := by cases h

theorem Declaration.Untagged.getD {d : Declaration} (h : d.Untagged) :
    (d.comment.getD .empty).Untagged := by
  cases hc : d.comment with
  | none => exact Comment.untagged_empty
  | some c => exact h.comment c hc

/-! ## Links -/

/-- The texts that links are written with have no tags, and the paths are those of pages. -/
structure PageIndex.Untagged (x : PageIndex) : Prop where
  linkStart : TagFree x.linkStart.toList
  linkEnd : TagFree x.linkEnd.toList
  paths : ∀ p ∈ x.pages, ∃ c n collapse, p.path = pagePath c n collapse
  anchors : ∀ p ∈ x.pages, ∀ a, p.anchor = some a → '<' ∉ a.toList

/-- A folder has a character that belongs to no tag. -/
theorem Category.exists_tagless_mem (c : Category) : ∃ a ∈ c.folder.toList, Tagless a := by
  have hany : c.folder.toList.any (fun a => decide (Tagless a)) = true := by
    cases c <;> decide
  simpa using hany

namespace PageIndex

variable {x : PageIndex} {target : Page} {name : String} {link? : List Char → Option (List Char)}
  {before code : List Char} {rest ls : List (List Char)}

/-- The way that a path is written with in a link has no brackets, and a character that belongs to
no tag. -/
theorem exists_way_eq (hx : x.Untagged) (ht : target ∈ x.pages) :
    ∃ front a back, Text.percentEncode (dropEnding (dropRoot target.path.toList)) =
      front ++ a :: back ∧ Tagless a ∧ '>' ∉ front ∧ '<' ∉ back := by
  obtain ⟨c, n, collapse, hpath⟩ := hx.paths target ht
  obtain ⟨more, hmore⟩ := exists_pagePath_eq c n collapse
  obtain ⟨a, ha, htagless⟩ := c.exists_tagless_mem
  obtain ⟨front, back, hfolder⟩ := List.append_of_mem ha
  obtain ⟨b, bs, hhead, -, hslash⟩ := c.exists_folder_eq
  have hroot : dropRoot target.path.toList = target.path.toList := by
    refine dropRoot_of_head ?_
    simp [hpath, hmore, hhead, hslash]
  have hway : Text.percentEncode (dropEnding (dropRoot target.path.toList)) =
      front ++ a :: (back ++ Text.percentEncode more) := by
    rw [hroot, hpath, hmore, dropEnding_append, Text.percentEncode_append,
      Text.percentEncode_of_safe (isLinkSafe_of_mem_folder c), hfolder]
    simp
  refine ⟨front, a, back ++ Text.percentEncode more, hway, htagless, ?_, ?_⟩
  · have hclose := Text.not_mem_percentEncode (c := '>') (by decide) (by decide)
      (dropEnding (dropRoot target.path.toList))
    rw [hway] at hclose
    exact fun hmem => hclose (List.mem_append_left _ hmem)
  · have hopen := Text.not_mem_percentEncode (c := '<') (by decide) (by decide)
      (dropEnding (dropRoot target.path.toList))
    rw [hway] at hopen
    exact fun hmem => hopen (List.mem_append_right _ (List.mem_cons_of_mem _ hmem))

theorem tagFree_append_fragment (hx : x.Untagged) (ht : target ∈ x.pages) {cs : List Char}
    (h : TagFree cs) : TagFree (cs ++ (fragment target).toList) := by
  unfold fragment
  cases ha : target.anchor with
  | none => simpa using h
  | some anchor =>
    have hanchor := TagFree.of_not_mem (hx.anchors target ht anchor ha)
    simpa using TagFree.append_cons (by decide : Tagless '#') h hanchor

theorem tagFree_link (hx : x.Untagged) (ht : target ∈ x.pages) (source : String) :
    TagFree (x.link target source).toList := by
  unfold link
  split
  · exact tagFree_append_fragment hx ht (by decide : TagFree [])
  · obtain ⟨front, a, back, hway, htagless, hfront, hback⟩ := exists_way_eq hx ht
    have hascent : '<' ∉ (ascent source).toList := by
      simp [ascent, String.toList_join]
    have hstart : TagFree (if x.linkStart.isEmpty then ascent source else x.linkStart).toList := by
      split
      · exact TagFree.of_not_mem hascent
      · exact hx.linkStart
    have hend := tagFree_append_fragment hx ht (hx.linkEnd.front_append hback)
    have hall := TagFree.append_cons htagless (hstart.append_back hfront) hend
    simp only [String.toList_append, String.toList_ofList, hway]
    simpa using hall

theorem insulated_linkedSpan (hx : x.Untagged) (ht : target ∈ x.pages) (hname : TagFree name.toList)
    (source : String) : Insulated (x.linkedSpan target name source).toList := by
  have hlink := tagFree_link hx ht source
  have hinside : TagFree ('\x60' :: (name.toList ++ '\x60' :: ']' :: '(' ::
      (x.link target source).toList)) :=
    (hname.append_cons (by decide) ((hlink.cons (by decide)).cons (by decide))).cons (by decide)
  have htext : (x.linkedSpan target name source).toList = '[' :: ('\x60' :: (name.toList ++
      '\x60' :: ']' :: '(' :: (x.link target source).toList)) ++ [')'] := by
    simp [linkedSpan]
  rw [htext]
  exact Text.insulated_of_ends (by decide) (by decide) hinside

theorem insulated_span (h : TagFree code) : Insulated (span code) :=
  Text.insulated_of_ends (by decide) (by decide) h

theorem insulated_codeLink (hx : x.Untagged) (hname : TagFree name.toList) (source : String) :
    Insulated (x.codeLink name source).toList := by
  unfold codeLink
  cases ht : x.page? name with
  | some target => exact insulated_linkedSpan hx (List.mem_of_find?_eq_some ht) hname source
  | none => simpa [span] using insulated_span hname

/-! ## Prose -/

/-- What code spans without tags become. -/
def Insulates (link? : List Char → Option (List Char)) : Prop :=
  ∀ code l, link? code = some l → TagFree code → Insulated l

theorem insulates_spanLink? (hx : x.Untagged) (source current : String) :
    Insulates (x.spanLink? source current) := by
  intro code l hl hcode
  simp only [spanLink?] at hl
  split at hl
  · cases hl
  · obtain ⟨target, htarget, rfl⟩ := Option.map_eq_some_iff.1 hl
    have hmem : target ∈ x.pages := List.mem_of_find?_eq_some htarget
    exact insulated_linkedSpan hx hmem (by rwa [String.toList_ofList]) source

theorem tagFree_linkPieces (h : Insulates link?) (hbefore : TagFree before)
    (hrest : ∀ piece ∈ rest, TagFree piece) : TagFree (linkPieces link? before rest) := by
  induction before, rest using linkPieces.induct with
  | case1 before => exact hbefore
  | case2 before last =>
    exact hbefore.append_cons (by decide) (hrest last List.mem_cons_self)
  | case3 before code after rest ih =>
    have hcode := hrest code List.mem_cons_self
    have htail := ih (hrest after (by simp)) fun piece hpiece => hrest piece (by simp [hpiece])
    have hlinked : Insulated ((link? code).getD (span code)) := by
      cases hl : link? code with
      | none => exact insulated_span hcode
      | some l => exact h code l hl hcode
    rw [linkPieces]
    split
    · exact insulated_span hcode _ _ hbefore htail
    · exact hlinked _ _ hbefore htail

theorem tagFree_linkLine (h : Insulates link?) {line : List Char} (hline : TagFree line) :
    TagFree (linkLine link? line) := by
  obtain ⟨before, rest, hpieces, heq⟩ := linkLine_eq link? line
  have hall : ∀ piece ∈ before :: rest, TagFree piece := by
    rw [← hpieces]
    exact fun piece => hline.of_mem_pieces
  rw [List.forall_mem_cons] at hall
  rw [heq]
  exact tagFree_linkPieces h hall.1 hall.2

theorem tagFree_linkLines (h : Insulates link?) (inCode : Bool) (hls : ∀ line ∈ ls, TagFree line) :
    ∀ line ∈ linkLines link? inCode ls, TagFree line := by
  induction ls generalizing inCode with
  | nil => simp [linkLines]
  | cons line ls ih =>
    rw [List.forall_mem_cons] at hls
    rw [linkLines_cons, List.forall_mem_cons]
    refine ⟨?_, ih _ hls.2⟩
    split
    · exact hls.1
    · exact tagFree_linkLine h hls.1

/-- **Linking brings no tags.** -/
theorem tagFree_linkSpans (hx : x.Untagged) (source current : String) {text : String}
    (h : TagFree text.toList) : TagFree (x.linkSpans source current text).toList := by
  rw [toList_linkSpans]
  exact TagFree.joinPieces (by decide)
    (tagFree_linkLines (insulates_spanLink? hx source current) false fun line => h.of_mem_pieces)

/-- A list of names as code has no tags. -/
theorem tagFree_codeLinks (hx : x.Untagged) {names : List String}
    (h : ∀ n ∈ names, TagFree n.toList) (source : String) :
    TagFree (", ".intercalate (names.map fun n => x.codeLink n source)).toList := by
  induction names with
  | nil => exact (by decide : TagFree [])
  | cons n names ih =>
    rw [List.forall_mem_cons] at h
    have hn := insulated_codeLink hx h.1 source
    cases names with
    | nil => simpa using hn [] [] (by decide) (by decide)
    | cons m names =>
      have htail := ((ih h.2).cons (c := ' ') (by decide)).cons (c := ',') (by decide)
      rw [List.map_cons, List.map_cons, String.intercalate_cons_cons]
      simpa using hn [] _ (by decide) htail

end PageIndex

/-! ## Blocks -/

/-- A block in whose text no tag stands. -/
def Block.Untagged (b : Block) : Prop :=
  TagFree b.text.toList

variable {name : String} {d : Declaration} {s : Scope}

theorem untagged_nameHeading (level : Nat) (hname : TagFree name.toList) :
    (Block.heading ⟨level, name, true⟩).Untagged := by
  have hquoted : TagFree ('\x60' :: (name.toList ++ ['\x60'])) :=
    (hname.append_cons (by decide) TagFree.nil).cons (by decide)
  have htext : (Block.heading ⟨level, name, true⟩).text.toList =
      List.replicate (min level 6) '#' ++ ' ' :: '\x60' :: (name.toList ++ ['\x60']) := by
    show (Heading.line ⟨level, name, true⟩).toList = _
    simp [Heading.line, Heading.text]
  rw [Block.Untagged, htext]
  exact TagFree.front_append (by simp) (hquoted.cons (by decide))

theorem untagged_sectionHeading (level : Nat) (title : Section) :
    (Scope.sectionHeading level title).Untagged := by
  have htitle : '<' ∉ title.title.toList := by
    cases title <;> decide
  refine TagFree.of_not_mem ?_
  show '<' ∉ (Heading.line ⟨level + 1, title.title, false⟩).toList
  simp [Heading.line, Heading.text, htitle]

theorem untagged_code {signature : String} (h : TagFree signature.toList) :
    (Block.code signature).Untagged := by
  have htrim : TagFree (Text.trimEnd signature).toList := by
    rw [Text.trimEnd, String.toList_ofList]
    exact h.of_infix (List.rdropWhile_prefix Text.isBlank signature.toList).isInfix
  have htext : (Block.code signature).text.toList =
      "```swift".toList ++ '\n' :: ((Text.trimEnd signature).toList ++ '\n' :: "```".toList) := by
    show ("```swift\n" ++ Text.trimEnd signature ++ "\n```").toList = _
    simp
  have hfence : TagFree "```".toList := TagFree.of_not_mem (by decide)
  rw [Block.Untagged, htext]
  exact TagFree.append_cons (by decide) (TagFree.of_not_mem (by decide))
    (htrim.append_cons (by decide) hfence)

theorem untagged_bullets {items : List String} (h : ∀ item ∈ items, TagFree item.toList) :
    (Block.bullets items).Untagged := by
  have htext : (Block.bullets items).text.toList =
      joinPieces '\n' (items.map fun item => "- ".toList ++ item.toList) := by
    show ("\n".intercalate (items.map ("- " ++ ·))).toList = _
    rw [Text.toList_intercalate_newline, List.map_map]
    exact congrArg _ (List.map_congr_left fun item _ => String.toList_append)
  rw [Block.Untagged, htext]
  refine TagFree.joinPieces (by decide) (List.forall_mem_map.2 fun item hitem => ?_)
  exact TagFree.front_append (by decide) (h item hitem)

namespace Scope

theorem tagFree_prose (hs : s.index.Untagged) {text : String} (h : TagFree text.toList) :
    TagFree (s.prose text).toList := by
  refine PageIndex.tagFree_linkSpans hs _ _ ?_
  rw [Text.trim, String.toList_ofList]
  exact h.of_infix ((Text.dropBlanks_infix_dropBlankEnd _).trans
    (List.rdropWhile_prefix Text.isBlank text.toList).isInfix)

theorem untagged_ownBlocks (hs : s.index.Untagged) (h : d.Untagged) (level : Nat) :
    ∀ b ∈ s.ownBlocks level d, b.Untagged := by
  have hc := h.getD
  have hprose := Comment.forall_mem_proseTexts hc.summary hc.discussion hc.returns hc.throws
  refine forall_mem_ownBlocks (untagged_code h.signature) (untagged_sectionHeading level)
    (PageIndex.tagFree_codeLinks hs h.inheritance s.path)
    (fun text htext => tagFree_prose hs (hprose text htext)) (untagged_bullets ?_)
  intro item hitem
  obtain ⟨p, hp, rfl⟩ := List.mem_map.1 hitem
  obtain ⟨hname, hdescription⟩ := hc.parameters p hp
  have htail : TagFree (": ".toList ++ (s.prose p.description).toList) :=
    TagFree.front_append (by decide) (tagFree_prose hs hdescription)
  have hall := (hname.append_cons (by decide : Tagless '\x60') htail).cons (c := '\x60') (by decide)
  simpa using hall

end Scope

theorem untagged_contentsBlocks (a : Anchors) (contents : Bool)
    (h : ∀ m ∈ d.members, TagFree m.name.toList) :
    ∀ b ∈ contentsBlocks a contents d, b.Untagged := by
  simp only [contentsBlocks]
  split
  · rw [List.forall_mem_cons, List.forall_mem_singleton]
    refine ⟨untagged_sectionHeading 1 _, untagged_bullets ?_⟩
    intro item hitem
    obtain ⟨⟨m, anchor⟩, hm, rfl⟩ := List.mem_map.1 hitem
    obtain ⟨hmember, hanchor⟩ := List.of_mem_zip hm
    have hopen := not_mem_memberAnchors (c := '<') (by decide) (by decide) _ _ anchor hanchor
    have htail : TagFree ("](#".toList ++ anchor.toList ++ ")".toList) :=
      TagFree.of_not_mem (by simp [hopen])
    have hquoted := (h m hmember).append_cons (by decide : Tagless '\x60') htail
    have hall := (hquoted.cons (by decide : Tagless '\x60')).cons (by decide : Tagless '[')
    simpa using hall
  · simp

end ApiPages
