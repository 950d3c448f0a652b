import ApiPages.Proofs.Page.LinkedSpans
import ApiPages.Proofs.Page.TopAnchors

/-!
# Linking again

Linking a text that was linked already changes nothing (`linkSpans_linkSpans`). Links bring no
backticks with them, so the backticks of a linked line make the same pairs as before; a span that
became a link has a bracket in front of it, and what kept another span from becoming one is still
there. No line becomes a fence.
-/

namespace ApiPages

open Text

variable {link? : List Char → Option (List Char)} {before before' after code line : List Char}
  {rest rest' ls : List (List Char)}

/-! ## Fences by pieces -/

namespace Text

theorem isFence_append_of_blank (h : dropBlankStart before = []) (cs : List Char) :
    isFence (before ++ cs) = isFence cs := by
  rw [isFence, dropBlankStart, List.dropWhile_append, ← dropBlankStart, h]
  rfl

/-- A line that begins with text is no fence. -/
theorem isFence_append_of_text (h : dropBlankStart before ≠ []) (htick : '\x60' ∉ before)
    (cs : List Char) : isFence (before ++ cs) = false := by
  obtain ⟨c, text, hdrop⟩ := List.exists_cons_of_ne_nil h
  have hc : c ≠ '\x60' := by
    rintro rfl
    refine htick ((List.dropWhile_sublist isBlank).subset ?_)
    rw [← dropBlankStart, hdrop]
    exact List.mem_cons_self
  rw [isFence, dropBlankStart, List.dropWhile_append, ← dropBlankStart, hdrop]
  simp [fenceMark, List.isPrefixOf, hc.symm]

theorem isFence_tick_cons (cs : List Char) :
    isFence ('\x60' :: cs) = ['\x60', '\x60'].isPrefixOf cs := rfl

/-- A fence has only blanks before its first backtick, and the next two follow at once. -/
theorem isFence_joinPieces_iff (hbefore : '\x60' ∉ before)
    (hrest : ∀ piece ∈ rest, '\x60' ∉ piece) :
    isFence (joinPieces '\x60' (before :: rest)) = true ↔
      dropBlankStart before = [] ∧ ∃ last more, rest = [] :: [] :: last :: more := by
  by_cases hblank : dropBlankStart before = []
  · rw [and_iff_right hblank]
    match rest with
    | [] =>
      rw [joinPieces, isFence, hblank]
      simp [fenceMark]
    | [last] =>
      rw [joinPieces_cons_cons, isFence_append_of_blank hblank, isFence_tick_cons]
      cases last <;> simp_all [joinPieces]
    | [[], last] =>
      rw [joinPieces_cons_cons, isFence_append_of_blank hblank, isFence_tick_cons]
      cases last <;> simp_all [joinPieces]
    | (c :: cs) :: piece :: more =>
      rw [joinPieces_cons_cons, isFence_append_of_blank hblank, isFence_tick_cons]
      simp_all [joinPieces]
    | [] :: (c :: cs) :: piece :: more =>
      rw [joinPieces_cons_cons, isFence_append_of_blank hblank, isFence_tick_cons]
      simp_all [joinPieces]
    | [] :: [] :: piece :: more =>
      rw [joinPieces_cons_cons, isFence_append_of_blank hblank, isFence_tick_cons]
      simp [joinPieces]
  · obtain ⟨more, hmore⟩ := PageIndex.exists_joinPieces_eq '\x60' before rest
    rw [hmore, isFence_append_of_text hblank hbefore]
    simp [hblank]

end Text

namespace PageIndex

/-! ## Settled lines -/

/-- No span among the pieces of a line is to become a link. -/
def Settled (link? : List Char → Option (List Char)) : List Char → List (List Char) → Prop
  | before, code :: after :: rest =>
    (isLinkText before after = true ∨ link? code = none) ∧ Settled link? after rest
  | _, _ => True

theorem span_of_settled (h : isLinkText before after = true ∨ link? code = none) :
    (if isLinkText before after then span code else (link? code).getD (span code)) =
      span code := by
  rcases h with hlink | hnone
  · rw [if_pos hlink]
  · rw [hnone]
    exact ite_self _

/-- Pieces without spans to link are put together again as they are. -/
theorem linkPieces_of_settled (h : Settled link? before rest) :
    linkPieces link? before rest = joinPieces '\x60' (before :: rest) := by
  induction before, rest using linkPieces.induct with
  | case1 before => rfl
  | case2 before last => rfl
  | case3 before code after rest ih =>
    obtain ⟨hspan, htail⟩ := h
    rw [linkPieces, span_of_settled hspan, ih htail, joinPieces_cons_cons, joinPieces_cons_cons]
    simp [span]

theorem isLinkText_of_begins (h : isLinkText before after = true) (hafter : after <+: after') :
    isLinkText before after' = true := by
  rw [isLinkText, Bool.or_eq_true, List.isPrefixOf_iff_prefix] at h ⊢
  exact h.imp_right fun hlink => hlink.trans hafter

/-- More text in front of a line does not unsettle it. -/
theorem Settled.append_left (front : List Char) (h : Settled link? before rest) :
    Settled link? (front ++ before) rest := by
  match rest, h with
  | [], _ => exact trivial
  | [_], _ => exact trivial
  | code :: after :: rest, ⟨hspan, htail⟩ =>
    refine ⟨hspan.imp_left ?_, htail⟩
    intro hlink
    rw [isLinkText, Bool.or_eq_true, decide_eq_true_eq] at hlink ⊢
    refine hlink.imp_left fun hbracket => ?_
    rw [List.getLast?_append, hbracket]
    rfl

/-! ## Linked lines -/

/-- What spans become: the span behind a bracket, then a destination without backticks, all in one
line. -/
def Wraps (link? : List Char → Option (List Char)) : Prop :=
  ∀ code l, link? code = some l →
    ∃ destination, l = '[' :: span code ++ destination ∧ '\x60' ∉ destination ∧
      '\n' ∉ destination

/-- The pieces of a line and those of the line after linking. A code keeps its place; where its span
becomes a link, the piece before it gets a bracket and the piece after it the destination. -/
inductive Relinked (link? : List Char → Option (List Char)) :
    List Char → List (List Char) → List Char → List (List Char) → Prop
  | nil (before : List Char) : Relinked link? before [] before []
  | unpaired (before last : List Char) : Relinked link? before [last] before [last]
  | keep {before code after after' : List Char} {rest rest' : List (List Char)}
      (hspan : isLinkText before after = true ∨ link? code = none)
      (htail : Relinked link? after rest after' rest') :
      Relinked link? before (code :: after :: rest) before (code :: after' :: rest')
  | link {before code after after' destination : List Char} {rest rest' : List (List Char)}
      (hspan : isLinkText before after = false)
      (hlink : link? code = some ('[' :: span code ++ destination)) (htick : '\x60' ∉ destination)
      (htail : Relinked link? after rest after' rest') :
      Relinked link? before (code :: after :: rest) (before ++ ['['])
        (code :: (destination ++ after') :: rest')

theorem exists_relinked (h : Wraps link?) (before : List Char) (rest : List (List Char)) :
    ∃ before' rest', Relinked link? before rest before' rest' := by
  induction before, rest using linkPieces.induct with
  | case1 before => exact ⟨before, [], .nil before⟩
  | case2 before last => exact ⟨before, [last], .unpaired before last⟩
  | case3 before code after rest ih =>
    obtain ⟨after', rest', htail⟩ := ih
    cases hspan : isLinkText before after with
    | true => exact ⟨_, _, .keep (.inl hspan) htail⟩
    | false =>
      cases hlink : link? code with
      | none => exact ⟨_, _, .keep (.inr hlink) htail⟩
      | some l =>
        obtain ⟨destination, rfl, htick, -⟩ := h code l hlink
        exact ⟨_, _, .link hspan hlink htick htail⟩

namespace Relinked

theorem linkPieces_eq (h : Relinked link? before rest before' rest') :
    linkPieces link? before rest = joinPieces '\x60' (before' :: rest') := by
  induction h with
  | nil before => rfl
  | unpaired before last => rfl
  | keep hspan htail ih =>
    rw [linkPieces, span_of_settled hspan, ih, joinPieces_cons_cons, joinPieces_cons_cons]
    simp [span]
  | link hspan hlink htick htail ih =>
    rw [linkPieces, if_neg (by simp [hspan]), hlink, ih, Option.getD_some, joinPieces_cons_cons,
      joinPieces_cons_cons, joinPieces_append_cons]
    simp [span]

/-- Linking adds only behind what stands before the first code. -/
theorem isPrefix (h : Relinked link? before rest before' rest') : before <+: before' := by
  cases h with
  | nil => exact List.prefix_refl before
  | unpaired => exact List.prefix_refl before
  | keep => exact List.prefix_refl before
  | link => exact List.prefix_append before ['[']

theorem length_eq (h : Relinked link? before rest before' rest') : rest'.length = rest.length := by
  induction h with
  | nil => rfl
  | unpaired => rfl
  | keep _ _ ih => rw [List.length_cons, List.length_cons, ih]; rfl
  | link _ _ _ _ ih => rw [List.length_cons, List.length_cons, ih]; rfl

theorem settled (h : Relinked link? before rest before' rest') : Settled link? before' rest' := by
  induction h with
  | nil => exact trivial
  | unpaired => exact trivial
  | keep hspan htail ih =>
    exact ⟨hspan.imp_left fun hlink => isLinkText_of_begins hlink htail.isPrefix, ih⟩
  | @link before code after after' destination rest rest' hspan hlink htick htail ih =>
    -- the bracket in front of a link keeps its span from becoming one again
    have hbracket : isLinkText (before ++ ['[']) (destination ++ after') = true := by
      simp [isLinkText]
    exact ⟨.inl hbracket, ih.append_left destination⟩

theorem not_mem (h : Relinked link? before rest before' rest') (hbefore : '\x60' ∉ before)
    (hrest : ∀ piece ∈ rest, '\x60' ∉ piece) : ∀ piece ∈ before' :: rest', '\x60' ∉ piece := by
  induction h with
  | nil => simpa using hbefore
  | unpaired => simpa [hbefore] using hrest
  | keep hspan htail ih =>
    simp only [List.forall_mem_cons] at hrest ih ⊢
    obtain ⟨hcode, hafter, hrest⟩ := hrest
    exact ⟨hbefore, hcode, ih hafter hrest⟩
  | link hspan hlink htick htail ih =>
    simp only [List.forall_mem_cons] at hrest ih ⊢
    obtain ⟨hcode, hafter, hrest⟩ := hrest
    obtain ⟨hafter', hrest'⟩ := ih hafter hrest
    exact ⟨by simp [hbefore], hcode, by simp [htick, hafter'], hrest'⟩

/-- No line becomes a fence. -/
theorem isFence_eq_false (h : Relinked link? before rest before' rest') (hbefore : '\x60' ∉ before)
    (hrest : ∀ piece ∈ rest, '\x60' ∉ piece)
    (hfence : isFence (joinPieces '\x60' (before :: rest)) = false) :
    isFence (joinPieces '\x60' (before' :: rest')) = false := by
  have htick := h.not_mem hbefore hrest
  rw [List.forall_mem_cons] at htick
  rw [Bool.eq_false_iff, ne_eq, isFence_joinPieces_iff hbefore hrest] at hfence
  rw [Bool.eq_false_iff, ne_eq, isFence_joinPieces_iff htick.1 htick.2]
  cases h with
  | nil => exact hfence
  | unpaired => exact hfence
  | keep hspan htail =>
    rintro ⟨hblank, last, more, heq⟩
    obtain ⟨rfl, rfl, rfl⟩ := by simpa using heq
    -- the piece behind the first code was empty before, and there was a third backtick
    obtain rfl := List.prefix_nil.1 htail.isPrefix
    obtain ⟨last, more, rfl⟩ := List.exists_cons_of_length_eq_add_one htail.length_eq.symm
    exact hfence ⟨hblank, last, more, rfl⟩
  | link =>
    rintro ⟨hblank, -⟩
    have hall := List.dropWhile_eq_nil_iff.1 hblank
    exact absurd (hall '[' (by simp)) (by decide)

end Relinked

/-- A linked line has nothing more to link, and it is no fence unless it was one before. -/
theorem linkLine_linkLine (h : Wraps link?) (line : List Char) :
    linkLine link? (linkLine link? line) = linkLine link? line ∧
      (isFence line = false → isFence (linkLine link? line) = false) := by
  obtain ⟨before, rest, hpieces, hlinked⟩ := linkLine_eq link? line
  have htick : ∀ piece ∈ before :: rest, '\x60' ∉ piece := by
    rw [← hpieces]
    exact fun piece => not_mem_of_mem_pieces
  rw [List.forall_mem_cons] at htick
  obtain ⟨before', rest', hre⟩ := exists_relinked h before rest
  have hnot := hre.not_mem htick.1 htick.2
  rw [hlinked, hre.linkPieces_eq]
  constructor
  · rw [linkLine, pieces_joinPieces hnot (List.cons_ne_nil _ _)]
    exact linkPieces_of_settled hre.settled
  · rw [← joinPieces_pieces '\x60' line, hpieces]
    exact hre.isFence_eq_false htick.1 htick.2

/-! ## Linked texts -/

theorem linkLines_linkLines (h : Wraps link?) (inCode : Bool) (ls : List (List Char)) :
    linkLines link? inCode (linkLines link? inCode ls) = linkLines link? inCode ls := by
  induction ls generalizing inCode with
  | nil => rfl
  | cons line ls ih =>
    obtain ⟨hagain, hfence⟩ := linkLine_linkLine h line
    rw [linkLines_cons]
    cases hcode : isFence line || inCode with
    | true => rw [if_pos rfl, linkLines_cons, hcode, if_pos rfl, ih]
    | false =>
      obtain ⟨hline, rfl⟩ := Bool.or_eq_false_iff.1 hcode
      rw [if_neg (by simp), linkLines_cons, hfence hline, hline]
      simp [hagain, ih]

theorem Wraps.links (h : Wraps link?) : Links link? := by
  intro code l hl hcode
  obtain ⟨destination, rfl, -, hnewline⟩ := h code l hl
  exact ⟨rfl, by simp [span, hcode, hnewline]⟩

theorem newline_not_mem_linkLines (h : Links link?) (inCode : Bool) {ls : List (List Char)}
    (hls : ∀ line ∈ ls, '\n' ∉ line) : ∀ line ∈ linkLines link? inCode ls, '\n' ∉ line := by
  induction ls generalizing inCode with
  | nil => simp [linkLines]
  | cons line ls ih =>
    rw [List.forall_mem_cons] at hls
    rw [linkLines_cons, List.forall_mem_cons]
    refine ⟨?_, ih _ hls.2⟩
    split
    · exact hls.1
    · exact newline_not_mem_linkLine h hls.1

theorem linkLines_ne_nil (link? : List Char → Option (List Char)) (inCode : Bool) (hls : ls ≠ []) :
    linkLines link? inCode ls ≠ [] := by
  obtain ⟨line, ls, rfl⟩ := List.exists_cons_of_ne_nil hls
  rw [linkLines_cons]
  exact List.cons_ne_nil _ _

theorem isForeign_tick : IsForeign '\x60' :=
  ⟨by decide, by decide, by decide⟩

theorem wraps_spanLink? {x : PageIndex} (htick : x.Without '\x60') (hnewline : x.Without '\n')
    (source current : String) : Wraps (x.spanLink? source current) := by
  intro code l hl
  rw [spanLink?_eq] at hl
  obtain ⟨target, htarget, rfl⟩ := Option.map_eq_some_iff.1 hl
  have hmem : target ∈ x.pages := by
    unfold target? at htarget
    split at htarget
    · cases htarget
    · exact List.mem_of_find?_eq_some htarget
  have hlink := not_mem_link isForeign_tick htick hmem source
  have hline := not_mem_link isForeign_newline hnewline hmem source
  refine ⟨"](".toList ++ (x.link target source).toList ++ [')'], ?_, ?_, ?_⟩
  · simp [linkedSpan, span]
  · simp [hlink]
  · simp [hline]

/-- **Linking a text again changes nothing**, when what the settings add to links has no backticks
and no line ends. -/
theorem linkSpans_linkSpans (settings : Settings) (k : Catalog)
    (hstart : '\x60' ∉ settings.linkStart.toList ∧ '\n' ∉ settings.linkStart.toList)
    (hend : '\x60' ∉ settings.linkEnd.toList ∧ '\n' ∉ settings.linkEnd.toList)
    (source current text : String) :
    (ofCatalog settings k).linkSpans source current
        ((ofCatalog settings k).linkSpans source current text) =
      (ofCatalog settings k).linkSpans source current text := by
  have htick := without_ofCatalog (by decide) (by decide) k hstart.1 hend.1
  have hnewline := without_ofCatalog (by decide) (by decide) k hstart.2 hend.2
  have hwraps := wraps_spanLink? htick hnewline source current
  have hpieces : ∀ line ∈ pieces '\n' text.toList, '\n' ∉ line := fun line => not_mem_of_mem_pieces
  have hlines := newline_not_mem_linkLines hwraps.links false hpieces
  have hne := linkLines_ne_nil ((ofCatalog settings k).spanLink? source current) false
    (pieces_ne_nil '\n' text.toList)
  rw [linkSpans, toList_linkSpans, linkedLines, pieces_joinPieces hlines hne,
    linkLines_linkLines hwraps]
  rfl

/-- Spans side by side are link text once they are linked, like the span that was before. -/
theorem linkSpans_again_sideBySide :
    ('\x60' ∉ Settings.standard.linkStart.toList ∧ '\n' ∉ Settings.standard.linkStart.toList) ∧
    ('\x60' ∉ Settings.standard.linkEnd.toList ∧ '\n' ∉ Settings.standard.linkEnd.toList) ∧
    (classIndex "Dog").linkSpans "README.md" "" ((classIndex "Dog").linkSpans "README.md" ""
        "\x60Dog\x60\x60Dog\x60[\x60Dog\x60](x)\x60") =
      "[\x60Dog\x60](classes/Dog.md)[\x60Dog\x60](classes/Dog.md)[\x60Dog\x60](x)\x60" := by
  have hstart : '\x60' ∉ Settings.standard.linkStart.toList ∧
      '\n' ∉ Settings.standard.linkStart.toList := by decide
  have hend : '\x60' ∉ Settings.standard.linkEnd.toList ∧
      '\n' ∉ Settings.standard.linkEnd.toList := by decide
  have hagain := linkSpans_linkSpans .standard (Catalog.ofList [.bare .classType "Dog" []])
    hstart hend "README.md" "" "\x60Dog\x60\x60Dog\x60[\x60Dog\x60](x)\x60"
  refine ⟨hstart, hend, hagain.trans ?_⟩
  decide +kernel

end PageIndex

end ApiPages
