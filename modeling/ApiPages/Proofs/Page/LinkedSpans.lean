import ApiPages.Proofs.Declaration.Nodes
import ApiPages.Proofs.Page.CodeSpans
import ApiPages.Proofs.Text.CodeLines

/-!
# Linked spans

Linking takes a text as stretches: most of them stay as they are, and some code spans become links.
Which ones is said by the text alone (`linkSpans_links`): those in lines that are no code, which
name a page other than the current one and are not the text of a link already.
-/

namespace ApiPages

open Text

/-- A stretch of a line: what stays as it is, or a code span that becomes a link to a page. -/
inductive Stretch where
  | kept (cs : List Char)
  | linked (code : List Char) (target : Page)

namespace Stretch

/-- The stretch before linking. -/
def written : Stretch → List Char
  | kept cs => cs
  | linked code _ => PageIndex.span code

/-- The stretch after linking, in the document at `source`. -/
def shown (x : PageIndex) (source : String) : Stretch → List Char
  | kept cs => cs
  | linked code target => (x.linkedSpan target (String.ofList code) source).toList

/-- The line that consists of some stretches, before linking. -/
def writtenLine (ss : List Stretch) : List Char :=
  ss.flatMap written

/-- The line that consists of some stretches, after linking. -/
def shownLine (x : PageIndex) (source : String) (ss : List Stretch) : List Char :=
  ss.flatMap (shown x source)

/-- Among the stretches the code span becomes a link to the page. -/
def LinksAt (ss : List Stretch) (p : CodeSpan) (target : Page) : Prop :=
  ∃ ss₁ ss₂, ss = ss₁ ++ linked p.code target :: ss₂ ∧ writtenLine ss₁ = p.before ∧
    writtenLine ss₂ = p.after

end Stretch

variable {x : PageIndex} {source current : String} {target : Page} {p : CodeSpan}
  {before code after line : List Char} {rest ls : List (List Char)} {s : Stretch}
  {ss : List Stretch}

/-! ## Stretches of a line -/

namespace Stretch

theorem writtenLine_cons (s : Stretch) (ss : List Stretch) :
    writtenLine (s :: ss) = s.written ++ writtenLine ss :=
  List.flatMap_cons

theorem shownLine_cons (x : PageIndex) (source : String) (s : Stretch) (ss : List Stretch) :
    shownLine x source (s :: ss) = s.shown x source ++ shownLine x source ss :=
  List.flatMap_cons

/-- What becomes of a code span between two stretches of text. -/
def ofSpan (x : PageIndex) (current : String) (before code after : List Char) : Stretch :=
  match if PageIndex.isLinkText before after then none else x.target? current code with
  | none => kept (PageIndex.span code)
  | some target => linked code target

/-- The stretches of a line by its pieces between backticks. -/
def ofPieces (x : PageIndex) (current : String) (before : List Char) :
    List (List Char) → List Stretch
  | [] => [kept before]
  | [last] => [kept (before ++ '\x60' :: last)]
  | code :: after :: rest =>
    kept before :: ofSpan x current before code after :: ofPieces x current after rest

theorem written_ofSpan (x : PageIndex) (current : String) (before code after : List Char) :
    (ofSpan x current before code after).written = PageIndex.span code := by
  unfold ofSpan
  split <;> rfl

theorem shown_ofSpan (x : PageIndex) (source current : String) (before code after : List Char) :
    (ofSpan x current before code after).shown x source =
      if PageIndex.isLinkText before after then PageIndex.span code
      else (x.spanLink? source current code).getD (PageIndex.span code) := by
  rw [ofSpan, PageIndex.spanLink?_eq]
  cases PageIndex.isLinkText before after with
  | true => rfl
  | false => cases x.target? current code <;> rfl

theorem ofSpan_eq_linked_iff {code' : List Char} :
    ofSpan x current before code after = linked code' target ↔
      code = code' ∧ PageIndex.isLinkText before after = false ∧
        x.target? current code = some target := by
  unfold ofSpan
  cases PageIndex.isLinkText before after with
  | true => simp
  | false => cases x.target? current code <;> simp

/-- A code span becomes a link when it names a page, with the pieces behind it as its line. -/
theorem ofSpan_eq_linked_iff_names (rest : List (List Char)) :
    (ofSpan x current before code after = linked p.code target ∧ p.before = before ∧
        p.after = joinPieces '\x60' (after :: rest)) ↔
      p = ⟨before, code, joinPieces '\x60' (after :: rest)⟩ ∧ p.Names x current target := by
  obtain ⟨pbefore, pcode, pafter⟩ := p
  rw [ofSpan_eq_linked_iff, CodeSpan.names_iff]
  constructor
  · rintro ⟨⟨rfl, hlink, htarget⟩, rfl, rfl⟩
    exact ⟨rfl, by rwa [PageIndex.isLinkText_joinPieces], htarget⟩
  · rintro ⟨hp, hlink, htarget⟩
    obtain ⟨rfl, rfl, rfl⟩ := CodeSpan.mk.inj hp
    rw [PageIndex.isLinkText_joinPieces] at hlink
    exact ⟨⟨rfl, hlink, htarget⟩, rfl, rfl⟩

theorem writtenLine_ofPieces (x : PageIndex) (current : String) (before : List Char)
    (rest : List (List Char)) :
    writtenLine (ofPieces x current before rest) = joinPieces '\x60' (before :: rest) := by
  induction before, rest using ofPieces.induct with
  | case1 before => simp [ofPieces, writtenLine, written, joinPieces]
  | case2 before last => simp [ofPieces, writtenLine, written, joinPieces]
  | case3 before code after rest ih =>
    rw [ofPieces, writtenLine_cons, writtenLine_cons, ih, written_ofSpan, joinPieces_cons_cons,
      joinPieces_cons_cons]
    simp [written, PageIndex.span]

theorem shownLine_ofPieces (x : PageIndex) (source current : String) (before : List Char)
    (rest : List (List Char)) :
    shownLine x source (ofPieces x current before rest) =
      PageIndex.linkPieces (x.spanLink? source current) before rest := by
  induction before, rest using ofPieces.induct with
  | case1 before => simp [ofPieces, shownLine, shown, PageIndex.linkPieces]
  | case2 before last => simp [ofPieces, shownLine, shown, PageIndex.linkPieces]
  | case3 before code after rest ih =>
    rw [ofPieces, shownLine_cons, shownLine_cons, ih, shown_ofSpan, PageIndex.linkPieces,
      List.append_assoc]
    rfl

/-- A stretch of text and a span in front of a line add the link that the span becomes. -/
theorem linksAt_cons_iff (hs : s.written = PageIndex.span code) :
    LinksAt (kept before :: s :: ss) p target ↔
      (s = linked p.code target ∧ p.before = before ∧ p.after = writtenLine ss) ∨
        ∃ q, LinksAt ss q target ∧ p = q.behind (before ++ PageIndex.span code) := by
  obtain ⟨pbefore, pcode, pafter⟩ := p
  constructor
  · rintro ⟨ss₁, ss₂, heq, rfl, rfl⟩
    match ss₁ with
    | [] => cases heq
    | [_] =>
      obtain ⟨rfl, rfl, rfl⟩ := by simpa using heq
      exact .inl ⟨rfl, List.append_nil _, rfl⟩
    | _ :: _ :: ss₁ =>
      obtain ⟨rfl, rfl, rfl⟩ := by simpa using heq
      refine .inr ⟨⟨writtenLine ss₁, pcode, writtenLine ss₂⟩, ⟨ss₁, ss₂, rfl, rfl, rfl⟩, ?_⟩
      rw [CodeSpan.behind, writtenLine_cons, writtenLine_cons, hs, List.append_assoc]
      rfl
  · rintro (⟨rfl, rfl, rfl⟩ | ⟨q, ⟨ss₁, ss₂, rfl, hbefore, hafter⟩, hq⟩)
    · exact ⟨[kept pbefore], ss, rfl, List.append_nil _, rfl⟩
    · obtain ⟨rfl, rfl, rfl⟩ := CodeSpan.mk.inj hq
      refine ⟨kept before :: s :: ss₁, ss₂, rfl, ?_, hafter⟩
      rw [writtenLine_cons, writtenLine_cons, hs, hbefore, List.append_assoc]
      rfl

theorem not_linksAt_kept (cs : List Char) : ¬ LinksAt [kept cs] p target := by
  rintro ⟨ss₁, ss₂, heq, -, -⟩
  cases ss₁ <;> simp at heq

/-- **The links of a line** stand in place of the code spans that are to become links. -/
theorem linksAt_ofPieces_iff (hbefore : '\x60' ∉ before) (hrest : ∀ piece ∈ rest, '\x60' ∉ piece) :
    LinksAt (ofPieces x current before rest) p target ↔
      p.In (joinPieces '\x60' (before :: rest)) ∧ p.Names x current target := by
  induction before, rest using ofPieces.induct generalizing p with
  | case1 before =>
    have hcount : before.count '\x60' ≤ 1 := by simp [List.count_eq_zero.2 hbefore]
    have hnone := CodeSpan.not_in_of_count_le hcount p
    simp [ofPieces, joinPieces, hnone, not_linksAt_kept]
  | case2 before last =>
    have hlast := hrest last List.mem_cons_self
    have hcount : (before ++ '\x60' :: last).count '\x60' ≤ 1 := by
      simp [List.count_eq_zero.2 hbefore, List.count_eq_zero.2 hlast]
    have hnone := CodeSpan.not_in_of_count_le hcount p
    simp [ofPieces, joinPieces, hnone, not_linksAt_kept]
  | case3 before code after rest ih =>
    have hcode := hrest code List.mem_cons_self
    have hafter := hrest after (by simp)
    have hline : joinPieces '\x60' (before :: code :: after :: rest) =
        before ++ PageIndex.span code ++ joinPieces '\x60' (after :: rest) := by
      simp [joinPieces_cons_cons, PageIndex.span]
    have ih := fun q => ih (p := q) hafter fun piece hpiece => hrest piece (by simp [hpiece])
    rw [ofPieces, linksAt_cons_iff (written_ofSpan x current before code after), hline,
      CodeSpan.in_cons_iff hbefore hcode, or_and_right, writtenLine_ofPieces]
    -- the first span of the line, and the spans behind it
    refine or_congr (ofSpan_eq_linked_iff_names rest) ?_
    constructor
    · rintro ⟨q, hq, rfl⟩
      obtain ⟨hin, hq⟩ := (ih q).1 hq
      exact ⟨⟨q, hin, rfl⟩, (CodeSpan.names_behind_iff before).2 hq⟩
    · rintro ⟨⟨q, hin, rfl⟩, hq⟩
      exact ⟨q, (ih q).2 ⟨hin, (CodeSpan.names_behind_iff before).1 hq⟩, rfl⟩

/-- The stretches of a line. -/
def ofLine (x : PageIndex) (current : String) (line : List Char) : List Stretch :=
  match pieces '\x60' line with
  | [] => []
  | before :: rest => ofPieces x current before rest

theorem writtenLine_ofLine (x : PageIndex) (current : String) (line : List Char) :
    writtenLine (ofLine x current line) = line := by
  obtain ⟨before, rest, hpieces⟩ := List.exists_cons_of_ne_nil (pieces_ne_nil '\x60' line)
  rw [ofLine, hpieces, writtenLine_ofPieces, ← hpieces, joinPieces_pieces]

theorem shownLine_ofLine (x : PageIndex) (source current : String) (line : List Char) :
    shownLine x source (ofLine x current line) =
      PageIndex.linkLine (x.spanLink? source current) line := by
  obtain ⟨before, rest, hpieces⟩ := List.exists_cons_of_ne_nil (pieces_ne_nil '\x60' line)
  rw [ofLine, PageIndex.linkLine, hpieces, shownLine_ofPieces]

theorem linksAt_ofLine_iff :
    LinksAt (ofLine x current line) p target ↔ p.In line ∧ p.Names x current target := by
  obtain ⟨before, rest, hpieces⟩ := List.exists_cons_of_ne_nil (pieces_ne_nil '\x60' line)
  have htick : ∀ piece ∈ before :: rest, '\x60' ∉ piece := by
    rw [← hpieces]
    exact fun piece => not_mem_of_mem_pieces
  rw [List.forall_mem_cons] at htick
  rw [ofLine, hpieces, linksAt_ofPieces_iff htick.1 htick.2, ← hpieces, joinPieces_pieces]

/-! ## Stretches of a text -/

/-- The stretches of lines, given whether a block of code is open before the first of them: lines of
code stay as they are. -/
def ofLines (x : PageIndex) (current : String) : Bool → List (List Char) → List (List Stretch)
  | _, [] => []
  | inCode, line :: ls =>
    (if isFence line || inCode then [kept line] else ofLine x current line) ::
      ofLines x current (inCode ^^ isFence line) ls

theorem map_writtenLine_ofLines (x : PageIndex) (current : String) (inCode : Bool)
    (ls : List (List Char)) : (ofLines x current inCode ls).map writtenLine = ls := by
  induction ls generalizing inCode with
  | nil => rfl
  | cons line ls ih =>
    rw [ofLines, List.map_cons, ih]
    split
    · rw [writtenLine_cons]
      simp [written, writtenLine]
    · rw [writtenLine_ofLine]

theorem ofLines_append (x : PageIndex) (current : String) (inCode : Bool)
    (xs ys : List (List Char)) :
    ofLines x current inCode (xs ++ ys) =
      ofLines x current inCode xs ++ ofLines x current (isOpenAfter inCode xs) ys := by
  induction xs generalizing inCode with
  | nil => rw [isOpenAfter_nil]; rfl
  | cons line xs ih =>
    rw [List.cons_append, ofLines, ofLines, ih, isOpenAfter_cons, List.cons_append]

/-- Each line is taken for itself, but for the fences above it. -/
theorem eq_of_ofLines {above below : List (List Stretch)}
    (h : ofLines x current false ls = above ++ ss :: below) :
    ss = if IsCode (above.map writtenLine) (writtenLine ss) then [kept (writtenLine ss)]
      else ofLine x current (writtenLine ss) := by
  have hls : ls = above.map writtenLine ++ writtenLine ss :: below.map writtenLine := by
    rw [← map_writtenLine_ofLines x current false ls, h, List.map_append, List.map_cons]
  rw [hls, ofLines_append, ofLines] at h
  have hlength : (ofLines x current false (above.map writtenLine)).length = above.length := by
    rw [← List.length_map (f := writtenLine), map_writtenLine_ofLines, List.length_map]
  obtain ⟨-, htail⟩ := List.append_inj h hlength
  simp only [isCode_iff]
  exact (List.cons.inj htail).1.symm

end Stretch

namespace PageIndex

/-- The lines of a text with their code spans linked. -/
def linkedLines (x : PageIndex) (source current text : String) : List (List Char) :=
  linkLines (x.spanLink? source current) false (pieces '\n' text.toList)

theorem toList_linkSpans (x : PageIndex) (source current text : String) :
    (x.linkSpans source current text).toList =
      joinPieces '\n' (x.linkedLines source current text) :=
  String.toList_ofList

theorem linkLines_cons (link? : List Char → Option (List Char)) (inCode : Bool) (line : List Char)
    (ls : List (List Char)) :
    linkLines link? inCode (line :: ls) =
      (if isFence line || inCode then line else linkLine link? line) ::
        linkLines link? (inCode ^^ isFence line) ls := by
  rw [linkLines]
  cases isFence line <;> cases inCode <;> rfl

theorem linkLines_append (link? : List Char → Option (List Char)) (inCode : Bool)
    (xs ys : List (List Char)) :
    linkLines link? inCode (xs ++ ys) =
      linkLines link? inCode xs ++ linkLines link? (isOpenAfter inCode xs) ys := by
  induction xs generalizing inCode with
  | nil => rw [isOpenAfter_nil]; rfl
  | cons line xs ih =>
    rw [List.cons_append, linkLines_cons, linkLines_cons, ih, isOpenAfter_cons, List.cons_append]

theorem length_linkLines (link? : List Char → Option (List Char)) (inCode : Bool)
    (ls : List (List Char)) : (linkLines link? inCode ls).length = ls.length := by
  induction ls generalizing inCode with
  | nil => rfl
  | cons line ls ih => rw [linkLines_cons, List.length_cons, ih, List.length_cons]

/-- **Each line is linked for itself**, unless it is code. -/
theorem getElem?_linkLines (link? : List Char → Option (List Char)) (above : List (List Char))
    (line : List Char) (below : List (List Char)) :
    (linkLines link? false (above ++ line :: below))[above.length]? =
      some (if IsCode above line then line else linkLine link? line) := by
  have hlength := length_linkLines link? false above
  rw [linkLines_append, linkLines_cons, List.getElem?_append_right (by omega), hlength]
  simp [isCode_iff]

theorem map_shownLine_ofLines (x : PageIndex) (source current : String) (inCode : Bool)
    (ls : List (List Char)) :
    (Stretch.ofLines x current inCode ls).map (Stretch.shownLine x source) =
      linkLines (x.spanLink? source current) inCode ls := by
  induction ls generalizing inCode with
  | nil => rfl
  | cons line ls ih =>
    rw [Stretch.ofLines, List.map_cons, ih, linkLines_cons]
    split
    · rw [Stretch.shownLine_cons]
      simp [Stretch.shown, Stretch.shownLine]
    · rw [Stretch.shownLine_ofLine]

/-- **Which code spans become links.** Linking a text keeps all of it but some code spans, which
become links to their pages: those outside of code that name a page other than the current one and
are not the text of a link. -/
theorem linkSpans_links (x : PageIndex) (source current text : String) :
    ∃ lines : List (List Stretch),
      pieces '\n' text.toList = lines.map Stretch.writtenLine ∧
      (x.linkSpans source current text).toList =
        joinPieces '\n' (lines.map (Stretch.shownLine x source)) ∧
      ∀ above ss below, lines = above ++ ss :: below → ∀ (p : CodeSpan) (target : Page),
        Stretch.LinksAt ss p target ↔
          ¬ IsCode (above.map Stretch.writtenLine) (Stretch.writtenLine ss) ∧
            p.In (Stretch.writtenLine ss) ∧ p.Names x current target := by
  refine ⟨Stretch.ofLines x current false (pieces '\n' text.toList), ?_, ?_, ?_⟩
  · rw [Stretch.map_writtenLine_ofLines]
  · rw [map_shownLine_ofLines, toList_linkSpans, linkedLines]
  · intro above ss below hlines p target
    have hss := Stretch.eq_of_ofLines hlines
    generalize Stretch.writtenLine ss = line at hss
    split at hss
    · next hcode => simp [hss, hcode, Stretch.not_linksAt_kept]
    · next hprose => rw [hss, Stretch.linksAt_ofLine_iff, and_iff_right hprose]

/-- The index of a single class. -/
def classIndex (name : String) : PageIndex :=
  ofCatalog .standard (Catalog.ofList [.bare .classType name []])

example :
    (classIndex "Dog").linkSpans "README.md" ""
        "\x60Dog\x60\x60Dog\x60 [\x60Dog\x60 \x60Dog\x60](x)\x60" =
      "[\x60Dog\x60](classes/Dog.md)[\x60Dog\x60](classes/Dog.md) " ++
        "[\x60Dog\x60 \x60Dog\x60](x)\x60" := by
  decide +kernel

end PageIndex

end ApiPages
