import ApiPages.Page.Writer
import ApiPages.Proofs.Declaration.Nodes
import ApiPages.Proofs.Page.Anchors
import ApiPages.Proofs.Page.Links
import ApiPages.Proofs.Page.Outline

/-!
# Pages of plain declarations

A declaration is plain when its own texts bring no marks into a document. The outline of a page of
plain declarations is the tree of their headings: a declaration, its sections, its members.
-/

namespace ApiPages

open Text (Mark marks)

/-! ## Plain declarations -/

/-- The texts of a comment that are written as prose by themselves. -/
def Comment.proseTexts (c : Comment) : List String :=
  c.summary :: (c.discussion.toList ++ c.returns.toList ++ c.throws.toList)

theorem Comment.forall_mem_proseTexts {c : Comment} {P : String → Prop} (hsummary : P c.summary)
    (hdiscussion : ∀ text, c.discussion = some text → P text)
    (hreturns : ∀ text, c.returns = some text → P text)
    (hthrows : ∀ text, c.throws = some text → P text) : ∀ text ∈ c.proseTexts, P text := by
  intro text htext
  simp only [proseTexts, List.mem_cons, List.mem_append, Option.mem_toList] at htext
  rcases htext with rfl | (htext | htext) | htext
  · exact hsummary
  · exact hdiscussion text htext
  · exact hreturns text htext
  · exact hthrows text htext

/-- A comment without lines that begin a heading or a block of code. -/
structure Comment.Plain (c : Comment) : Prop where
  summary : marks c.summary.toList = []
  discussion : ∀ text, c.discussion = some text → marks text.toList = []
  parameters : ∀ p ∈ c.parameters, '\n' ∉ p.name.toList ∧ marks p.description.toList = []
  returns : ∀ text, c.returns = some text → marks text.toList = []
  throws : ∀ text, c.throws = some text → marks text.toList = []

/-- A declaration whose own texts bring no marks with them. -/
structure Declaration.Plain (d : Declaration) : Prop where
  name : '\n' ∉ d.name.toList
  inheritance : ∀ n ∈ d.inheritance, '\n' ∉ n.toList ∧ '\x60' ∉ n.toList
  signature : .fence ∉ marks d.signature.toList
  comment : ∀ c, d.comment = some c → c.Plain

theorem Comment.plain_empty : Comment.empty.Plain where
  summary := rfl
  discussion _ h := by cases h
  parameters _ h := by cases h
  returns _ h := by cases h
  throws _ h := by cases h

theorem Declaration.Plain.getD {d : Declaration} (h : d.Plain) : (d.comment.getD .empty).Plain := by
  cases hc : d.comment with
  | none => exact Comment.plain_empty
  | some c => exact h.comment c hc

theorem Declaration.plain_bare {kind : Kind} {name : String} {members : List Declaration}
    (hname : '\n' ∉ name.toList) (hsignature : .fence ∉ marks name.toList) :
    (bare kind name members).Plain :=
  ⟨hname, by simp [bare], hsignature, by simp [bare]⟩

/-! ## Headings -/

theorem clean_nameHeading {level : Nat} (hlevel : 0 < level) {name : String}
    (hname : '\n' ∉ name.toList) : (Block.heading ⟨level, name, true⟩).Clean := by
  have htext : (Heading.text ⟨level, name, true⟩).toList =
      '\x60' :: name.toList ++ ['\x60'] := by
    simp [Heading.text]
  refine Block.clean_heading hlevel ?_ ?_
  · rw [htext]
    simp [hname]
  · rw [htext, Text.dropBlanks_quoted]

theorem clean_sectionHeading (level : Nat) (title : Section) :
    (Scope.sectionHeading level title).Clean := by
  refine Block.clean_heading (Nat.succ_pos level) ?_ ?_
  · show '\n' ∉ title.title.toList
    cases title <;> decide
  · show Text.dropBlanks title.title.toList = title.title.toList
    cases title <;> decide

namespace Scope

variable {s : Scope} {level : Nat} {d : Declaration} {ds : List Declaration}

/-! ## The blocks of a declaration -/

theorem marks_prose (hs : s.index.OneLine) {text : String} (h : marks text.toList = []) :
    marks (s.prose text).toList = [] := by
  refine PageIndex.marks_linkSpans hs _ _ ?_
  rw [Text.marks_trim, h]

/-- What holds of the signature, of headings of sections and of the texts under them holds of every
block that stands before the members. -/
theorem forall_mem_ownBlocks {P : Block → Prop} (hcode : P (.code d.signature))
    (hsection : ∀ title, P (sectionHeading level title))
    (hnames : P (.prose (", ".intercalate (d.inheritance.map fun n => s.index.codeLink n s.path))))
    (hprose : ∀ text ∈ (d.comment.getD .empty).proseTexts, P (.prose (s.prose text)))
    (hparameters : P (.bullets ((d.comment.getD .empty).parameters.map fun p =>
      "\x60" ++ p.name ++ "\x60: " ++ s.prose p.description))) :
    ∀ b ∈ s.ownBlocks level d, P b := by
  have hsummary : (d.comment.getD .empty).summary ∈ (d.comment.getD .empty).proseTexts :=
    List.mem_cons_self
  have hoption : ∀ (title : Section) (text : Option String), (∀ t ∈ text,
      t ∈ (d.comment.getD .empty).proseTexts) → ∀ b ∈ s.textSection level title text, P b := by
    intro title text htext
    cases text with
    | none => simp [textSection]
    | some t => simp [textSection, hsection title, hprose t (htext t rfl)]
  intro b hb
  simp only [ownBlocks, List.mem_append] at hb
  rcases hb with (((((hb | hb) | hb) | hb) | hb) | hb) | hb
  · rw [List.mem_singleton] at hb
    exact hb ▸ hcode
  · unfold inheritanceBlocks at hb
    split at hb
    · simp at hb
    · simp only [List.mem_cons, List.not_mem_nil, or_false] at hb
      rcases hb with rfl | rfl
      exacts [hsection _, hnames]
  · split at hb
    · simp at hb
    · rw [List.mem_singleton] at hb
      exact hb ▸ hprose _ hsummary
  · rw [Option.mem_toList, Option.map_eq_some_iff] at hb
    obtain ⟨text, htext, rfl⟩ := hb
    exact hprose text (by simp [Comment.proseTexts, htext])
  · unfold parameterBlocks at hb
    split at hb
    · simp only [List.mem_cons, List.not_mem_nil, or_false] at hb
      rcases hb with rfl | rfl
      exacts [hsection _, hparameters]
    · simp at hb
  · exact hoption _ _ (fun t ht => by simp_all [Comment.proseTexts]) b hb
  · exact hoption _ _ (fun t ht => by simp_all [Comment.proseTexts]) b hb

theorem clean_ownBlocks (hs : s.index.OneLine) (h : d.Plain) (level : Nat) :
    ∀ b ∈ s.ownBlocks level d, b.Clean := by
  have hc := h.getD
  have hprose := Comment.forall_mem_proseTexts hc.summary hc.discussion hc.returns hc.throws
  refine forall_mem_ownBlocks (Block.clean_code h.signature) (clean_sectionHeading level)
    (Block.clean_prose (PageIndex.marks_codeLinks hs h.inheritance s.path))
    (fun text htext => Block.clean_prose (marks_prose hs (hprose text htext)))
    (Block.clean_bullets ?_)
  -- a bullet begins with a dash, and its name stays in the line
  intro item hitem
  obtain ⟨p, hp, rfl⟩ := List.mem_map.1 hitem
  obtain ⟨hname, hdescription⟩ := hc.parameters p hp
  have htext : ("- " ++ ("\x60" ++ p.name ++ "\x60: " ++ s.prose p.description)).toList =
      '-' :: (" \x60".toList ++ p.name.toList ++ "\x60: ".toList) ++
        (s.prose p.description).toList := by
    simp
  rw [htext]
  exact Text.marks_of_plainStart (by decide) (by simp [hname]) (marks_prose hs hdescription)

/-! ## Members -/

theorem memberBlocks_eq (s : Scope) (level : Nat) (d : Declaration) :
    s.memberBlocks level d = .heading ⟨level, d.name, true⟩ ::
      s.folded d.name (s.ownBlocks level d ++ s.membersBlocks (level + 1) d.members) := by
  cases d
  rw [memberBlocks]

theorem membersBlocks_eq_flatMap (s : Scope) (level : Nat) (ds : List Declaration) :
    s.membersBlocks level ds = ds.flatMap (s.memberBlocks level) := by
  induction ds with
  | nil => rfl
  | cons d ds ih => rw [membersBlocks, ih, List.flatMap_cons]

theorem clean_folded {name : String} (hname : '\n' ∉ name.toList) {body : List Block}
    (h : ∀ b ∈ body, b.Clean) : ∀ b ∈ s.folded name body, b.Clean := by
  unfold folded
  split
  · intro b hb
    simp only [List.mem_append, List.mem_singleton] at hb
    rcases hb with (rfl | hb) | rfl
    · exact Block.clean_detailsStart hname
    · exact h b hb
    · exact Block.clean_detailsEnd
  · exact h

theorem outline_folded (s : Scope) (name : String) (body : List Block) :
    (s.folded name body).flatMap Block.outline = body.flatMap Block.outline := by
  unfold folded
  split
  · simp [Block.outline]
  · rfl

theorem clean_membersBlocks_of (h : ∀ m ∈ ds, ∀ b ∈ s.memberBlocks level m, b.Clean) :
    ∀ b ∈ s.membersBlocks level ds, b.Clean := by
  intro b hb
  rw [membersBlocks_eq_flatMap, List.mem_flatMap] at hb
  obtain ⟨m, hm, hb⟩ := hb
  exact h m hm b hb

theorem clean_memberBlocks (hs : s.index.OneLine) (hlevel : 0 < level) (hd : d.Plain)
    (hm : Declaration.Everywhere Declaration.Plain d.members) :
    ∀ b ∈ s.memberBlocks level d, b.Clean := by
  induction d using Declaration.induct generalizing level with
  | step d ih =>
    rw [memberBlocks_eq, List.forall_mem_cons]
    refine ⟨clean_nameHeading hlevel hd.name, clean_folded hd.name ?_⟩
    intro b hb
    rcases List.mem_append.1 hb with hb | hb
    · exact clean_ownBlocks hs hd level b hb
    · refine clean_membersBlocks_of (fun m hmem => ?_) b hb
      obtain ⟨hplain, hmembers⟩ := Declaration.everywhere_iff_forall.1 hm m hmem
      exact ih m hmem (Nat.succ_pos level) hplain hmembers

theorem clean_membersBlocks (hs : s.index.OneLine) (hlevel : 0 < level)
    (h : Declaration.Everywhere Declaration.Plain ds) :
    ∀ b ∈ s.membersBlocks level ds, b.Clean := by
  refine clean_membersBlocks_of fun m hm => ?_
  obtain ⟨hplain, hmembers⟩ := Declaration.everywhere_iff_forall.1 h m hm
  exact clean_memberBlocks hs hlevel hplain hmembers

end Scope

end ApiPages
