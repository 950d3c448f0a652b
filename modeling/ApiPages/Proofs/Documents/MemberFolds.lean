import ApiPages.Proofs.Declaration.Walk
import ApiPages.Proofs.Documents.Pages
import ApiPages.Proofs.Page.FoldedText
import ApiPages.Proofs.Page.TopAnchors
import ApiPages.Proofs.Page.Untagged

/-!
# Folds of members

Where members can be folded away, the tags of a page are balanced and its folds are the tree of the
members: in the order of the tree and as deep as in it, each member has one fold, which encloses its
signature, its documentation and its own members (`foldedTexts?_renderPage`). The text of a page
has to bring no tags of its own.
-/

namespace ApiPages

open Declaration (Everywhere Untagged walkAll)
open Text (FoldTag FoldMark TagFree Encloses foldMarks plainMarks foldedTexts?)

/-! ## Marks of blocks -/

namespace Block

variable {bs : List Block}

theorem foldMarks_join_cons (b : Block) (bs : List Block) :
    foldMarks (join (b :: bs)).toList =
      foldMarks b.text.toList ++ plainMarks ['\n', '\n'] ++ foldMarks (join bs).toList := by
  have hempty : '\n' :: (join bs).toList = [] ++ '\n' :: (join bs).toList := rfl
  rw [toList_join, Text.foldMarks_append_cons (by decide), hempty,
    Text.foldMarks_append_cons (by decide), List.append_assoc]
  rfl

/-- Blocks are read apart. -/
theorem foldMarks_join_append (bs cs : List Block) :
    foldMarks (join (bs ++ cs)).toList =
      foldMarks (join bs).toList ++ foldMarks (join cs).toList := by
  induction bs with
  | nil => rfl
  | cons b bs ih =>
    rw [List.cons_append, foldMarks_join_cons, foldMarks_join_cons, ih, List.append_assoc,
      List.append_assoc, List.append_assoc]

theorem encloses_join (h : ∀ b ∈ bs, b.Untagged) (depth : Nat) :
    Encloses depth (foldMarks (join bs).toList) [] := by
  induction bs with
  | nil => exact Encloses.plain depth []
  | cons b bs ih =>
    rw [List.forall_mem_cons] at h
    rw [foldMarks_join_cons, Text.foldMarks_of_tagFree h.1]
    exact ((Encloses.plain depth _).append (Encloses.plain depth _)).append (ih h.2)

theorem foldedTexts?_document (depth : Nat) (bs : List Block) :
    foldedTexts? depth (document bs) = foldedTexts? depth (join bs) := by
  have htext : document bs = String.ofList ((Text.trimEnd (join bs)).toList ++ ['\n']) := by
    simp [document]
  rw [htext, Text.foldedTexts?_append_singleton (by decide), String.ofList_toList,
    Text.foldedTexts?_trimEnd]

end Block

/-! ## Members -/

namespace Scope

variable {s : Scope} {level : Nat} {d : Declaration} {ds : List Declaration} {name : String}
  {body : List Block} {texts : List (Nat × String)}

theorem tagFree_summaryLine (hname : TagFree name.toList) : TagFree (summaryLine name).toList := by
  -- no tag ends in front of the name but in it, and none goes on behind it
  have hback : TagFree (name.toList ++ "</".toList ++ 'c' :: "ode></summary>\n\n".toList) :=
    (hname.append_back (by decide)).append_cons (by decide) (by decide)
  have hall : TagFree ("\n<summary><c".toList ++ 'o' :: ("de>".toList ++
      (name.toList ++ "</".toList ++ 'c' :: "ode></summary>\n\n".toList))) :=
    TagFree.append_cons (by decide) (by decide) (TagFree.front_append (by decide) hback)
  simpa [toList_summaryLine] using hall

theorem foldMarks_join_detailsStart (name : String) :
    foldMarks (Block.join [.detailsStart name]).toList =
      .tag .opening :: foldMarks (summaryLine name).toList := by
  obtain ⟨rest, hrest⟩ : ∃ rest, (summaryLine name).toList = [] ++ '\n' :: rest :=
    ⟨_, toList_summaryLine name⟩
  have hjoin : (Block.join [.detailsStart name]).toList = FoldTag.opening.text ++ '\n' :: rest := by
    rw [join_detailsStart, String.toList_append, hrest]
    rfl
  rw [hjoin, hrest, Text.foldMarks_append_cons (by decide),
    Text.foldMarks_append_cons (by decide), Text.foldMarks_tag]
  rfl

theorem foldMarks_join_detailsEnd :
    foldMarks (Block.join [.detailsEnd]).toList = .tag .closing :: plainMarks ['\n', '\n'] := by
  have htag : foldMarks (Block.text .detailsEnd).toList = [.tag .closing] :=
    Text.foldMarks_tag .closing
  rw [Block.foldMarks_join_cons, htag]
  rfl

/-- Balanced blocks that can be folded away are in one more fold. -/
theorem encloses_folded (hcollapsible : s.collapsible = true) (hname : TagFree name.toList)
    (h : Encloses (level + 1) (foldMarks (Block.join body).toList) texts) :
    Encloses level (foldMarks (Block.join (s.folded name body)).toList)
      ((level, summaryLine name ++ Block.join body) :: texts) := by
  have hinside : Encloses (level + 1)
      (foldMarks (summaryLine name).toList ++ foldMarks (Block.join body).toList) texts := by
    rw [Text.foldMarks_of_tagFree (tagFree_summaryLine hname)]
    exact (Encloses.plain _ _).append h
  have htext : String.ofList ((foldMarks (summaryLine name).toList ++
      foldMarks (Block.join body).toList).flatMap FoldMark.text) =
        summaryLine name ++ Block.join body := by
    rw [List.flatMap_append, Text.flatMap_text_foldMarks, Text.flatMap_text_foldMarks,
      ← String.toList_append, String.ofList_toList]
  have hall := hinside.block.append (Encloses.plain level ['\n', '\n'])
  rw [htext] at hall
  rw [folded, if_pos hcollapsible, Block.foldMarks_join_append, Block.foldMarks_join_append,
    foldMarks_join_detailsStart, foldMarks_join_detailsEnd]
  simpa using hall

theorem encloses_membersBlocks_of (h : ∀ m ∈ ds,
      Encloses level (foldMarks (Block.join (s.memberBlocks level m)).toList)
        ((m.walk level).map fun e => (e.1, s.foldedText e.1 e.2))) :
    Encloses level (foldMarks (Block.join (s.membersBlocks level ds)).toList)
      ((walkAll level ds).map fun e => (e.1, s.foldedText e.1 e.2)) := by
  induction ds with
  | nil => exact Encloses.plain level []
  | cons d ds ih =>
    rw [List.forall_mem_cons] at h
    rw [membersBlocks, Block.foldMarks_join_append, walkAll, List.map_append]
    exact h.1.append (ih h.2)

/-- **The folds of a member and of all below it** are the tree, each with what belongs to it. -/
theorem encloses_memberBlocks (hs : s.index.Untagged) (hcollapsible : s.collapsible = true)
    (level : Nat) (hd : d.Untagged) (hm : Everywhere Untagged d.members) :
    Encloses level (foldMarks (Block.join (s.memberBlocks level d)).toList)
      ((d.walk level).map fun e => (e.1, s.foldedText e.1 e.2)) := by
  induction d using Declaration.induct generalizing level with
  | step d ih =>
    have hmembers := encloses_membersBlocks_of fun m hmem =>
      have hmember := Declaration.everywhere_iff_forall.1 hm m hmem
      ih m hmem (level + 1) hmember.1 hmember.2
    have hbody : Encloses (level + 1) (foldMarks (Block.join (s.ownBlocks level d ++
          s.membersBlocks (level + 1) d.members)).toList)
        ((walkAll (level + 1) d.members).map fun e => (e.1, s.foldedText e.1 e.2)) := by
      rw [Block.foldMarks_join_append]
      exact (Block.encloses_join (untagged_ownBlocks hs hd level) _).append hmembers
    have hfolded := encloses_folded hcollapsible hd.name hbody
    have hheading := Text.foldMarks_of_tagFree (untagged_nameHeading level hd.name)
    rw [memberBlocks_eq, Block.foldMarks_join_cons, hheading, Declaration.walk_eq, List.map_cons]
    exact ((Encloses.plain level _).append (Encloses.plain level _)).append hfolded

theorem encloses_membersBlocks (hs : s.index.Untagged) (hcollapsible : s.collapsible = true)
    (level : Nat) (h : Everywhere Untagged ds) :
    Encloses level (foldMarks (Block.join (s.membersBlocks level ds)).toList)
      ((walkAll level ds).map fun e => (e.1, s.foldedText e.1 e.2)) := by
  refine encloses_membersBlocks_of fun m hm => ?_
  obtain ⟨hd, hmembers⟩ := Declaration.everywhere_iff_forall.1 h m hm
  exact encloses_memberBlocks hs hcollapsible level hd hmembers

end Scope

/-! ## Pages -/

namespace PageIndex

theorem untagged_ofCatalog {settings : Settings} (k : Catalog)
    (hstart : TagFree settings.linkStart.toList) (hend : TagFree settings.linkEnd.toList) :
    (ofCatalog settings k).Untagged where
  linkStart := hstart
  linkEnd := hend
  paths := by
    intro p hp
    have hmem := List.mem_map_of_mem (f := fun p => (p.identity, p.path)) hp
    rw [pages_identity, List.mem_map] at hmem
    obtain ⟨e, -, he⟩ := hmem
    exact ⟨e.1, e.2.name, settings.collapse, (Prod.mk.inj he).2.symm⟩
  anchors := not_mem_anchor_ofCatalog (by decide) (by decide) settings k

end PageIndex

variable {settings indexed : Settings} {d : Declaration}

/-- **The folds of a page are the tree of its members.** Where members can be folded away, the tags
of a page are balanced: its folds are as many as the declarations below the page's own, in the
order of the tree and as deep as in it, and each encloses the signature and the documentation of its
member and, behind these, the folds of that member's own members. -/
theorem foldedTexts?_renderPage (hcollapsible : settings.collapsible = true)
    (hstart : TagFree indexed.linkStart.toList) (hend : TagFree indexed.linkEnd.toList)
    (hd : Everywhere Untagged [d]) (k : Catalog) (path : String) :
    ∃ folds, foldedTexts? 2 (renderPage (.ofCatalog indexed k) settings path d) = some folds ∧
      folds = (walkAll 2 d.members).map (fun m =>
        (m.1, Scope.foldedText ⟨.ofCatalog indexed k, true, path, d.name⟩ m.1 m.2)) ∧
      (∀ m ∈ walkAll 2 d.members, Scope.Unfolds ⟨.ofCatalog indexed k, true, path, d.name⟩ m.1 m.2
        (Scope.foldedText ⟨.ofCatalog indexed k, true, path, d.name⟩ m.1 m.2)) ∧
      folds.length + 1 = d.count := by
  obtain ⟨hown, hmembers, -⟩ := Declaration.everywhere_cons.1 hd
  have hindex := PageIndex.untagged_ofCatalog k hstart hend
  generalize PageIndex.ofCatalog indexed k = x at hindex
  refine ⟨_, ?_, rfl, fun m _ => Scope.unfolds_foldedText rfl m.1 m.2, ?_⟩
  · have hnames : ∀ m ∈ d.members, TagFree m.name.toList := fun m hm =>
      (Declaration.everywhere_iff_forall.1 hmembers m hm).1.name
    have hbefore : ∀ b ∈ .heading ⟨1, d.name, true⟩ ::
        Scope.ownBlocks ⟨x, true, path, d.name⟩ 1 d ++
          contentsBlocks .empty settings.contents d, b.Untagged := by
      intro b hb
      simp only [List.mem_append, List.mem_cons] at hb
      rcases hb with (rfl | hb) | hb
      · exact untagged_nameHeading 1 hown.name
      · exact Scope.untagged_ownBlocks hindex hown 1 b hb
      · exact untagged_contentsBlocks .empty _ hnames b hb
    have hall := (Block.encloses_join hbefore 2).append
      (Scope.encloses_membersBlocks (s := ⟨x, true, path, d.name⟩) hindex rfl 2 hmembers)
    rw [← Block.foldMarks_join_append] at hall
    rw [renderPage, Block.foldedTexts?_document, pageBlocks, hcollapsible]
    exact hall.foldedTexts?
  · rw [List.length_map, Declaration.count_eq_length_nodes, Declaration.nodes_eq, List.length_cons,
      ← Declaration.map_snd_walkAll 2, List.length_map]

/-- Settings whose links are as near to a tag as texts without tags can bring them. -/
def nearlyTagged : Settings :=
  { Settings.standard with collapsible := true, linkStart := "<detail", linkEnd := ">" }

/-- A struct with a struct in it, which links to the outer one and has a member, and a property. -/
def nestedStruct : Declaration :=
  .bare .structType "Outer"
    [{ Declaration.bare .structType "Inner" [.bare .function "</details" []] with
        inheritance := ["Outer"] },
      .bare .property "size" []]

/-- Three members have three folds, and the fold of the function is in the fold of its struct. -/
theorem foldedTexts?_renderPage_nestedStruct :
    ∃ folds, foldedTexts? 2 (renderPage (.ofCatalog nearlyTagged (.ofList [nestedStruct]))
        nearlyTagged "structs/Outer.md" nestedStruct) = some folds ∧
      folds.map (·.1) = [2, 3, 2] ∧ folds.length + 1 = nestedStruct.count := by
  have hcollapsible : nearlyTagged.collapsible = true := rfl
  have hstart : TagFree nearlyTagged.linkStart.toList := by decide
  have hend : TagFree nearlyTagged.linkEnd.toList := by decide
  have huntagged : Everywhere Untagged [nestedStruct] := by
    have hall : ∀ d ∈ Declaration.nodesAll [nestedStruct], TagFree d.name.toList ∧
        TagFree d.signature.toList ∧ (∀ n ∈ d.inheritance, TagFree n.toList) ∧
        d.comment = none := by
      decide +kernel
    intro d hd
    obtain ⟨hname, hsignature, hinheritance, hcomment⟩ := hall d hd
    exact ⟨hname, hsignature, hinheritance, by simp [hcomment]⟩
  obtain ⟨folds, hfolds, rfl, -, hcount⟩ := foldedTexts?_renderPage hcollapsible hstart hend
    huntagged (.ofList [nestedStruct]) "structs/Outer.md"
  exact ⟨_, hfolds, rfl, hcount⟩

end ApiPages
